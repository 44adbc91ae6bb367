/-
FreshTag/Json/Record.lean

Reading a record: an object with known keys, or an array of the fields in
their order.  A draft of type `σ` collects what was read.  In an object a key
may stand once, other keys are skipped, and a required field that is missing
at the end is an error; the first one missing in the order of the fields is
named.  In an array only fields that may be absent can be left out at the end.

A variant is one of several names, written as a string or as the only key of
an object that leads to `null`.
-/
import FreshTag.Json.Reader

namespace FreshTag.Json

/-- A field of a record whose draft is a `σ`. -/
structure RecordField (σ : Type) where
  name : String
  /-- the record is complete without the field -/
  optional : Bool
  /-- the draft has the field already -/
  filled : σ → Bool
  /-- reads the field into the draft -/
  read : σ → List Char → Except Error (σ × List Char)

/-- A record: its name in error messages and its fields. -/
structure Record (σ : Type) where
  name : String
  fields : List (RecordField σ)

namespace Record

variable {σ : Type}

/-- The members of an object, read into the draft. -/
def readMembers (r : Record σ) : Nat → Bool → σ → List Char → Except Error (σ × List Char)
  | 0, _, _, _ => .error .eofObject
  | fuel + 1, first, draft, cs => do
    match ← nextKey first cs with
    | none => .ok (draft, cs)
    | some cs =>
      let (key, cs) ← readString cs
      match r.fields.find? (·.name = key) with
      | some field =>
        if field.filled draft then .error (.duplicateField field.name)
        else
          let cs ← readColon cs
          let (draft, cs) ← field.read draft cs
          readMembers r fuel false draft cs
      | none =>
        let cs ← readColon cs
        let cs ← skipValue cs
        readMembers r fuel false draft cs

/-- Checks that no required field is missing. -/
def complete (r : Record σ) (draft : σ) : Except Error σ :=
  match r.fields.find? fun f => !f.optional && !f.filled draft with
  | some f => .error (.missingField f.name)
  | none => .ok draft

/-- What an array of the fields is expected to be. -/
def expectedItems (r : Record σ) : String :=
  s!"struct {r.name} with {r.fields.length} elements"

/-- The items of an array, read into the draft; `index` fields were read before. -/
def readItems (r : Record σ) :
    List (RecordField σ) → Nat → σ → List Char → Except Error (σ × List Char)
  | [], _, draft, cs => .ok (draft, cs)
  | field :: fields, index, draft, cs => do
    match ← nextItem (index == 0) cs with
    | some cs =>
      let (draft, cs) ← field.read draft cs
      readItems r fields (index + 1) draft cs
    | none =>
      if field.optional then readItems r fields (index + 1) draft cs
      else .error (.invalidLength index r.expectedItems)

/-- Reads a record; `fields` makes the fields for the depth that is left inside it. -/
def read (name : String) (fields : Nat → List (RecordField σ)) (draft : σ) (depth : Nat)
    (cs : List Char) : Except Error (σ × List Char) :=
  match skipBlank cs with
  | [] => .error .eofValue
  | c :: rest =>
    if c = '{' then
      match depth with
      | 0 => .error .recursionLimit
      | depth + 1 => do
        let r : Record σ := ⟨name, fields depth⟩
        let (draft, cs) ← r.readMembers rest.length true draft rest
        let draft ← r.complete draft
        let cs ← closeObject cs
        .ok (draft, cs)
    else if c = '[' then
      match depth with
      | 0 => .error .recursionLimit
      | depth + 1 => do
        let r : Record σ := ⟨name, fields depth⟩
        let (draft, cs) ← r.readItems r.fields 0 draft rest
        let cs ← closeArray cs
        .ok (draft, cs)
    else .error (mismatch ("struct " ++ name) (c :: rest))

end Record

/-! ### Fields -/

/-- Reads a string value. -/
def readStringValue (expected : String) (cs : List Char) : Except Error (String × List Char) :=
  match skipBlank cs with
  | [] => .error .eofValue
  | c :: rest => if c = '"' then readString rest else .error (mismatch expected (c :: rest))

/-- Reads a text. -/
def readTextValue (cs : List Char) : Except Error (String × List Char) :=
  readStringValue "a string" cs

/-- Reads `null` as nothing and anything else with `read`. -/
def readOption {α : Type} (read : List Char → Except Error (α × List Char)) (cs : List Char) :
    Except Error (Option α × List Char) :=
  match skipBlank cs with
  | 'n' :: rest => (readWord ['u', 'l', 'l'] rest).map fun cs => (none, cs)
  | cs => (read cs).map fun (x, cs) => (some x, cs)

/-- Reads the name of a variant behind its opening quote. -/
def readVariantName (known : List String) (cs : List Char) :
    Except Error (String × List Char) := do
  let (name, cs) ← readString cs
  if name ∈ known then .ok (name, cs) else .error (.unknownVariant name known)

/-- Reads `null`, where nothing else is expected. -/
def readUnit (cs : List Char) : Except Error (List Char) :=
  match skipBlank cs with
  | [] => .error .eofValue
  | 'n' :: rest => readWord ['u', 'l', 'l'] rest
  | cs => .error (mismatch "unit" cs)

/-- Reads a variant without contents. -/
def readVariant (known : List String) (depth : Nat) (cs : List Char) :
    Except Error (String × List Char) :=
  match skipBlank cs with
  | [] => .error .eofValue
  | c :: rest =>
    if c = '{' then
      if depth = 0 then .error .recursionLimit
      else do
        match ← nextKey true rest with
        | none => .error .expectedValue
        | some cs =>
          let (name, cs) ← readVariantName known cs
          let cs ← readColon cs
          let cs ← readUnit cs
          match skipBlank cs with
          | [] => .error .eofObject
          | c :: cs => if c = '}' then .ok (name, cs) else .error .expectedValue
    else if c = '"' then readVariantName known rest
    else .error .expectedValue

end FreshTag.Json
