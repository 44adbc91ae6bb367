/-
FreshTag/Json/Value.lean

JSON values.  A number keeps the form it was written in: a whole number of 64
bits, with or without a minus sign, or a binary floating-point number.  The
members of an object are kept in the order of their keys, one per key.

`Members.insert` is the only way an object is built; after it the key leads to
the inserted value and every other key to what it led to before
(`find?_insert_self`, `find?_insert_of_ne`).
-/
import FreshTag.Number.Binary64

namespace FreshTag.Json

open FreshTag.Number

/-- A number as it was written. -/
inductive Number where
  /-- a whole number from 0 to `2 ^ 64 - 1` -/
  | natural (n : Nat)
  /-- the whole number `-n`, with `1 ≤ n ≤ 2 ^ 63` -/
  | negative (n : Nat)
  /-- any other number -/
  | float (x : Binary64)
  deriving DecidableEq, Repr, Inhabited

/-- A JSON value. -/
inductive Value where
  | null
  | bool (b : Bool)
  | number (n : Number)
  | string (s : String)
  | array (items : List Value)
  | object (members : List (String × Value))
  deriving Repr, Inhabited

/-- The members of an object, in the order of their keys. -/
abbrev Members := List (String × Value)

namespace Members

/-- The value of a key. -/
def find? (key : String) : Members → Option Value
  | [] => none
  | (k, v) :: rest => if k = key then some v else find? key rest

/-- Puts a value under a key, replacing an earlier one. -/
def insert (key : String) (value : Value) : Members → Members
  | [] => [(key, value)]
  | (k, v) :: rest =>
    if k = key then (key, value) :: rest
    else if key < k then (key, value) :: (k, v) :: rest
    else (k, v) :: insert key value rest

/-- The members in the order of their keys; of several with one key the last one. -/
def ofList (entries : List (String × Value)) : Members :=
  entries.foldl (fun ms (k, v) => insert k v ms) []

theorem find?_insert_self (key : String) (value : Value) (ms : Members) :
    find? key (insert key value ms) = some value := by
  induction ms with
  | nil => simp [insert, find?]
  | cons m ms ih =>
    obtain ⟨k, v⟩ := m
    by_cases h : k = key
    · simp [insert, find?, h]
    · by_cases hlt : key < k <;> simp [insert, find?, h, hlt, ih]

theorem find?_insert_of_ne {key other : String} (h : other ≠ key) (value : Value)
    (ms : Members) : find? other (insert key value ms) = find? other ms := by
  induction ms with
  | nil => simp [insert, find?, Ne.symm h]
  | cons m ms ih =>
    obtain ⟨k, v⟩ := m
    by_cases hk : k = key
    · subst hk; simp [insert, find?, Ne.symm h]
    · by_cases hlt : key < k <;> simp [insert, find?, hk, hlt, ih, Ne.symm h]

end Members

namespace Value

/-- The value of a key, if the value is an object that has it. -/
def get? (key : String) : Value → Option Value
  | .object members => Members.find? key members
  | _ => none

/-- The text of a string value. -/
def string? : Value → Option String
  | .string s => some s
  | _ => none

/-- The items of an array value. -/
def items? : Value → Option (List Value)
  | .array items => some items
  | _ => none

/-- A natural number value. -/
def natural? : Value → Option Nat
  | .number (.natural n) => some n
  | _ => none

/-- A whole number value. -/
def integer? : Value → Option Int
  | .number (.natural n) => some n
  | .number (.negative n) => some (-(n : Int))
  | _ => none

end Value

end FreshTag.Json
