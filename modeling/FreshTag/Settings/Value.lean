/-
FreshTag/Settings/Value.lean

The value of a setting before its type is known.  Tables hold settings by
name; a value that is merged over another one replaces it, except that a table
is merged into it entry by entry.

`merge` takes the value of the weaker place first.  Under a table, also one
without entries, anything that is not a table counts as an empty one.
-/
import FreshTag.Json.Value
import FreshTag.Number.Extended

namespace FreshTag.Settings

open FreshTag.Number (Extended)

/-- A value in a file or in the environment. -/
inductive Value where
  | null
  | bool (b : Bool)
  | integer (i : Int)
  | real (x : Extended)
  | text (s : String)
  | list (items : List Value)
  | table (entries : List (String × Value))
  deriving Repr, Inhabited

namespace Value

/-- The entry of a name. -/
def find? (name : String) : List (String × Value) → Option Value
  | [] => none
  | (n, v) :: rest => if n = name then some v else find? name rest

/-- Changes the entry of a name; one that is not there starts as `null`. -/
def alterEntry (name : String) (f : Value → Value) :
    List (String × Value) → List (String × Value)
  | [] => [(name, f .null)]
  | (n, v) :: rest => if n = name then (n, f v) :: rest else (n, v) :: alterEntry name f rest

/-- Changes a named entry; something that is not a table becomes one. -/
def alter (name : String) (f : Value → Value) : Value → Value
  | .table entries => .table (alterEntry name f entries)
  | _ => .table [(name, f .null)]

mutual

/-- A value over a weaker one. -/
def merge : Value → Value → Value
  | .table weaker, .table entries => mergeEntries (.table weaker) entries
  | _, .table entries => mergeEntries (.table []) entries
  | _, stronger => stronger

/-- Entries over a weaker value. -/
def mergeEntries : Value → List (String × Value) → Value
  | weaker, [] => weaker
  | weaker, (name, v) :: rest => mergeEntries (weaker.alter name fun old => merge old v) rest

end

/-- A number in a file.  Whole numbers that fit 64 bits, with or without a sign, are exact. -/
def ofNumber : Json.Number → Value
  | .natural n => .integer n
  | .negative n => .integer (-(n : Int))
  | .float x => .real (.finite x)

mutual

/-- The setting that a JSON value holds. -/
def ofJson : Json.Value → Value
  | .null => .null
  | .bool b => .bool b
  | .number n => ofNumber n
  | .string s => .text s
  | .array items => .list (ofItems items)
  | .object members => .table (ofMembers members)

/-- The settings in an array. -/
def ofItems : List Json.Value → List Value
  | [] => []
  | v :: rest => ofJson v :: ofItems rest

/-- The settings in an object. -/
def ofMembers : List (String × Json.Value) → List (String × Value)
  | [] => []
  | (name, v) :: rest => (name, ofJson v) :: ofMembers rest

end

theorem find?_alterEntry (name other : String) (f : Value → Value)
    (entries : List (String × Value)) :
    find? other (alterEntry name f entries) =
      if other = name then some (f ((find? name entries).getD .null)) else find? other entries := by
  induction entries with
  | nil =>
    by_cases h : other = name
    · subst h; simp [alterEntry, find?]
    · simp [alterEntry, find?, h, Ne.symm h]
  | cons e rest ih =>
    obtain ⟨n, v⟩ := e
    by_cases hn : n = name
    · subst hn
      by_cases h : other = n
      · subst h; simp [alterEntry, find?]
      · simp [alterEntry, find?, h, Ne.symm h]
    · by_cases h : n = other
      · subst h; simp [alterEntry, find?, hn]
      · simp [alterEntry, find?, hn, h, ih]

end Value

end FreshTag.Settings
