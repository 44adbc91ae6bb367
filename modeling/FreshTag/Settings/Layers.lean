/-
FreshTag/Settings/Layers.lean

The places that settings come from, the weakest first: two files that need not
exist, a file that was asked for, and the environment.  Each of them is merged
over what the weaker ones say.

A file holds a table, and its names are paths.  It can be named with or without
the ending `.json`.  A variable of the environment counts if its name, in lower
case, starts with `featuretag__`; what follows is a path, with `__` for a
point.  Its value is the first of these that it can be: `true` or `false`, a
whole number, any number, a list between commas for the two settings that are
lists, and a text.
-/
import FreshTag.Json.Reader
import FreshTag.Settings.Path
import FreshTag.Text.Pieces

namespace FreshTag.Settings

/-- Settings that cannot be used. -/
inductive Unusable where
  /-- the file that was asked for does not exist -/
  | missingFile
  /-- a file that holds no JSON text -/
  | noJson
  /-- a file that holds no table -/
  | notATable
  /-- a value that is not of the type of its setting -/
  | wrongType (setting : String)
  deriving DecidableEq, Repr

/-- The wording of a reason. -/
def Unusable.message : Unusable → String
  | .missingFile => "configuration file not found"
  | .noJson => "a configuration file holds a JSON text"
  | .notATable => "a configuration file holds a table"
  | .wrongType setting => "invalid type for `" ++ setting ++ "`"

/-- A configuration file. -/
inductive ConfigFile where
  | absent
  /-- a file that holds no JSON text -/
  | unreadable
  | content (v : Json.Value)

/-- The places of settings, the weakest first. -/
structure Layers where
  /-- the file for every installation -/
  base : ConfigFile := .absent
  /-- the file of this installation -/
  site : ConfigFile := .absent
  /-- the file that was asked for, if one was -/
  named : Option ConfigFile := none
  environment : List (String × String) := []

/-! ### Files -/

/-- The file that a JSON text makes. -/
def ConfigFile.ofText (text : String) : ConfigFile :=
  match Json.parse text with
  | .ok v => .content v
  | .error _ => .unreadable

/-- A path without the steps at its end that lead nowhere, by at most `fuel` steps, from its end to
its start. -/
def dropLastSteps : Nat → List Char → List Char
  | fuel + 1, '/' :: cs | fuel + 1, '.' :: '/' :: cs => dropLastSteps fuel cs
  | _, cs => cs

/-- The names that a file is looked for under, in order.  What stands behind the last name of a path
asks for a folder, so then there is no file of that very name. -/
def fileNames (path : String) : List String :=
  let ending := ".json"
  let named := String.ofList (dropLastSteps path.length path.toList.reverse).reverse ++ ending
  if path.endsWith ending then [path, named] else [named]

/-- The path of the file for every installation. -/
def basePath : String := "config/default"

/-- The path of the file of this installation. -/
def sitePath : String := "featuretag"

/-- The file at a path, out of those that exist. -/
def fileAt (files : List (String × ConfigFile)) (path : String) : ConfigFile :=
  ((fileNames path).findSome? (files.lookup ·)).getD .absent

/-- The layers of the files that exist, with the path of the file that is asked for. -/
def Layers.ofFiles (files : List (String × ConfigFile)) (asked : Option String)
    (environment : List (String × String)) : Layers where
  base := fileAt files basePath
  site := fileAt files sitePath
  named := asked.map (fileAt files)
  environment

/-- Entries that are written to the paths that their names denote. -/
def writeAll (entries : List (String × Value)) (root : Value) : Value :=
  entries.foldl (fun root (name, v) => (Path.ofText name).write v root) root

/-! ### The environment -/

/-- What a variable that counts has in front of its path. -/
def variableStart : List Char := "featuretag__".toList

/-- Points in place of pairs of underscores. -/
def withPoints : List Char → List Char
  | '_' :: '_' :: cs => '.' :: withPoints cs
  | c :: cs => c :: withPoints cs
  | [] => []

/-- The settings that are lists. -/
def listSettings : List String := ["catalog.include", "catalog.exclude"]

/-- The value of a variable. -/
def variableValue (setting s : String) : Value :=
  if Text.lower s = "true" then .bool true
  else if Text.lower s = "false" then .bool false
  else match Number.integer64? s with
    | some i => .integer i
    | none =>
      match Number.Extended.ofText? s with
      | some x => .real x
      | none =>
        if listSettings.contains setting then .list ((Text.splitAt ',' s).map .text) else .text s

/-- The setting that a variable gives, if it counts. -/
def ofVariable (name value : String) : Option (String × Value) :=
  (Text.dropStart? variableStart (Text.lower name).toList).map fun rest =>
    let setting := String.ofList (withPoints rest)
    (setting, variableValue setting value)

/-- The settings in the environment. -/
def ofEnvironment (environment : List (String × String)) : List (String × Value) :=
  environment.filterMap fun (name, value) => ofVariable name value

/-! ### All layers -/

/-- The entries of a file that need not exist. -/
def ConfigFile.entries : ConfigFile → Except Unusable (List (String × Value))
  | .absent => .ok []
  | .unreadable => .error .noJson
  | .content (.object members) => .ok (Value.ofMembers members)
  | .content _ => .error .notATable

/-- The entries of the file that was asked for. -/
def namedEntries : Option ConfigFile → Except Unusable (List (String × Value))
  | none => .ok []
  | some .absent => .error .missingFile
  | some file => file.entries

/-- The settings of all layers together. -/
def Layers.combined (l : Layers) : Except Unusable Value := do
  let base ← l.base.entries
  let site ← l.site.entries
  let named ← namedEntries l.named
  let root := writeAll base (.table [])
  let root := writeAll site root
  let root := writeAll named root
  return writeAll (ofEnvironment l.environment) root

end FreshTag.Settings
