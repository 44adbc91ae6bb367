/-
FreshTag/CommandLine/Options.lean

The options of the command line.  Every option takes one value; the value has
a form, and an option whose values are lists may be given again.  The options
of a command override settings.
-/
import FreshTag.Settings.Entries

namespace FreshTag.CommandLine

open FreshTag.Settings (Entries)

/-- Why a command line is not run. -/
inductive Refusal where
  /-- help was asked for -/
  | help
  /-- the version was asked for -/
  | version
  | unknownArgument
  | unknownCommand
  /-- an option without its value -/
  | missingValue
  /-- an option with a value that is not of its form -/
  | badValue
  /-- an option that was given before -/
  | repeated
  /-- a value for something that takes none -/
  | unneededValue
  deriving DecidableEq, Repr

/-- Asking for help or the version is no mistake. -/
def Refusal.isMistake : Refusal → Bool
  | .help | .version => false
  | _ => true

/-- The form of a value. -/
inductive ValueForm where
  | text
  | path
  | truth
  | natural32
  | natural64
  | texts
  deriving DecidableEq, Repr

/-- The truth value of a word, in any case. -/
def truth? (s : String) : Option Bool :=
  let word := Text.lower s
  if ["y", "yes", "t", "true", "on", "1"].contains word then some true
  else if ["n", "no", "f", "false", "off", "0"].contains word then some false
  else none

/-- The number of a value of 32 bits. -/
def natural32? (s : String) : Option Nat :=
  (Number.integer? 0 ((Number.twoTo 32 : Int) - 1) s).map Int.toNat

/-- What is wrong with a value of the form. -/
def ValueForm.refusal? (form : ValueForm) (s : String) : Option Refusal :=
  let badUnless (ok : Bool) : Option Refusal := if ok then none else some .badValue
  match form with
  | .text => none
  | .path => if s = "" then some .missingValue else none
  | .truth => badUnless (truth? s).isSome
  | .natural32 => badUnless (natural32? s).isSome
  | .natural64 => badUnless (Number.natural64? s).isSome
  | .texts => none

/-- An option. -/
structure Parameter where
  name : String
  form : ValueForm
  deriving DecidableEq, Repr

/-- The option for a configuration file, which stands before the command. -/
def configFile : Parameter := ⟨"config-file", .path⟩

/-- The options of the command that serves. -/
def serveParameters : List Parameter :=
  [⟨"log-level", .text⟩, ⟨"log-json", .truth⟩, ⟨"database-url", .text⟩,
   ⟨"database-max-connections", .natural32⟩, ⟨"cache-kind", .text⟩,
   ⟨"cache-naive-capacity", .natural64⟩, ⟨"cache-redis-url", .text⟩,
   ⟨"listener-enabled", .truth⟩, ⟨"listener-temp-schema", .text⟩,
   ⟨"listener-wait-timeout-ms", .natural64⟩, ⟨"listener-chunk-size", .natural32⟩,
   ⟨"catalog-include", .texts⟩, ⟨"catalog-exclude", .texts⟩]

/-- The options of the command that cleans up. -/
def cleanupParameters : List Parameter :=
  [⟨"database-url", .text⟩, ⟨"listener-temp-schema", .text⟩]

/-- Options with their values, in the order in which they were given. -/
abbrev Given := List (String × String)

namespace Given

/-- The value of an option. -/
def value? (g : Given) (name : String) : Option String :=
  (g.find? (·.1 = name)).map Prod.snd

/-- The values of an option, each of them a list between commas. -/
def values? (g : Given) (name : String) : Option (List String) :=
  match g.filter (·.1 = name) with
  | [] => none
  | given => some (given.flatMap fun (_, s) => Text.splitAt ',' s)

/-- The settings that the options give. -/
def entries (g : Given) : Entries where
  logLevel := g.value? "log-level"
  logJson := (g.value? "log-json").bind truth?
  databaseUrl := g.value? "database-url"
  maxConnections := (g.value? "database-max-connections").bind natural32?
  cacheKind := g.value? "cache-kind"
  naiveCapacity := (g.value? "cache-naive-capacity").bind Number.natural64?
  redisUrl := g.value? "cache-redis-url"
  listenerEnabled := (g.value? "listener-enabled").bind truth?
  schema := g.value? "listener-temp-schema"
  waitMilliseconds := (g.value? "listener-wait-timeout-ms").bind Number.natural64?
  chunk := (g.value? "listener-chunk-size").bind natural32?
  included := g.values? "catalog-include"
  excluded := g.values? "catalog-exclude"

end Given

end FreshTag.CommandLine
