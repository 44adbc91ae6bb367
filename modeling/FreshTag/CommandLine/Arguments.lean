/-
FreshTag/CommandLine/Arguments.lean

Reading the command line.  It has two levels, options before the command and
options of the command.  An option gets its value behind `=` or as the next
word that does not start with a dash; `--` ends the options.

An option without `=` is only taken in when the next option comes, or at the
end of its level.  A word or an option that is not known is refused before
that; asking for help comes after it.  The level before the command ends after
the command's own.
-/
import FreshTag.CommandLine.Options

namespace FreshTag.CommandLine

/-- What the program is told to do. -/
inductive Command where
  /-- keep the cache in step until told to stop -/
  | serve
  /-- remove what a broken-off run left behind -/
  | cleanup
  deriving DecidableEq, Repr, Inhabited

/-- The command of a word. -/
def Command.ofName? (word : String) : Option Command :=
  match word with
  | "serve" => some .serve
  | "cleanup" => some .cleanup
  | _ => none

/-- The options of a command. -/
def Command.parameters : Command → List Parameter
  | .serve => serveParameters
  | .cleanup => cleanupParameters

/-- A command line. -/
structure Arguments where
  configFile : Option String := none
  command : Option Command := none
  overrides : Settings.Entries := {}
  deriving DecidableEq, Repr, Inhabited

/-! ### One level -/

/-- What may be given at a level. -/
structure Level where
  parameters : List Parameter
  /-- the version can be asked for -/
  hasVersion : Bool := false

/-- What was given at a level so far. -/
structure Progress where
  given : Given := []
  /-- an option that is not taken in yet, with its value if that has come -/
  pending : Option (Parameter × Option String) := none

namespace Progress

/-- Takes in an option with a value. -/
def accept (p : Progress) (o : Parameter) (value : String) : Except Refusal Progress :=
  if o.form ≠ .texts ∧ (p.given.value? o.name).isSome then .error .repeated
  else match o.form.refusal? value with
    | some refusal => .error refusal
    | none => .ok { given := p.given ++ [(o.name, value)] }

/-- Takes in the option that is pending. -/
def resolve (p : Progress) : Except Refusal Progress :=
  match p.pending with
  | none => .ok p
  | some (_, none) => .error .missingValue
  | some (o, some value) => p.accept o value

/-- Refuses, unless the pending option is refused first. -/
def stopFor (p : Progress) (refusal : Refusal) : Except Refusal Progress :=
  match p.resolve with
  | .error first => .error first
  | .ok _ => .error refusal

end Progress

/-- The name of a long option and the value behind `=`. -/
def longParts (cs : List Char) : String × Option String :=
  match Text.cutFirst '=' cs with
  | some (name, value) => (String.ofList name, some (String.ofList value))
  | none => (String.ofList cs, none)

/-- Asking for something that takes no value. -/
def request (p : Progress) (refusal : Refusal) (value : Option String) : Except Refusal Progress :=
  match value with
  | some _ => .error .unneededValue
  | none => p.stopFor refusal

/-- A long option, without its dashes. -/
def longOption (level : Level) (p : Progress) (cs : List Char) : Except Refusal Progress :=
  let (name, value) := longParts cs
  if name = "help" then request p .help value
  else if name = "version" ∧ level.hasVersion = true then request p .version value
  else match level.parameters.find? (·.name = name) with
    | none => .error .unknownArgument
    | some o =>
      match p.resolve with
      | .error refusal => .error refusal
      | .ok p =>
        match value with
        | some value => p.accept o value
        | none => .ok { p with pending := some (o, none) }

/-- A group of short options, without its dash, by the first of them. -/
def shortOption (level : Level) (p : Progress) (cs : List Char) : Except Refusal Progress :=
  if cs.head? = some 'h' then p.stopFor .help
  else if cs.head? = some 'V' ∧ level.hasVersion = true then p.stopFor .version
  else .error .unknownArgument

/-- How a level ends. -/
inductive Ending where
  | finished
  /-- with a word that is not the value of an option, and words behind it -/
  | word (afterDashes : Bool) (word : String) (rest : List String)

/-- Reads the options of a level. -/
def readLevel (level : Level) : Progress → List String → Except Refusal (Progress × Ending)
  | p, [] => .ok (p, .finished)
  | p, word :: rest =>
    match word.toList with
    | ['-', '-'] =>
      match rest with
      | [] => .ok (p, .finished)
      | word :: rest => .ok (p, .word true word rest)
    | '-' :: '-' :: cs =>
      match longOption level p cs with
      | .error refusal => .error refusal
      | .ok p => readLevel level p rest
    | '-' :: c :: cs =>
      match shortOption level p (c :: cs) with
      | .error refusal => .error refusal
      | .ok p => readLevel level p rest
    | _ =>
      match p.pending with
      | some (o, none) => readLevel level { p with pending := some (o, some word) } rest
      | _ => .ok (p, .word false word rest)

/-! ### The whole line -/

/-- The options behind a command. -/
def readCommand (c : Command) (words : List String) : Except Refusal Given :=
  match readLevel { parameters := c.parameters } {} words with
  | .error refusal => .error refusal
  | .ok (_, .word ..) => .error .unknownArgument
  | .ok (p, .finished) => p.resolve.map (·.given)

/-- The words that help can be asked for. -/
def isTopic (word : String) : Bool :=
  (Command.ofName? word).isSome || word = "help"

/-- Help on the command of some words.  No topic has topics of its own. -/
def helpOn : List String → Refusal
  | [] => .help
  | [topic] => if isTopic topic then .help else .unknownCommand
  | _ => .unknownCommand

/-- The configuration file of the options, else that of the environment. -/
def fileOf (p : Progress) (fallback : Option String) : Except Refusal (Option String) :=
  match p.resolve with
  | .error refusal => .error refusal
  | .ok p =>
    match p.given.value? configFile.name, fallback with
    | some path, _ => .ok (some path)
    | none, none => .ok none
    | none, some path =>
      match configFile.form.refusal? path with
      | some refusal => .error refusal
      | none => .ok (some path)

/-- Reads a command line; `fallback` is the configuration file that the environment names. -/
def parse (fallback : Option String) (words : List String) : Except Refusal Arguments :=
  match readLevel { parameters := [configFile], hasVersion := true } {} words with
  | .error refusal => .error refusal
  | .ok (p, .finished) =>
    (fileOf p fallback).map fun configFile => { configFile }
  | .ok (p, .word false word rest) =>
    match Command.ofName? word with
    | none => .error (if word = "help" then helpOn rest else .unknownCommand)
    | some command =>
      match readCommand command rest with
      | .error refusal => .error refusal
      | .ok given =>
        (fileOf p fallback).map fun configFile =>
          { configFile, command := some command, overrides := given.entries }
  | .ok (_, .word true word _) =>
    .error (if isTopic word then .unknownArgument else .unknownCommand)

end FreshTag.CommandLine
