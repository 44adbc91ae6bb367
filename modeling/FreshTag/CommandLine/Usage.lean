/-
FreshTag/CommandLine/Usage.lean

What the program prints when it does not run: its version, a summary of its
options, and the mistake that was made.
-/
import FreshTag.CommandLine.Arguments

namespace FreshTag.CommandLine

/-- Name and version of the program. -/
def versionText : String := "featuretag 0.1.0"

/-- How the value of an option is written. -/
def ValueForm.placeholder : ValueForm → String
  | .text => "TEXT"
  | .path => "PATH"
  | .truth => "BOOL"
  | .natural32 | .natural64 => "NUMBER"
  | .texts => "NAMES"

/-- The line of an option in the summary. -/
def Parameter.usage (p : Parameter) : String :=
  "      --" ++ p.name ++ " <" ++ p.form.placeholder ++ ">"

/-- The summary of all options. -/
def usageText : String :=
  "\n".intercalate
    (["Usage: featuretag [--config-file <PATH>] [serve|cleanup|help] [OPTIONS]", "", "serve:"] ++
      serveParameters.map Parameter.usage ++ ["", "cleanup:"] ++
      cleanupParameters.map Parameter.usage)

/-- What is printed for a command line that is not run. -/
def Refusal.text : Refusal → String
  | .help => usageText
  | .version => versionText
  | .unknownArgument => "error: unexpected argument\n\n" ++ usageText
  | .unknownCommand => "error: unrecognized subcommand\n\n" ++ usageText
  | .missingValue => "error: a value is required\n\n" ++ usageText
  | .badValue => "error: invalid value\n\n" ++ usageText
  | .repeated => "error: an argument cannot be used multiple times\n\n" ++ usageText
  | .unneededValue => "error: unexpected value\n\n" ++ usageText

/-- The exit code of a command line that is not run. -/
def Refusal.exitCode (r : Refusal) : Nat :=
  if r.isMistake then 2 else 0

end FreshTag.CommandLine
