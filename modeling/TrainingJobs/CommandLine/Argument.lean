import TrainingJobs.Number.Reading
import TrainingJobs.Output

/-!
# Arguments

What a command line is made of: options with values, flags, and the subcommands that take them (`Subcommand`). The
options of the program itself can also stand behind a subcommand.
-/

namespace TrainingJobs

/-- Why a command line is not carried out. -/
inductive UsageError
  /-- Help is asked for. -/
  | help
  /-- The version is asked for. -/
  | version
  /-- Nothing is given where a subcommand is needed. -/
  | nothingGiven
  | missingSubcommand
  | unknownSubcommand
  | unknownArgument
  | missingArgument
  /-- An option is given twice. -/
  | repeatedArgument
  /-- An option has no value, or one that it does not know. -/
  | invalidValue
  /-- A value is no number. -/
  | invalidNumber
  /-- A flag has a value. -/
  | unwantedValue
deriving DecidableEq, Repr

/-- What is said about it. -/
def UsageError.message : UsageError → String
  | .help | .nothingGiven => "usage: trainctl [OPTIONS] top node|list|get|submit|delete|prune [ARGUMENTS]"
  | .version => "trainctl 0.1.0"
  | .missingSubcommand => "a subcommand is missing"
  | .unknownSubcommand => "there is no such subcommand"
  | .unknownArgument => "there is no such argument"
  | .missingArgument => "an argument is missing"
  | .repeatedArgument => "an argument is given twice"
  | .invalidValue => "an option has no valid value"
  | .invalidNumber => "a value is no number"
  | .unwantedValue => "a flag takes no value"

/-- The exit code of the program then. Help and the version are no failures. -/
def UsageError.exitCode : UsageError → UInt32
  | .help | .version => 0
  | _ => 2

/-- The value of an option. -/
inductive ArgumentValue
  | text (text : String)
  | format (format : OutputFormat)
  | integer (n : Int)
  | real (x : Float)

/-- What an option takes for a value. -/
inductive Takes
  | text
  /-- A text that is not empty. -/
  | path
  | format
  | integer
  | real
deriving DecidableEq, Repr

/-- The formats by name. -/
def OutputFormat.ofName? : String → Option OutputFormat
  | "table" => some .table
  | "wide" => some .wide
  | "json" => some .json
  | "yaml" => some .yaml
  | _ => none

/-- Reads a value. -/
def Takes.read (t : Takes) (value : String) : Except UsageError ArgumentValue :=
  match t with
  | .text => .ok (.text value)
  | .path => if value.isEmpty then .error .invalidValue else .ok (.text value)
  | .format => match OutputFormat.ofName? value with
    | some f => .ok (.format f)
    | none => .error .invalidValue
  | .integer => match readInteger? value with
    | some n => .ok (.integer n)
    | none => .error .invalidNumber
  | .real => match readFloat? value with
    | some x => .ok (.real x)
    | none => .error .invalidNumber

/-- What giving an argument does. -/
inductive ArgumentRule
  /-- Takes a value, once. -/
  | once (takes : Takes)
  /-- Takes a value each time. -/
  | each (takes : Takes)
  /-- Is given or not, once. -/
  | flag
  /-- Counts how often it is given. -/
  | counted
  | help
  | version
deriving DecidableEq, Repr

/-- What an argument takes for a value, if it takes one. -/
def ArgumentRule.takes? : ArgumentRule → Option Takes
  | .once t => some t
  | .each t => some t
  | _ => none

/-- An argument of a command. One by position has a name too, but is not given by it. -/
structure Argument where
  name : String
  letter : Option Char := none
  rule : ArgumentRule
  required : Bool := false
deriving DecidableEq, Repr

/-- The commands on the way to what is to be done. -/
inductive Subcommand
  | program
  | top
  | topNode
  | list
  | get
  | submit
  | delete
  | prune
deriving DecidableEq, Repr

namespace Subcommand

/-- The subcommands of a command. -/
def children : Subcommand → List (String × Subcommand)
  | .program =>
    [("top", .top), ("list", .list), ("get", .get), ("submit", .submit), ("delete", .delete), ("prune", .prune)]
  | .top => [("node", .topNode)]
  | _ => []

/-- The name by which help on subcommands is asked for. -/
def helpName : String := "help"

/-- The subcommand of a name. -/
def child? (c : Subcommand) (name : String) : Option Subcommand := c.children.lookup name

/-- The options that stand behind any command. -/
def common : List Argument :=
  [{ name := "project", letter := some 'p', rule := .once .text },
    { name := "all-projects", letter := some 'A', rule := .flag },
    { name := "output", letter := some 'o', rule := .once .format },
    { name := "verbose", letter := some 'v', rule := .counted },
    { name := "config", rule := .once .path },
    { name := "help", letter := some 'h', rule := .help }]

/-- The options of a command itself. -/
def own : Subcommand → List Argument
  | .program => [{ name := "version", letter := some 'V', rule := .version }]
  | .topNode => [{ name := "details", rule := .flag }]
  | .submit =>
    [{ name := "image", letter := some 'i', rule := .once .text, required := true },
      { name := "gpu", letter := some 'g', rule := .once .real },
      { name := "cpu", rule := .once .text },
      { name := "memory", rule := .once .text },
      { name := "cpu-limit", rule := .once .text },
      { name := "memory-limit", rule := .once .text },
      { name := "environment", letter := some 'e', rule := .each .text },
      { name := "set", rule := .each .text },
      { name := "user", rule := .once .text },
      { name := "interactive", rule := .flag },
      { name := "generate-name", rule := .flag },
      { name := "dry-run", rule := .flag }]
  | .prune => [{ name := "days", rule := .once .integer }, { name := "hours", rule := .once .integer }]
  | _ => []

/-- All options of a command. -/
def options (c : Subcommand) : List Argument := c.own ++ common

/-- The argument of a command that is given by position. -/
def positional? : Subcommand → Option Argument
  | .get => some { name := "NAME", rule := .once .text, required := true }
  | .submit => some { name := "NAME", rule := .once .text, required := true }
  | .delete => some { name := "NAMES", rule := .each .text, required := true }
  | _ => none

/-- The arguments that a command must have. -/
def required (c : Subcommand) : List Argument := (c.positional?.toList ++ c.options).filter (·.required)

end Subcommand

end TrainingJobs
