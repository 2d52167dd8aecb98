import TrainingJobs.Settings.Basic
import TrainingJobs.Text.Shown

/-!
# Writing settings

Settings are written as a record: names and values between parentheses, in a fixed order and without blanks.
-/

namespace TrainingJobs.Settings

/-- The characters that write one character of a text. What does not show is written by its number. -/
def escaped (c : Char) : List Char :=
  if c = '\x00' then ['\\', '0']
  else if c = '\t' then ['\\', 't']
  else if c = '\r' then ['\\', 'r']
  else if c = '\n' then ['\\', 'n']
  else if c = '\\' || c = '\x22' || c = '\x27' then ['\\', c]
  else if Text.isShown c then [c]
  else ['\\', 'u', '\x7b'] ++ Nat.toDigits 16 c.toNat ++ ['\x7d']

/-- A text between quotes. -/
def quoted (text : String) : String :=
  String.ofList ('\x22' :: text.toList.flatMap escaped ++ ['\x22'])

/-- A text that can be missing. -/
def optionText : Option String → String
  | none => "None"
  | some text => "Some(" ++ quoted text ++ ")"

/-- The names and written values of settings. -/
def fields (s : Settings) : List (String × String) :=
  [("default_project", optionText s.defaultProject), ("namespace_prefix", quoted s.spaceStart),
    ("system_namespace", quoted s.systemSpace), ("prometheus_address", optionText s.metricsAddress),
    ("prometheus_timeout", toString s.metricsTimeout), ("chart", quoted s.chart),
    ("scheduler_name", quoted s.scheduler), ("registration_retries", toString s.registrationRetries)]

/-- The record of settings. -/
def text (s : Settings) : String :=
  "(" ++ ",".intercalate (s.fields.map fun f => f.1 ++ ":" ++ f.2) ++ ")"

end TrainingJobs.Settings
