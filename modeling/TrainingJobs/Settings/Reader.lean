import TrainingJobs.Number.Binary
import TrainingJobs.Settings.Basic
import TrainingJobs.Settings.Scan

/-!
# Reading settings

A record of settings names some of them, each once and in any order; the others keep their values. Texts that can be
missing are written as `None` or `Some(TEXT)`; a text may ask for leaving out the `Some`.
-/

namespace TrainingJobs.Settings

open Scan

/-- The greatest number of seconds. -/
def greatestTimeout : Nat := Nat.pow 2 64 - 1

/-- Takes a text that can be missing. -/
def optionalText (bare : Bool) : Scan (Option String) := do
  if ← take? "None" then return none
  let marked ← if ← take? "Some" then do
      gap
      take? "("
    else pure false
  if marked then
    gap
    let value ← text
    let _ ← comma
    expect ")"
    return some value
  else if bare then return some (← text)
  else failure

/-- Takes the value of the setting of a name. -/
def setting (bare : Bool) (name : String) (s : Settings) : Scan Settings :=
  match name with
  | "default_project" => return { s with defaultProject := ← optionalText bare }
  | "namespace_prefix" => return { s with spaceStart := ← text }
  | "system_namespace" => return { s with systemSpace := ← text }
  | "prometheus_address" => return { s with metricsAddress := ← optionalText bare }
  | "prometheus_timeout" => return { s with metricsTimeout := ← number greatestTimeout }
  | "chart" => return { s with chart := ← text }
  | "scheduler_name" => return { s with scheduler := ← text }
  | "registration_retries" => return { s with registrationRetries := ← number maxWord }
  | _ => failure

/-- The number of settings, so that a record has at most as many. -/
def count : Nat := 8

/-- Takes the settings of a record up to its end, at most so many more. Between two there is a comma. -/
def settings (bare : Bool) : Nat → Bool → List String → Settings → Scan Settings
  | left, separated, seen, s => do
    gap
    let next ← peek
    if next == none then failure
    if next == some ')' then return s
    if !separated then failure
    match left with
    | 0 => failure
    | left + 1 =>
      let name ← Scan.name
      if seen.contains name then failure
      gap
      expect ":"
      gap
      let s ← setting bare name s
      settings bare left (← comma) (name :: seen) s

/-- The extensions that a text can ask for. -/
def extensions : List String := ["unwrap_newtypes", "implicit_some", "unwrap_variant_newtypes"]

/-- Takes names of extensions, at most so many. -/
def extensionNames : Nat → Scan (List String)
  | 0 => failure
  | left + 1 => do
    let name ← Scan.name
    if !extensions.contains name then failure
    let separated ← comma
    let next ← peek
    if separated && next.any inName then return name :: (← extensionNames left) else return [name]

/-- Takes the lines that ask for extensions, at most so many, and gives the extensions. -/
def extensionLines : Nat → Scan (List String)
  | 0 => return []
  | left + 1 => do
    if (← peek) != some '#' then return []
    expectAll ["#", "!", "[", "enable", "("]
    let names ← extensionNames (← get).length
    gap
    expectAll [")", "]"]
    return names ++ (← extensionLines left)

/-- The name that a record may have in front. -/
def recordName : String := "CliConfig"

/-- Takes the name of a record if there is one; there is only one name. -/
def skipRecordName : Scan Unit := do
  if (← peek).any inName then
    let name ← Scan.name
    if name != recordName then failure

/-- Takes a record and everything around it. -/
def document : Scan Settings := do
  gap
  let extensions ← extensionLines (← get).length
  skipRecordName
  gap
  expect "("
  let s ← settings (extensions.contains "implicit_some") count true [] {}
  expect ")"
  gap
  if (← get).isEmpty then return s else failure

/-- Reads a record of settings. -/
def read? (content : String) : Option Settings := (document.run content.toList).map (·.1)

end TrainingJobs.Settings
