import TrainingJobs.Grid
import TrainingJobs.Json.Printer
import TrainingJobs.Yaml.Printer

/-!
# Output formats

What is shown is data, and for people a table or a list of titled values. The machine formats write the data; the table
formats draw a grid of several things and list the values of a single one.
-/

namespace TrainingJobs

/-- How results are written. -/
inductive OutputFormat
  | table
  /-- A table with every column. -/
  | wide
  | json
  | yaml
deriving DecidableEq, Repr, Inhabited

/-- Things that can be shown. -/
class Shown (α : Type) where
  /-- The columns of a table, of all of them when asked for. -/
  titles : Bool → List String
  /-- The cells under the columns. -/
  cells : Bool → α → List String
  /-- All values with their titles. -/
  pairs : α → List (String × String)
  /-- The thing as data. -/
  toJson : α → Json

namespace OutputFormat

/-- Data in a machine format. -/
def data? (f : OutputFormat) (value : Json) : Option String :=
  match f with
  | .json => some value.pretty
  | .yaml => some (Yaml.renderText (Yaml.ofJson value))
  | .table | .wide => none

/-- A title and a colon, at least `width` columns wide. -/
def titled (width : Nat) (title : String) : String :=
  title ++ ":" ++ Grid.repeated (width - (title.length + 1)) ' '

/-- Titled values, one a line, the values below one another. -/
def pairLines (pairs : List (String × String)) : String :=
  let width := (pairs.map fun p => p.1.length + 1).foldl max 0
  "\n".intercalate (pairs.map fun p => titled width p.1 ++ "  " ++ p.2)

variable {α : Type} [Shown α]

/-- A single thing. -/
def item (f : OutputFormat) (thing : α) : String :=
  (f.data? (Shown.toJson thing)).getD (pairLines (Shown.pairs thing))

/-- Several things as a table, or a note that there are none. -/
def tableOf (wide : Bool) (things : List α) : String :=
  if things.isEmpty then "No resources found"
  else Grid.render { titles := Shown.titles α wide, rows := things.map (Shown.cells wide) }

/-- Several things. -/
def list (f : OutputFormat) (things : List α) : String :=
  (f.data? (.array (things.map Shown.toJson))).getD (tableOf (f = .wide) things)

end OutputFormat

end TrainingJobs
