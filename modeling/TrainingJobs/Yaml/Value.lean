import TrainingJobs.Json.Value

/-!
# Values of a YAML document

`Yaml` is the data a YAML document holds. Its mappings keep the order of their entries and take any value as a key; a
value can carry a tag of its own. Every JSON value is a YAML value (`Yaml.ofJson`).
-/

namespace TrainingJobs

/-- A value of a YAML document. -/
inductive Yaml
  | null
  | bool (value : Bool)
  | int (value : Int)
  | float (value : Float)
  | string (text : String)
  | sequence (items : List Yaml)
  | mapping (entries : List (Yaml × Yaml))
  /-- A value with a tag, which is kept without its exclamation mark. -/
  | tagged (tag : String) (value : Yaml)
deriving Inhabited

namespace Yaml

mutual

/-- The YAML value of a JSON value. -/
def ofJson : Json → Yaml
  | .null => .null
  | .bool b => .bool b
  | .int n => .int n
  | .float x => .float x
  | .string text => .string text
  | .array items => .sequence (ofItems items)
  | .object members => .mapping (ofMembers members)

/-- The YAML values of the items of an array. -/
def ofItems : List Json → List Yaml
  | [] => []
  | item :: rest => ofJson item :: ofItems rest

/-- The entries of the members of an object. -/
def ofMembers : List (String × Json) → List (Yaml × Yaml)
  | [] => []
  | (name, value) :: rest => (.string name, ofJson value) :: ofMembers rest

end

/-- Whether two floats are the same key: no number is the same as no number. -/
def sameFloat (x y : Float) : Bool := x == y || (x.isNaN && y.isNaN)

mutual

/-- Whether two values are the same key of a mapping. The order of entries does not count. -/
def same : Yaml → Yaml → Bool
  | .null, .null => true
  | .bool a, .bool b => a == b
  | .int a, .int b => a == b
  | .float a, .float b => sameFloat a b
  | .string a, .string b => a == b
  | .sequence a, .sequence b => sameItems a b
  | .mapping a, .mapping b => a.length == b.length && haveSame a b
  | .tagged s a, .tagged t b => s == t && same a b
  | _, _ => false

/-- Whether two lists of values agree item by item. -/
def sameItems : List Yaml → List Yaml → Bool
  | [], [] => true
  | a :: as, b :: bs => same a b && sameItems as bs
  | _, _ => false

/-- Whether every entry has the same entry in another list. -/
def haveSame : List (Yaml × Yaml) → List (Yaml × Yaml) → Bool
  | [], _ => true
  | (k, v) :: rest, entries => entries.any (fun e => same k e.1 && same v e.2) && haveSame rest entries

end

/-- Whether a key stands in a list of entries. -/
def hasKey (key : Yaml) (entries : List (Yaml × Yaml)) : Bool := entries.any fun e => same key e.1

end Yaml

end TrainingJobs
