/-!
# Data values

`Json` is the data that objects of the cluster arrive as and that rows are written as. Objects keep their members in the
order they were written in; a look-up gives the last member of a name. A record of the program itself is read more
strictly (`Json.fields?`).
-/

namespace TrainingJobs

/-- A data value. -/
inductive Json
  | null
  | bool (value : Bool)
  | int (value : Int)
  | float (value : Float)
  | string (text : String)
  | array (items : List Json)
  | object (members : List (String × Json))
deriving Inhabited

namespace Json

/-- A natural number. -/
def nat (n : Nat) : Json := .int n

/-- A value that may be missing. -/
def ofOption {α : Type} (write : α → Json) : Option α → Json
  | none => .null
  | some a => write a

/-- The last member of a name. -/
def lastMember? (name : String) (members : List (String × Json)) : Option Json :=
  (members.reverse.find? (·.1 == name)).map (·.2)

/-- The value of a member of an object. What is no object has no members. -/
def member? (name : String) : Json → Option Json
  | .object members => lastMember? name members
  | _ => none

/-- The fields of a record, in the order of their names: members of an object, of which none may be repeated, or the items
of an array, which may stop early but has no more items than there are fields. Each field may be missing so far. -/
def fields? (names : List String) : Json → Option (List (Option Json))
  | .object members => names.mapM fun name =>
    match members.filter (·.1 == name) with
    | [] => some none
    | [member] => some (some member.2)
    | _ => none
  | .array items => if items.length ≤ names.length then some (names.mapIdx fun i _ => items[i]?) else none
  | _ => none

end Json

end TrainingJobs
