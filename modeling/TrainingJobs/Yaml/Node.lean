import TrainingJobs.Yaml.Scalar
import TrainingJobs.Yaml.Token

/-!
# The nodes of a YAML document

A document is a tree of nodes (`Node.ofTokens?`). A node is known by its anchor from its start on, in a numbered slot;
an alias stands for the node in the slot of its name. `Yaml.ofNode?` puts in what aliases stand for, types plain
scalars, and refuses keys that a mapping already has.
-/

namespace TrainingJobs.Yaml

/-- A node of a document. -/
inductive Node
  | scalar (tag : Option String) (text : String) (isPlain : Bool)
  | sequence (tag : Option String) (items : List Node)
  | mapping (tag : Option String) (entries : List (Node × Node))
  /-- The node in a slot. -/
  | alias (slot : Nat)
deriving Inhabited

/-- A document that is read as far as the tokens that are left. -/
structure Composing where
  tokens : List Token
  /-- What the handles of tags stand for. -/
  handles : List (String × String)
  /-- The slots of the anchors by name. A name that is used again gets a new slot. -/
  anchors : List (String × Nat) := []
  /-- The nodes in the slots, the last one of a slot first. -/
  slots : List (Nat × Node) := []
  /-- How many parts the document has: a scalar or alias is one, a collection has a start and an end. -/
  parts : Nat := 0

/-- Reading a part of a document, or finding that there is no such part. -/
abbrev Compose := StateT Composing Option

namespace Compose

/-- The next token stays. -/
def peek : Compose (Option Token) := return (← get).tokens.head?

/-- The next token goes. -/
def skip : Compose Unit := modify fun s => { s with tokens := s.tokens.drop 1 }

/-- So many more parts. -/
def count (n : Nat) : Compose Unit := modify fun s => { s with parts := s.parts + n }

/-- Nothing stands where a value could: an empty plain scalar. -/
def empty : Compose Node := do
  count 1
  return .scalar none "" true

/-- The slot of a new anchor. -/
def slotOf (anchor : Option String) : Compose (Option Nat) := do
  match anchor with
  | none => return none
  | some name =>
    let s ← get
    let slot := s.anchors.length
    set { s with anchors := (name, slot) :: s.anchors.filter (·.1 != name) }
    return some slot

/-- Puts a node into the slot of its anchor. -/
def keep (slot : Option Nat) (node : Node) : Compose Node := do
  if let some slot := slot then
    modify fun s => { s with slots := (slot, node) :: s.slots }
  return node

/-- What a tag stands for. -/
def tagText (tag : TagText) : Compose String := do
  if tag.handle.isEmpty then return tag.suffix
  else match (← get).handles.find? (·.1 == tag.handle) with
    | some (_, meaning) => return meaning ++ tag.suffix
    | none => failure

/-- The anchor and the tag in front of a node, in either order. -/
def properties : Compose (Option String × Option String) := do
  match ← peek with
  | some (.anchor name) =>
    skip
    match ← peek with
    | some (.tag tag) =>
      skip
      return (some name, some (← tagText tag))
    | _ => return (some name, none)
  | some (.tag tag) =>
    skip
    match ← peek with
    | some (.anchor name) =>
      skip
      return (some name, some (← tagText tag))
    | _ => return (none, some (← tagText tag))
  | _ => return (none, none)

/-- Where a node stands. -/
structure Place where
  /-- Whether blocks may stand there. -/
  block : Bool
  /-- Whether a sequence may stand there without indentation. -/
  indentless : Bool := false

/-- Whether a token ends the content before it, so that the content is empty. -/
def ends (stops : Token → Bool) : Compose Bool := return (← peek).any stops

mutual

/-- A node. -/
def node : Nat → Place → Compose Node
  | 0, _ => failure
  | fuel + 1, place => do
    match ← peek with
    | some (.alias name) =>
      skip
      count 1
      match (← get).anchors.find? (·.1 == name) with
      | some (_, slot) => return .alias slot
      | none => failure
    | _ =>
      let (anchor, tag) ← properties
      let slot ← slotOf anchor
      match ← peek with
      | some .blockEntry =>
        if place.indentless then do
          count 2
          keep slot (.sequence tag (← indentlessItems fuel))
        else if anchor.isSome || tag.isSome then do
          count 1
          keep slot (.scalar tag "" true)
        else failure
      | some (.scalar text isPlain) =>
        skip
        count 1
        keep slot (.scalar (tag.filter (· != "!")) text isPlain)
      | some .flowSequenceStart =>
        skip
        count 2
        keep slot (.sequence tag (← flowItems fuel true))
      | some .flowMappingStart =>
        skip
        count 2
        keep slot (.mapping tag (← flowEntries fuel true))
      | some .blockSequenceStart =>
        if place.block then do
          skip
          count 2
          keep slot (.sequence tag (← blockItems fuel))
        else if anchor.isSome || tag.isSome then do
          count 1
          keep slot (.scalar tag "" true)
        else failure
      | some .blockMappingStart =>
        if place.block then do
          skip
          count 2
          keep slot (.mapping tag (← blockEntries fuel))
        else if anchor.isSome || tag.isSome then do
          count 1
          keep slot (.scalar tag "" true)
        else failure
      | _ =>
        if anchor.isSome || tag.isSome then do
          count 1
          keep slot (.scalar tag "" true)
        else failure

/-- The items of an indented sequence. -/
def blockItems : Nat → Compose (List Node)
  | 0 => failure
  | fuel + 1 => do
    match ← peek with
    | some .blockEntry =>
      skip
      let item ←
        if ← ends (· matches .blockEntry | .blockEnd) then empty
        else node fuel { block := true }
      return item :: (← blockItems fuel)
    | some .blockEnd =>
      skip
      return []
    | _ => failure

/-- The items of a sequence that is not indented below its key. -/
def indentlessItems : Nat → Compose (List Node)
  | 0 => failure
  | fuel + 1 => do
    match ← peek with
    | some .blockEntry =>
      skip
      let item ←
        if ← ends (· matches .blockEntry | .key | .value | .blockEnd) then empty
        else node fuel { block := true }
      return item :: (← indentlessItems fuel)
    | _ => return []

/-- The entries of an indented mapping. -/
def blockEntries : Nat → Compose (List (Node × Node))
  | 0 => failure
  | fuel + 1 => do
    match ← peek with
    | some .key =>
      skip
      let key ←
        if ← ends (· matches .key | .value | .blockEnd) then empty
        else node fuel { block := true, indentless := true }
      let value ← blockValue fuel
      return (key, value) :: (← blockEntries fuel)
    | some .blockEnd =>
      skip
      return []
    | _ => failure

/-- The value of an entry of an indented mapping. -/
def blockValue : Nat → Compose Node
  | 0 => failure
  | fuel + 1 => do
    match ← peek with
    | some .value =>
      skip
      if ← ends (· matches .key | .value | .blockEnd) then empty
      else node fuel { block := true, indentless := true }
    | _ => empty

/-- The items of a sequence in brackets. An item can be a single entry of a mapping. -/
def flowItems : Nat → Bool → Compose (List Node)
  | 0, _ => failure
  | fuel + 1, first => do
    if ← ends (· matches .flowSequenceEnd) then
      skip
      return []
    else do
      if !first then
        if ← ends (· matches .flowEntry) then skip else failure
      match ← peek with
      | some .flowSequenceEnd =>
        skip
        return []
      | some .key =>
        skip
        count 2
        let key ←
          if ← ends (· matches .value | .flowEntry | .flowSequenceEnd) then do
            skip
            empty
          else node fuel { block := false }
        let value ← singleValue fuel
        return .mapping none [(key, value)] :: (← flowItems fuel false)
      | _ =>
        let item ← node fuel { block := false }
        return item :: (← flowItems fuel false)

/-- The value of an entry that is an item of a sequence in brackets. -/
def singleValue : Nat → Compose Node
  | 0 => failure
  | fuel + 1 => do
    match ← peek with
    | some .value =>
      skip
      if ← ends (· matches .flowEntry | .flowSequenceEnd) then empty
      else node fuel { block := false }
    | _ => empty

/-- The entries of a mapping in brackets. -/
def flowEntries : Nat → Bool → Compose (List (Node × Node))
  | 0, _ => failure
  | fuel + 1, first => do
    if ← ends (· matches .flowMappingEnd) then
      skip
      return []
    else do
      if !first then
        if ← ends (· matches .flowEntry) then skip else failure
      match ← peek with
      | some .flowMappingEnd =>
        skip
        return []
      | some .key =>
        skip
        let key ←
          if ← ends (· matches .value | .flowEntry | .flowMappingEnd) then empty
          else node fuel { block := false }
        let value ← flowValue fuel
        return (key, value) :: (← flowEntries fuel false)
      | _ =>
        let key ← node fuel { block := false }
        let value ← empty
        return (key, value) :: (← flowEntries fuel false)

/-- The value of an entry of a mapping in brackets. -/
def flowValue : Nat → Compose Node
  | 0 => failure
  | fuel + 1 => do
    match ← peek with
    | some .value =>
      skip
      if ← ends (· matches .flowEntry | .flowMappingEnd) then empty
      else node fuel { block := false }
    | _ => empty

end

/-- What handles stand for when no directive says otherwise. -/
def standardHandles : List (String × String) := [("!", "!"), ("!!", "tag:yaml.org,2002:")]

/-- Reads the directives in front of a document: at most one version, which is 1.1 or 1.2, and no handle twice. -/
def directives : Nat → Bool → List (String × String) → Compose (List (String × String))
  | 0, _, _ => failure
  | fuel + 1, versioned, own => do
    match ← peek with
    | some (.directive (.version major minor)) =>
      if versioned || major != 1 || (minor != 1 && minor != 2) then failure
      skip
      directives fuel true own
    | some (.directive (.tag handle meaning)) =>
      if own.any (·.1 == handle) then failure
      skip
      directives fuel versioned ((handle, meaning) :: own)
    | _ => return own

/-- The content of a document. -/
def document (fuel : Nat) : Compose Node := do
  match ← peek with
  | none => empty
  | some .documentStart | some (.directive _) =>
    let own ← directives fuel false []
    if !(← ends (· matches .documentStart)) then failure
    skip
    modify fun s => { s with handles := own ++ standardHandles }
    match ← peek with
    | none => empty
    | some .documentStart | some .documentEnd | some (.directive _) => empty
    | _ => node fuel { block := true }
  | _ => node fuel { block := true }

/-- Nothing but ends of documents follows. -/
def finish : Compose Unit := do
  if (← get).tokens.all (· matches .documentEnd) then return () else failure

end Compose

/-- A document: its content and what its aliases need. -/
structure Document where
  root : Node
  slots : List (Nat × Node)
  parts : Nat

/-- The only document of a list of tokens. -/
def Document.ofTokens? (tokens : List Token) : Option Document := do
  let whole : Compose Node := do
    let root ← Compose.document (4 * tokens.length + 4)
    Compose.finish
    return root
  let (root, s) ← whole.run { tokens := tokens, handles := Compose.standardHandles }
  some ⟨root, s.slots, s.parts⟩

/-! ### Values of nodes -/

/-- The name a tag gives to a value of its own: what follows its exclamation mark. Two more marks do not count, and the
name of a lone mark is empty. -/
def ownTag? (tag : Option String) : Option String :=
  match tag.map String.toList with
  | some ('!' :: '!' :: '!' :: name) => some (String.ofList name)
  | some ('!' :: '!' :: name) => some (String.ofList name)
  | some ('!' :: name) => some (String.ofList name)
  | _ => none

/-- The value of a scalar, as its tag or else its spelling says. -/
def ofScalar (tag : Option String) (text : String) (isPlain : Bool) : Option Yaml :=
  match tag with
  | some "tag:yaml.org,2002:bool" =>
    match ofPlain text with
    | some (.bool b) => some (.bool b)
    | _ => none
  | some "tag:yaml.org,2002:int" =>
    match ofPlain text with
    | some (.int n) => some (.int n)
    | _ => none
  | some "tag:yaml.org,2002:float" => (plainFloat? text).map .float
  | some "tag:yaml.org,2002:null" => if text ∈ ["~", "null", "Null", "NULL"] then some .null else none
  | some _ => some (.string text)
  | none => if isPlain then ofPlain text else some (.string text)

/-- How deep collections may stand in one another. -/
def greatestDepth : Nat := 128

/-- Counts the aliases that are followed, up to a limit. -/
abbrev Follow := StateT Nat Option

/-- Follows one more alias. -/
def followAlias : Follow Unit := do
  match ← get with
  | 0 => failure
  | n + 1 => set n

mutual

/-- The value of a node, with at most `depth` collections in one another. -/
def ofNode (slots : List (Nat × Node)) : Nat → Nat → Node → Follow Yaml
  | 0, _, _ => failure
  | fuel + 1, depth, .alias slot => do
    followAlias
    match slots.find? (·.1 == slot) with
    | some (_, target) => ofNode slots fuel depth target
    | none => failure
  | _ + 1, _, .scalar tag text isPlain =>
    match ownTag? tag with
    | some name => do
      let value ← (ofScalar none text isPlain : Option Yaml)
      return .tagged name value
    | none => (ofScalar tag text isPlain : Option Yaml)
  | fuel + 1, depth, .sequence tag items => do
    match depth with
    | 0 => failure
    | depth + 1 =>
      let value := Yaml.sequence (← ofNodes slots fuel depth items)
      return ((ownTag? tag).map (Yaml.tagged · value)).getD value
  | fuel + 1, depth, .mapping tag entries => do
    match depth with
    | 0 => failure
    | depth + 1 =>
      let value := Yaml.mapping (← ofEntries slots fuel depth [] entries)
      return ((ownTag? tag).map (Yaml.tagged · value)).getD value

/-- The values of the items of a sequence. -/
def ofNodes (slots : List (Nat × Node)) : Nat → Nat → List Node → Follow (List Yaml)
  | 0, _, _ => failure
  | _ + 1, _, [] => return []
  | fuel + 1, depth, item :: rest => do
    let value ← ofNode slots fuel depth item
    return value :: (← ofNodes slots fuel depth rest)

/-- The values of the entries of a mapping behind those in `done`, of which none has the same key. -/
def ofEntries (slots : List (Nat × Node)) :
    Nat → Nat → List (Yaml × Yaml) → List (Node × Node) → Follow (List (Yaml × Yaml))
  | 0, _, _, _ => failure
  | _ + 1, _, done, [] => return done
  | fuel + 1, depth, done, (key, value) :: rest => do
    let key ← ofNode slots fuel depth key
    if hasKey key done then failure
    else
      let value ← ofNode slots fuel depth value
      ofEntries slots fuel depth (done ++ [(key, value)]) rest

end

/-- The value of a document. It follows at most a hundred aliases for each of its parts. -/
def ofDocument (d : Document) : Option Yaml :=
  let fuel := (greatestDepth + 2) * (d.parts + 2)
  ((ofNode d.slots fuel greatestDepth d.root).run (100 * d.parts)).map (·.1)

/-- Reads a text that is one document. -/
def read? (text : String) : Option Yaml := do
  let tokens ← Token.ofText? text
  let document ← Document.ofTokens? tokens
  ofDocument document

end TrainingJobs.Yaml
