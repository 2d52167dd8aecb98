import TrainingJobs.Yaml.Tag

/-!
# The tokens of a YAML text

`Token.ofText?` cuts a text into tokens. Outside of brackets the indentation of lines opens and closes collections; a
key without a question mark is found only at the colon behind it, so each level of brackets remembers the place where a
key may have started (`KeyStart`), and the tokens of a key are put in front of it later.
-/

namespace TrainingJobs.Yaml

/-- A token. -/
inductive Token
  | directive (directive : Directive)
  | documentStart
  | documentEnd
  | blockSequenceStart
  | blockMappingStart
  | blockEnd
  | flowSequenceStart
  | flowSequenceEnd
  | flowMappingStart
  | flowMappingEnd
  | blockEntry
  | flowEntry
  | key
  | value
  | alias (name : String)
  | anchor (name : String)
  | tag (tag : TagText)
  | scalar (text : String) (isPlain : Bool)

/-- A place where a key may have started. -/
structure KeyStart where
  /-- Whether a key has to stand here, because the line starts a level of indentation. -/
  required : Bool
  /-- How many tokens stand before the key. -/
  position : Nat
  index : Nat
  line : Nat
  column : Nat

/-- A text that is cut as far as the cursor. -/
structure Lexing where
  cursor : Cursor
  tokens : Array Token := #[]
  /-- The column of the innermost block, and of those around it. -/
  indent : Int := -1
  outerIndents : List Int := []
  /-- The place where a key may have started, for each level of brackets, innermost first. -/
  keys : List (Option KeyStart) := [none]
  keyAllowed : Bool := true

namespace Lexing

/-- Whether the cursor is inside brackets. -/
def inBrackets (s : Lexing) : Bool := s.keys.length > 1

/-- A token more. -/
def push (s : Lexing) (t : Token) : Lexing := { s with tokens := s.tokens.push t }

/-- The key that may have started gets no colon any more. -/
def forgetKey? (s : Lexing) : Option Lexing :=
  match s.keys with
  | some key :: outer => if key.required then none else some { s with keys := none :: outer }
  | _ => some s

/-- The cursor may be where a key starts. -/
def markKey? (s : Lexing) : Option Lexing :=
  if s.keyAllowed then do
    let required := !s.inBrackets && s.indent == (s.cursor.column : Int)
    let key : KeyStart := ⟨required, s.tokens.size, s.cursor.index, s.cursor.line, s.cursor.column⟩
    let s ← s.forgetKey?
    some { s with keys := some key :: s.keys.drop 1 }
  else some s

/-- Keys end on the line they start on and are no longer than 1024 characters. -/
def dropLongKeys? (s : Lexing) : Option Lexing := do
  let keys ← s.keys.mapM fun
    | none => some none
    | some key =>
      if key.line < s.cursor.line || key.index + 1024 < s.cursor.index then
        if key.required then none else some none
      else some (some key)
  some { s with keys := keys }

/-- Opens a block at a column right of the innermost one, by a token at a position. -/
def openBlock (s : Lexing) (column : Nat) (position : Nat) (t : Token) : Lexing :=
  if !s.inBrackets && s.indent < (column : Int) then
    { s with
      tokens := s.tokens.insertIdx! position t
      indent := column
      outerIndents := s.indent :: s.outerIndents }
  else s

/-- Closes the blocks right of a column. -/
def closeBlocks (column : Int) (s : Lexing) : Lexing :=
  if s.inBrackets then s
  else
    let rec close (tokens : Array Token) (indent : Int) : List Int → Array Token × Int × List Int
      | [] => (tokens, indent, [])
      | outer :: more =>
        if indent > column then close (tokens.push .blockEnd) outer more else (tokens, indent, outer :: more)
    let (tokens, indent, outerIndents) := close s.tokens s.indent s.outerIndents
    { s with tokens := tokens, indent := indent, outerIndents := outerIndents }

/-- Goes on behind `n` characters. -/
def advance (s : Lexing) (n : Nat) : Lexing := { s with cursor := s.cursor.advance n }

/-- Whether a key may start at the next token. -/
def allowKey (s : Lexing) (allowed : Bool) : Lexing := { s with keyAllowed := allowed }

/-- Goes to the next token, over blanks, comments and line breaks. Tabs separate tokens only where no key may start. -/
def skipToToken : Nat → Lexing → Lexing
  | 0, s => s
  | fuel + 1, s =>
    let tabs := s.inBrackets || !s.keyAllowed
    let c := (s.cursor.skipWhile fun c => c == ' ' || (tabs && c == '\t')).skipComment
    match c.takeBreak? with
    | some (_, after) => skipToToken fuel { s with cursor := after, keyAllowed := s.keyAllowed || !s.inBrackets }
    | none => { s with cursor := c }

/-- A marker between documents, or a directive: all blocks end before it. -/
def closeDocument? (s : Lexing) : Option Lexing :=
  ((s.closeBlocks (-1)).forgetKey?).map (·.allowKey false)

/-- An opening bracket. -/
def openBracket? (s : Lexing) (t : Token) : Option Lexing := do
  let s ← s.markKey?
  some (({ s with keys := none :: s.keys }.allowKey true).advance 1 |>.push t)

/-- A closing bracket. -/
def closeBracket? (s : Lexing) (t : Token) : Option Lexing := do
  let s ← s.forgetKey?
  let keys := if s.inBrackets then s.keys.drop 1 else s.keys
  some (({ s with keys := keys }.allowKey false).advance 1 |>.push t)

/-- A comma between items in brackets. -/
def comma? (s : Lexing) : Option Lexing := do
  let s ← s.forgetKey?
  some ((s.allowKey true).advance 1 |>.push .flowEntry)

/-- A hyphen in front of an item. -/
def hyphen? (s : Lexing) : Option Lexing := do
  let s ←
    if s.inBrackets then some s
    else if !s.keyAllowed then none
    else some (s.openBlock s.cursor.column s.tokens.size .blockSequenceStart)
  let s ← s.forgetKey?
  some ((s.allowKey true).advance 1 |>.push .blockEntry)

/-- A question mark in front of a key. -/
def questionMark? (s : Lexing) : Option Lexing := do
  let s ←
    if s.inBrackets then some s
    else if !s.keyAllowed then none
    else some (s.openBlock s.cursor.column s.tokens.size .blockMappingStart)
  let s ← s.forgetKey?
  some ((s.allowKey !s.inBrackets).advance 1 |>.push .key)

/-- A colon in front of a value, with or without a key on its line. -/
def colon? (s : Lexing) : Option Lexing :=
  match s.keys with
  | some key :: outer =>
    let s := { s with tokens := s.tokens.insertIdx! key.position .key, keys := none :: outer }
    let s := s.openBlock key.column key.position .blockMappingStart
    some ((s.allowKey false).advance 1 |>.push .value)
  | _ => do
    let s ←
      if s.inBrackets then some s
      else if !s.keyAllowed then none
      else some (s.openBlock s.cursor.column s.tokens.size .blockMappingStart)
    some ((s.allowKey !s.inBrackets).advance 1 |>.push .value)

/-- A token that can start a key: an alias, an anchor, a tag or a scalar on one line. -/
def keyToken? (s : Lexing) (read : Cursor → Option (Token × Cursor)) : Option Lexing := do
  let s ← s.markKey?
  let (t, after) ← read s.cursor
  some ({ s with cursor := after }.allowKey false |>.push t)

/-- A block of lines. -/
def block? (s : Lexing) (folded : Bool) : Option Lexing := do
  let s ← s.forgetKey?
  let (text, after) ← blockScalar? folded s.indent (s.cursor.advance 1)
  some ({ s with cursor := after }.allowKey true |>.push (.scalar (String.ofList text) false))

/-- A plain scalar. -/
def plain? (s : Lexing) : Option Lexing := do
  let s ← s.markKey?
  let scalar ← plainScalar? s.inBrackets (s.indent + 1) s.cursor
  some ({ s with cursor := scalar.after }.allowKey scalar.brokenLine |>.push (.scalar (String.ofList scalar.text) true))

/-- The characters that no plain scalar starts with, whatever follows. -/
def startsNoPlain (c : Char) : Bool :=
  c ∈ [',', '[', ']', '\x7b', '\x7d', '#', '&', '*', '!', '|', '>', '\x27', '\x22', '%', '@', '\x60']

/-- The next token, read from its first character on. -/
def next? (s : Lexing) (c : Char) (rest : List Char) : Option Lexing :=
  let named (make : String → Token) (cursor : Cursor) : Option (Token × Cursor) :=
    (anchorName? (cursor.advance 1)).map fun (name, after) => (make name, after)
  let quoted (q : Quote) (cursor : Cursor) : Option (Token × Cursor) :=
    (quotedScalar? q cursor).map fun (text, after) => (.scalar (String.ofList text) false, after)
  let loose := s.inBrackets || atSeparator rest
  if s.cursor.column == 0 && c == '%' then do
    let s ← s.closeDocument?
    let (d, after) ← directive? (s.cursor.advance 1)
    some ({ s with cursor := after }.push (.directive d))
  else if s.cursor.column == 0 && atMarker (c :: rest) then do
    let s ← s.closeDocument?
    some ((s.advance 3).push (if c == '-' then .documentStart else .documentEnd))
  else match c with
    | '[' => s.openBracket? .flowSequenceStart
    | '\x7b' => s.openBracket? .flowMappingStart
    | ']' => s.closeBracket? .flowSequenceEnd
    | '\x7d' => s.closeBracket? .flowMappingEnd
    | ',' => s.comma?
    | '*' => s.keyToken? (named .alias)
    | '&' => s.keyToken? (named .anchor)
    | '!' => s.keyToken? fun cursor => (tag? s.inBrackets cursor).map fun (tag, after) => (.tag tag, after)
    | '\x27' => s.keyToken? (quoted .single)
    | '\x22' => s.keyToken? (quoted .double)
    | '|' => if s.inBrackets then none else s.block? false
    | '>' => if s.inBrackets then none else s.block? true
    | '-' => if atSeparator rest then s.hyphen? else s.plain?
    | '?' => if loose then s.questionMark? else s.plain?
    | ':' => if loose then s.colon? else s.plain?
    | _ => if startsNoPlain c || isSeparator c then none else s.plain?

/-- Reads tokens up to the end of the text. -/
def run? : Nat → Lexing → Option Lexing
  | 0, _ => none
  | fuel + 1, s => do
    let s := s.skipToToken (s.cursor.rest.length + 1)
    let s ← s.dropLongKeys?
    let s := s.closeBlocks s.cursor.column
    match s.cursor.rest with
    | [] => (s.closeBlocks (-1)).forgetKey?
    | c :: rest => do
      let s ← s.next? c rest
      s.run? fuel

end Lexing

/-- The tokens of a text, if it can be cut into tokens. -/
def Token.ofText? (text : String) : Option (List Token) :=
  if text.toList.all isReadable then
    let start : Lexing := { cursor := Cursor.ofText text }
    (start.run? (2 * text.length + 2)).map (·.tokens.toList)
  else none

end TrainingJobs.Yaml
