/-!
# A place in a YAML text

A `Cursor` is the rest of a text with the line and the column where it starts. Line breaks are CR, LF, both, NEL and the
two Unicode separators; all but the separators read as a line feed.
-/

namespace TrainingJobs.Yaml

/-- A place in a text. -/
structure Cursor where
  rest : List Char
  index : Nat := 0
  line : Nat := 0
  column : Nat := 0

/-- Whether a character breaks a line. -/
def isBreak (c : Char) : Bool :=
  c == '\r' || c == '\n' || c == '\u0085' || c == '\u2028' || c == '\u2029'

/-- A blank or a tab. -/
def isGap (c : Char) : Bool := c == ' ' || c == '\t'

/-- Whether a character separates words: a blank, a tab or a line break. -/
def isSeparator (c : Char) : Bool := isGap c || isBreak c

/-- The characters of names: ASCII letters, digits, underscore and hyphen. -/
def isNameChar (c : Char) : Bool := c.isAlphanum || c == '_' || c == '-'

/-- Whether a place is the end of the text or at a separator. -/
def atSeparator : List Char → Bool
  | [] => true
  | c :: _ => isSeparator c

/-- Whether a place is the end of the text or of a line. -/
def atLineEnd : List Char → Bool
  | [] => true
  | c :: _ => isBreak c

/-- Whether a document marker (`---` or `...`) stands at a place. -/
def atMarker : List Char → Bool
  | '-' :: '-' :: '-' :: rest => atSeparator rest
  | '.' :: '.' :: '.' :: rest => atSeparator rest
  | _ => false

/-- The characters that a YAML text may hold. -/
def isReadable (c : Char) : Bool :=
  let n := c.toNat
  n == 9 || n == 0xa || n == 0xd || (0x20 ≤ n && n ≤ 0x7e) || n == 0x85 || (0xa0 ≤ n && n ≤ 0xd7ff) ||
    (0xe000 ≤ n && n ≤ 0xfffd) || 0x10000 ≤ n

namespace Cursor

/-- The start of a text. A byte order mark is skipped, though it takes a column. -/
def ofText (text : String) : Cursor :=
  match text.toList with
  | '\ufeff' :: rest => { rest := rest, index := 1, column := 1 }
  | cs => { rest := cs }

/-- The place `n` characters further in the same line. -/
def advance (c : Cursor) (n : Nat) : Cursor :=
  { c with rest := c.rest.drop n, index := c.index + n, column := c.column + n }

/-- The place behind characters of a kind, which does not have line breaks. -/
def skipWhile (c : Cursor) (p : Char → Bool) : Cursor := c.advance (c.rest.takeWhile p).length

/-- The line break at a place, as it reads, and the place behind it. -/
def takeBreak? (c : Cursor) : Option (Char × Cursor) :=
  match c.rest with
  | '\r' :: '\n' :: rest => some ('\n', ⟨rest, c.index + 2, c.line + 1, 0⟩)
  | b :: rest =>
    if isBreak b then
      some (if b == '\u2028' || b == '\u2029' then b else '\n', ⟨rest, c.index + 1, c.line + 1, 0⟩)
    else none
  | [] => none

/-- The place behind the line break at a place, if there is one. -/
def skipBreak (c : Cursor) : Cursor :=
  match c.takeBreak? with
  | some (_, after) => after
  | none => c

/-- The place behind a comment that starts here. -/
def skipComment (c : Cursor) : Cursor :=
  match c.rest with
  | '#' :: _ => c.skipWhile (!isBreak ·)
  | _ => c

/-- The end of the line after blanks and a comment, if nothing else is left of the line. -/
def restOfLine? (c : Cursor) : Option Cursor :=
  let after := (c.skipWhile isGap).skipComment
  if atLineEnd after.rest then some after.skipBreak else none

end Cursor

end TrainingJobs.Yaml
