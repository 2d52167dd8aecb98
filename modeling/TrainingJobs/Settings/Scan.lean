import TrainingJobs.Number.Reading

/-!
# Scanning records

The pieces that a record of settings is made of: blanks and comments, names, texts between quotes and whole numbers. A
`Scan` reads a piece off the front of a text and gives what follows it, or refuses.
-/

namespace TrainingJobs

/-- Reads something off the front of a text. -/
abbrev Scan := StateT (List Char) Option

namespace Scan

/-! ### Blanks and comments -/

/-- What is between two pieces. -/
inductive Gap
  | blanks
  | lineComment
  /-- A comment that holds so many others which are not closed yet. -/
  | blockComment (depth : Nat)

/-- What follows blanks and comments; a comment in blocks must be closed. -/
def afterGap : Gap → List Char → Option (List Char)
  | .blanks, '/' :: '/' :: rest => afterGap .lineComment rest
  | .blanks, '/' :: '*' :: rest => afterGap (.blockComment 0) rest
  | .blanks, '/' :: _ => none
  | .blanks, c :: rest =>
    if c == ' ' || c == '\t' || c == '\n' || c == '\r' then afterGap .blanks rest else some (c :: rest)
  | .blanks, [] => some []
  | .lineComment, '\n' :: rest => afterGap .blanks rest
  | .lineComment, _ :: rest => afterGap .lineComment rest
  | .lineComment, [] => some []
  | .blockComment depth, '/' :: '*' :: rest => afterGap (.blockComment (depth + 1)) rest
  | .blockComment 0, '*' :: '/' :: rest => afterGap .blanks rest
  | .blockComment (depth + 1), '*' :: '/' :: rest => afterGap (.blockComment depth) rest
  | .blockComment depth, _ :: rest => afterGap (.blockComment depth) rest
  | .blockComment _, [] => none

/-- Skips blanks and comments. -/
def gap : Scan Unit := fun cs => (afterGap .blanks cs).map ((), ·)

/-! ### Marks -/

/-- The next character, which is left where it is. -/
def peek : Scan (Option Char) := fun cs => some (cs.head?, cs)

/-- Takes a word if it is next, and says whether it was. -/
def take? (word : String) : Scan Bool := fun cs =>
  if word.toList.isPrefixOf cs then some (true, cs.drop word.length) else some (false, cs)

/-- Takes a word that must be next. -/
def expect (word : String) : Scan Unit := do
  if ← take? word then return () else failure

/-- Takes words with gaps behind them. -/
def expectAll (words : List String) : Scan Unit :=
  words.forM fun word => do
    expect word
    gap

/-- Takes a comma if there is one, and says whether there was. -/
def comma : Scan Bool := do
  gap
  if ← take? "," then
    gap
    return true
  else return false

/-! ### Names -/

/-- The characters that a name starts with. -/
def startsName (c : Char) : Bool := c.isAlpha || c == '_'

/-- The characters of a name. -/
def inName (c : Char) : Bool := startsName c || c.isDigit

/-- The characters of a name that is marked as one. -/
def inMarkedName (c : Char) : Bool := inName c || c == '.' || c == '+' || c == '-'

/-- Takes a name. -/
def name : Scan String
  | 'r' :: '#' :: c :: rest =>
    if inMarkedName c then
      some (String.ofList ((c :: rest).takeWhile inMarkedName), (c :: rest).dropWhile inMarkedName)
    else none
  | c :: rest =>
    if startsName c then some (String.ofList ((c :: rest).takeWhile inName), (c :: rest).dropWhile inName) else none
  | [] => none

/-! ### Texts -/

/-- The number that hexadecimal digits spell, if each is one. -/
def hexNumber? (digits : List Char) : Option Nat :=
  digits.foldlM (fun n c => (hexValue? c).map (16 * n + ·)) 0

/-- A character by its number, if it has one. -/
def charOfNumber? (n : Nat) : Option Char :=
  if n.isValidChar then some (Char.ofNat n) else none

/-- Takes the part of an escape behind the backslash. -/
def escape : Scan Char
  | 'n' :: rest => some ('\n', rest)
  | 'r' :: rest => some ('\r', rest)
  | 't' :: rest => some ('\t', rest)
  | '0' :: rest => some ('\x00', rest)
  | 'x' :: a :: b :: rest => (hexNumber? [a, b]).map fun n => (Char.ofNat n, rest)
  | 'u' :: '\x7b' :: rest => do
    let digits := (rest.take 6).takeWhile (· != '\x7d')
    let n ← hexNumber? digits
    let c ← charOfNumber? n
    match digits, rest.drop digits.length with
    | _ :: _, '\x7d' :: rest => some (c, rest)
    | _, _ => none
  | c :: rest => if c == '\\' || c == '\x22' || c == '\x27' then some (c, rest) else none
  | [] => none

/-- Takes what is left of a text between quotes, with at most so many pieces. -/
def quotedRest : Nat → Scan (List Char)
  | 0, _ => none
  | left + 1, cs =>
    match cs with
    | '\x22' :: rest => some ([], rest)
    | '\\' :: rest => do
      let (c, rest) ← escape rest
      let (more, rest) ← quotedRest left rest
      some (c :: more, rest)
    | c :: rest => do
      let (more, rest) ← quotedRest left rest
      some (c :: more, rest)
    | [] => none

/-- Takes a text up to an ending. -/
def upTo (ending : List Char) : Scan (List Char)
  | [] => none
  | c :: rest =>
    if ending.isPrefixOf (c :: rest) then some ([], (c :: rest).drop ending.length)
    else (upTo ending rest).map fun (more, after) => (c :: more, after)

/-- Takes a text between quotes, with escapes, or one marked by an `r` and any number of `#`, without. -/
def text : Scan String
  | '\x22' :: rest => (quotedRest (rest.length + 1) rest).map fun (cs, after) => (String.ofList cs, after)
  | 'r' :: rest =>
    let marks := rest.takeWhile (· == '#')
    match rest.drop marks.length with
    | '\x22' :: body => (upTo ('\x22' :: marks) body).map fun (cs, after) => (String.ofList cs, after)
    | _ => none
  | _ => none

/-! ### Numbers -/

/-- The base of a number by the mark in front of it, and what follows the mark. -/
def numberBase : List Char → Nat × List Char
  | '0' :: 'x' :: rest => (16, rest)
  | '0' :: 'b' :: rest => (2, rest)
  | '0' :: 'o' :: rest => (8, rest)
  | cs => (10, cs)

/-- The number that digits of a base spell, if each is one. -/
def numberOfDigits? (base : Nat) (digits : List Char) : Option Nat :=
  digits.foldlM (fun n c => (hexValue? c).bind fun d => if d < base then some (base * n + d) else none) 0

/-- The characters of a number. -/
def inNumber (c : Char) : Bool := (hexValue? c).isSome || c == '_'

/-- Takes a whole number up to a greatest one; behind its first digit it may hold underscores. -/
def number (greatest : Nat) : Scan Nat := fun cs => do
  let (base, cs) := numberBase cs
  let written := cs.takeWhile inNumber
  if written.isEmpty || written.head? == some '_' then none
  else
    let n ← numberOfDigits? base (written.filter (· != '_'))
    if n ≤ greatest then some (n, cs.dropWhile inNumber) else none

end Scan

end TrainingJobs
