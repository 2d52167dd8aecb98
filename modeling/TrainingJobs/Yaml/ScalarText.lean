import TrainingJobs.Yaml.Cursor

/-!
# Scalars as they are written

A scalar is written plain, in single or double quotes, or as a block of lines behind `|` or `>`. Each reader here gives
the text the scalar stands for and the place behind it, or nothing when the scalar is not well formed.
-/

namespace TrainingJobs.Yaml

/-- The blanks between two words of a scalar: those of one line, or the line breaks. -/
structure Gap where
  blanks : List Char := []
  breaks : List Char := []

namespace Gap

/-- What a gap reads as: a single line feed becomes a blank, of more the first is left out, and separators stay. -/
def text (g : Gap) : List Char :=
  match g.breaks with
  | [] => g.blanks
  | ['\n'] => [' ']
  | '\n' :: more => more
  | breaks => breaks

end Gap

/-- Reads the blanks and line breaks at a place. A tab left of the column `margin` on a later line is refused. -/
def takeGap? (margin : Int) : Nat → Gap → Cursor → Option (Gap × Cursor)
  | 0, _, _ => none
  | fuel + 1, gap, c =>
    match c.rest with
    | [] => some (gap, c)
    | b :: _ =>
      if isGap b then
        if !gap.breaks.isEmpty && (c.column : Int) < margin && b == '\t' then none
        else
          let gap := if gap.breaks.isEmpty then { gap with blanks := gap.blanks ++ [b] } else gap
          takeGap? margin fuel gap (c.advance 1)
      else match c.takeBreak? with
        | some (b, after) => takeGap? margin fuel { gap with breaks := gap.breaks ++ [b] } after
        | none => some (gap, c)

/-! ### Plain scalars -/

/-- The characters that a colon may not stand in front of inside brackets. -/
def refusedAfterColon (c : Char) : Bool := c ∈ [',', '?', '[', ']', '\x7b', '\x7d']

/-- The characters that end a plain scalar inside brackets. -/
def endsPlainInBrackets (c : Char) : Bool := c ∈ [',', '[', ']', '\x7b', '\x7d']

/-- The word of a plain scalar at a place. -/
def plainWord? (inBrackets : Bool) : List Char → Option (List Char)
  | [] => some []
  | c :: rest =>
    if isSeparator c then some []
    else if inBrackets && c == ':' && rest.head?.any refusedAfterColon then none
    else if (c == ':' && atSeparator rest) || (inBrackets && endsPlainInBrackets c) then some []
    else (plainWord? inBrackets rest).map (c :: ·)

/-- A scalar, the place behind it, and whether line breaks were read behind it. -/
structure PlainScalar where
  text : List Char
  after : Cursor
  brokenLine : Bool

/-- Reads a plain scalar word by word. -/
def plainWords? (inBrackets : Bool) (margin : Int) : Nat → List Char → Gap → Cursor → Option PlainScalar
  | 0, _, _, _ => none
  | fuel + 1, text, gap, c =>
    let done : PlainScalar := ⟨text, c, !gap.breaks.isEmpty⟩
    if (c.column == 0 && atMarker c.rest) || c.rest.head? == some '#' then some done
    else do
      let word ← plainWord? inBrackets c.rest
      let text := if word.isEmpty then text else text ++ gap.text ++ word
      let gap := if word.isEmpty then gap else {}
      let c := c.advance word.length
      let done : PlainScalar := ⟨text, c, !gap.breaks.isEmpty⟩
      if !c.rest.head?.any isSeparator then some done
      else
        let (gap, c) ← takeGap? margin (c.rest.length + 1) gap c
        let done : PlainScalar := ⟨text, c, !gap.breaks.isEmpty⟩
        if !inBrackets && (c.column : Int) < margin then some done
        else plainWords? inBrackets margin fuel text gap c

/-- Reads a plain scalar. Outside of brackets it ends on a line that starts left of the column `margin`. -/
def plainScalar? (inBrackets : Bool) (margin : Int) (c : Cursor) : Option PlainScalar :=
  plainWords? inBrackets margin (c.rest.length + 1) [] {} c

/-! ### Quoted scalars -/

/-- The value of hexadecimal digits. -/
def hexadecimal? (cs : List Char) : Option Nat :=
  cs.foldlM (fun n c =>
    if '0' ≤ c ∧ c ≤ '9' then some (16 * n + (c.toNat - '0'.toNat))
    else if 'a' ≤ c ∧ c ≤ 'f' then some (16 * n + (c.toNat - 'a'.toNat + 10))
    else if 'A' ≤ c ∧ c ≤ 'F' then some (16 * n + (c.toNat - 'A'.toNat + 10))
    else none) 0

/-- The character that a number stands for, if there is one. -/
def charOf? (n : Nat) : Option Char :=
  if n < 0xd800 ∨ (0xdfff < n ∧ n ≤ 0x10ffff) then some (Char.ofNat n) else none

/-- The character of an escape in double quotes and the number of its characters behind the backslash. -/
def escape? : List Char → Option (Char × Nat)
  | [] => none
  | c :: rest =>
    let byNumber (digits : Nat) : Option (Char × Nat) :=
      if rest.length < digits then none
      else ((hexadecimal? (rest.take digits)).bind charOf?).map (·, digits + 1)
    match c with
    | '0' => some ('\x00', 1)
    | 'a' => some ('\x07', 1)
    | 'b' => some ('\x08', 1)
    | 't' => some ('\t', 1)
    | '\t' => some ('\t', 1)
    | 'n' => some ('\n', 1)
    | 'v' => some ('\x0b', 1)
    | 'f' => some ('\x0c', 1)
    | 'r' => some ('\r', 1)
    | 'e' => some ('\x1b', 1)
    | ' ' => some (' ', 1)
    | '\x22' => some ('\x22', 1)
    | '/' => some ('/', 1)
    | '\\' => some ('\\', 1)
    | 'N' => some ('\u0085', 1)
    | '_' => some ('\u00a0', 1)
    | 'L' => some ('\u2028', 1)
    | 'P' => some ('\u2029', 1)
    | 'x' => byNumber 2
    | 'u' => byNumber 4
    | 'U' => byNumber 8
    | _ => none

/-- The quotes around a scalar. -/
inductive Quote
  | single
  | double
deriving DecidableEq

/-- The character of a quote. -/
def Quote.char : Quote → Char
  | .single => '\x27'
  | .double => '\x22'

/-- Why a word of a quoted scalar ends. -/
inductive WordEnd
  /-- At a separator, at the closing quote or at the end of the text. -/
  | plain
  /-- At a line break behind a backslash, which is left out. -/
  | escapedBreak

/-- Reads a word of a quoted scalar; `text` is the scalar up to it. -/
def quotedWord? (q : Quote) : Nat → List Char → Cursor → Option (List Char × Cursor × WordEnd)
  | 0, _, _ => none
  | fuel + 1, text, c =>
    match c.rest with
    | [] => some (text, c, .plain)
    | d :: rest =>
      if isSeparator d then some (text, c, .plain)
      else if d == q.char then
        if q = .single ∧ rest.head? = some '\x27' then quotedWord? q fuel (text ++ ['\x27']) (c.advance 2)
        else some (text, c, .plain)
      else if q = .double ∧ d = '\\' then
        if rest.head?.any isBreak then some (text, (c.advance 1).skipBreak, .escapedBreak)
        else do
          let (e, length) ← escape? rest
          quotedWord? q fuel (text ++ [e]) (c.advance (length + 1))
      else quotedWord? q fuel (text ++ [d]) (c.advance 1)

/-- Reads a quoted scalar from behind its opening quote. -/
def quotedWords? (q : Quote) : Nat → List Char → Cursor → Option (List Char × Cursor)
  | 0, _, _ => none
  | fuel + 1, text, c =>
    if c.column == 0 && atMarker c.rest then none
    else do
      let (text, c, wordEnd) ← quotedWord? q (c.rest.length + 1) text c
      if c.rest.head? == some q.char && wordEnd matches .plain then some (text, c.advance 1)
      else if c.rest.isEmpty then none
      else match wordEnd with
        | .plain =>
          let (gap, c) ← takeGap? 0 (c.rest.length + 1) {} c
          quotedWords? q fuel (text ++ gap.text) c
        | .escapedBreak =>
          if c.rest.head? == some q.char then some (text, c.advance 1)
          else
            let (gap, after) ← takeGap? 0 (c.rest.length + 1) { breaks := ['\n'] } c
            quotedWords? q fuel (text ++ gap.breaks.drop 1) after

/-- Reads a quoted scalar from its opening quote on. -/
def quotedScalar? (q : Quote) (c : Cursor) : Option (List Char × Cursor) :=
  let inside := c.advance 1
  quotedWords? q (inside.rest.length + 1) [] inside

/-! ### Blocks of lines -/

/-- What happens to the line breaks at the end of a block. -/
inductive Chomp
  /-- They go. -/
  | strip
  /-- One stays. -/
  | clip
  /-- All stay. -/
  | keep
deriving DecidableEq

/-- What stands behind the indicator of a block: the chomping and the explicit indentation, in either order. -/
def blockHeader? (c : Cursor) : Option (Chomp × Option Nat × Cursor) :=
  let chomp? : List Char → Option Chomp
    | '+' :: _ => some .keep
    | '-' :: _ => some .strip
    | _ => none
  let digit? : List Char → Option Nat
    | d :: _ => if d.isDigit then some (d.toNat - '0'.toNat) else none
    | [] => none
  let parts : Option (Chomp × Option Nat × Cursor) :=
    match chomp? c.rest with
    | some chomp =>
      let c := c.advance 1
      match digit? c.rest with
      | some n => if n = 0 then none else some (chomp, some n, c.advance 1)
      | none => some (chomp, none, c)
    | none =>
      match digit? c.rest with
      | some n =>
        if n = 0 then none
        else
          let c := c.advance 1
          match chomp? c.rest with
          | some chomp => some (chomp, some n, c.advance 1)
          | none => some (.clip, some n, c)
      | none => some (.clip, none, c)
  do
    let (chomp, indentation, c) ← parts
    let after ← c.restOfLine?
    some (chomp, indentation, after)

/-- Reads the empty lines of a block: their breaks, the widest indentation among them and of the next line, and the place
where the next line starts. Without a known indentation all blanks are skipped. -/
def blockBreaks? (indent : Option Nat) : Nat → List Char → Nat → Cursor → Option (List Char × Nat × Cursor)
  | 0, _, _, _ => none
  | fuel + 1, breaks, widest, c =>
    let blanks := (c.rest.takeWhile (· == ' ')).length
    let skipped := match indent with
      | none => blanks
      | some n => min blanks (n - c.column)
    let c := c.advance skipped
    let widest := max widest c.column
    if (indent.all (c.column < ·)) && c.rest.head? == some '\t' then none
    else match c.takeBreak? with
      | some (b, after) => blockBreaks? indent fuel (breaks ++ [b]) widest after
      | none => some (breaks, widest, c)

/-- The text of a block so far: the lines read, the break behind the last one, and the breaks of empty lines since. -/
structure BlockText where
  text : List Char := []
  lineEnd : List Char := []
  emptyLines : List Char := []
  /-- Whether the last line started with a blank. -/
  startsBlank : Bool := false

/-- A block with one more line. Of a folded block the break between two lines that do not start with blanks is a blank, or
nothing when empty lines stand between. -/
def BlockText.addLine (b : BlockText) (folded : Bool) (line lineEnd : List Char) : BlockText :=
  let startsBlank := line.head?.any isGap
  let joint :=
    if folded && b.lineEnd.head? == some '\n' && !b.startsBlank && !startsBlank then
      if b.emptyLines.isEmpty then [' '] else []
    else b.lineEnd
  { text := b.text ++ joint ++ b.emptyLines ++ line, lineEnd := lineEnd, emptyLines := [], startsBlank := startsBlank }

/-- Reads the lines of a block. -/
def blockLines? (folded : Bool) (indent : Nat) : Nat → BlockText → Cursor → Option (BlockText × Cursor)
  | 0, _, _ => none
  | fuel + 1, block, c =>
    if c.column == indent && !c.rest.isEmpty then do
      let line := c.rest.takeWhile (!isBreak ·)
      let c := c.advance line.length
      let (lineEnd, c) := match c.takeBreak? with
        | some (b, after) => ([b], after)
        | none => ([], c)
      let block := block.addLine folded line lineEnd
      let (emptyLines, _, c) ← blockBreaks? (some indent) (c.rest.length + 1) [] 0 c
      blockLines? folded indent fuel { block with emptyLines := emptyLines } c
    else some (block, c)

/-- Reads a block from behind its indicator; `indent` is the column of what holds it. -/
def blockScalar? (folded : Bool) (indent : Int) (c : Cursor) : Option (List Char × Cursor) := do
  let (chomp, increment, c) ← blockHeader? c
  let known := increment.map fun n => (max indent 0).toNat + n
  let (emptyLines, widest, c) ← blockBreaks? known (c.rest.length + 1) [] 0 c
  let margin := known.getD (max widest (max (indent + 1) 1).toNat)
  let (block, c) ← blockLines? folded margin (c.rest.length + 1) { emptyLines := emptyLines } c
  let text := match chomp with
    | .strip => block.text
    | .clip => block.text ++ block.lineEnd
    | .keep => block.text ++ block.lineEnd ++ block.emptyLines
  some (text, c)

end TrainingJobs.Yaml
