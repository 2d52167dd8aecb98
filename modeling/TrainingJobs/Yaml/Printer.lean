import TrainingJobs.Number.Style
import TrainingJobs.Yaml.Scalar

/-!
# Writing YAML

`Yaml.render` writes a value as a block document: sequences below a key are not indented, texts go without quotes where
they would be read back as themselves, texts with line feeds become blocks. The state of the page (`Page`) says where the
next character goes and what stands before it on its line, since that decides whether a new line has to be started.
-/

namespace TrainingJobs.Yaml

/-- What is written, and what is known of the last line of it. -/
structure Page where
  text : String := ""
  column : Nat := 0
  /-- Whether the line ends with white space. -/
  afterSpace : Bool := true
  /-- Whether nothing but indentation and item marks stands on the line. -/
  indentOnly : Bool := true

namespace Page

/-- A character more on the line. -/
def put (p : Page) (c : Char) : Page := { p with text := p.text.push c, column := p.column + 1 }

/-- A line more. -/
def lineBreak (p : Page) (c : Char) : Page := { p with text := p.text.push c, column := 0 }

/-- Blanks up to a column. -/
def padTo (p : Page) (column : Nat) : Page :=
  { p with
    text := p.text ++ String.ofList (List.replicate (column - p.column) ' ')
    column := max p.column column }

/-- Goes to where a line of the given indentation starts: on the present line if nothing else stands there. -/
def startLine (p : Page) (indent : Int) : Page :=
  let indent := indent.toNat
  let p := if !p.indentOnly || p.column > indent || (p.column == indent && !p.afterSpace) then p.lineBreak '\n' else p
  { p.padTo indent with afterSpace := true, indentOnly := true }

/-- Writes characters and notes that the line does not end with white space. -/
def word (p : Page) (cs : List Char) : Page :=
  { cs.foldl put p with afterSpace := false, indentOnly := false }

/-- A blank, unless the line ends with white space. -/
def space (p : Page) : Page := if p.afterSpace then p else p.put ' '

/-- A mark such as a colon; `isItem` says that the line counts as indentation after it too. -/
def mark (p : Page) (cs : List Char) (spaced isItem : Bool) : Page :=
  let p := if spaced then p.space else p
  { cs.foldl put p with afterSpace := false, indentOnly := p.indentOnly && isItem }

end Page

/-! ### The style of a text -/

/-- Whether a character is written as itself. -/
def isPrintable (c : Char) : Bool :=
  let n := c.toNat
  n == 0xa || (0x20 ≤ n && n ≤ 0x7e) || (0xa0 ≤ n && n ≤ 0xd7ff) || (0xe000 ≤ n && n ≤ 0xfffd && n != 0xfeff) ||
    0x10000 ≤ n

/-- Whether a character breaks a line of a written text. -/
def breaksLine (c : Char) : Bool :=
  c == '\r' || c == '\n' || c == '\u0085' || c == '\u2028' || c == '\u2029'

/-- The end of a text or white space. -/
def endsWord : List Char → Bool
  | [] => true
  | c :: _ => c == ' ' || c == '\t' || breaksLine c

/-- The ways to write a text. -/
inductive TextStyle
  | plain
  | single
  | double
  | literal
deriving DecidableEq

/-- The characters that no plain text starts with. -/
def isIndicator (c : Char) : Bool :=
  c ∈ ['#', ',', '[', ']', '\x7b', '\x7d', '&', '*', '!', '|', '>', '\x27', '\x22', '%', '@', '\x60']

/-- Whether something behind the first character would be read as a colon of an entry or as a comment. -/
def hasInnerMark : Char → List Char → Bool
  | _, [] => false
  | before, c :: rest =>
    (c == ':' && endsWord rest) || (c == '#' && endsWord [before]) || hasInnerMark c rest

/-- Whether a text would not be read as a text if it stood there plain. -/
def hasMark : List Char → Bool
  | [] => false
  | c :: rest =>
    (c :: rest).take 3 == ['-', '-', '-'] || (c :: rest).take 3 == ['.', '.', '.'] || isIndicator c ||
      ((c == '?' || c == ':' || c == '-') && endsWord rest) || hasInnerMark c rest

/-- Whether a character of one kind is followed by one of another kind. -/
def hasPair (p q : Char → Bool) : List Char → Bool
  | a :: b :: rest => (p a && q b) || hasPair p q (b :: rest)
  | _ => false

/-- What a text can be written as. -/
structure TextShape where
  severalLines : Bool
  plain : Bool
  single : Bool
  literal : Bool

/-- The shape of a text. A plain text has one line and neither marks nor blanks at its ends; only double quotes hold
special characters, or a blank in front of a line break. -/
def TextShape.of (cs : List Char) : TextShape :=
  if cs.isEmpty then ⟨false, true, true, false⟩
  else
    let isSpace (c : Char) : Bool := c == ' '
    let lines := cs.any breaksLine
    let special := cs.any (!isPrintable ·) || hasPair isSpace breaksLine cs
    let padded := endsWord (cs.take 1) || cs.getLast?.any fun c => c == ' ' || breaksLine c
    let spaceAfterBreak := hasPair breaksLine isSpace cs
    { severalLines := lines
      plain := !lines && !special && !padded && !hasMark cs
      single := !special && !spaceAfterBreak
      literal := !special && cs.getLast? != some ' ' }

/-- The style of a text. Keys are written on one line. -/
def styleOf (text : String) (isKey : Bool) : TextStyle :=
  let shape := TextShape.of text.toList
  let wanted :=
    if text.toList.contains '\n' then .literal
    else if needsQuotes text then .single
    else .plain
  let wanted := if isKey && shape.severalLines then .double else wanted
  let wanted := if wanted = .plain ∧ !shape.plain then .single else wanted
  let wanted := if wanted = .single ∧ !shape.single then .double else wanted
  if wanted = .literal ∧ (isKey || !shape.literal) then .double else wanted

/-! ### Writing texts -/

/-- A hexadecimal number of at least `width` digits, in capitals. -/
def hexText (width n : Nat) : List Char :=
  let digits := (Nat.toDigits 16 n).map Char.toUpper
  List.replicate (width - digits.length) '0' ++ digits

/-- A character between double quotes. -/
def escaped (c : Char) : List Char :=
  if isPrintable c && !breaksLine c && c != '\x22' && c != '\\' then [c]
  else
    '\\' :: match c with
      | '\x00' => ['0']
      | '\x07' => ['a']
      | '\x08' => ['b']
      | '\t' => ['t']
      | '\n' => ['n']
      | '\x0b' => ['v']
      | '\x0c' => ['f']
      | '\r' => ['r']
      | '\x1b' => ['e']
      | '\x22' => ['\x22']
      | '\\' => ['\\']
      | '\u0085' => ['N']
      | '\u2028' => ['L']
      | '\u2029' => ['P']
      | _ =>
        let n := c.toNat
        if n ≤ 0xff then 'x' :: hexText 2 n else if n ≤ 0xffff then 'u' :: hexText 4 n else 'U' :: hexText 8 n

/-- A text in double quotes. -/
def putDouble (p : Page) (cs : List Char) : Page :=
  p.space.word ('\x22' :: (cs.flatMap escaped ++ ['\x22']))

/-- The characters between single quotes: behind line breaks a line is indented. -/
def putSingleChars (indent : Int) : Bool → List Char → Page → Page
  | broken, [], p => if broken then p.startLine indent else p
  | broken, c :: rest, p =>
    if breaksLine c then putSingleChars indent true rest { p.lineBreak c with indentOnly := true }
    else if c == ' ' then putSingleChars indent broken rest (p.put c)
    else
      let p := if broken then p.startLine indent else p
      let p := if c == '\x27' then p.put c else p
      putSingleChars indent false rest { p.put c with indentOnly := false }

/-- A text in single quotes. -/
def putSingle (p : Page) (indent : Int) (cs : List Char) : Page :=
  (putSingleChars indent false cs (p.space.word ['\x27'])).word ['\x27']

/-- The lines of a block. -/
def putLines (indent : Int) : Bool → List Char → Page → Page
  | _, [], p => p
  | broken, c :: rest, p =>
    if breaksLine c then putLines indent true rest { p.lineBreak c with indentOnly := true }
    else
      let p := if broken then p.startLine indent else p
      putLines indent false rest { p.put c with indentOnly := false }

/-- What stands behind the mark of a block: the indentation when the text starts with white space, and whether no line
break or more than one is at its end. -/
def blockHints (cs : List Char) : List Char :=
  let indentation := if cs.head?.any fun c => c == ' ' || breaksLine c then ['2'] else []
  let chomp := match cs.reverse with
    | [] => ['-']
    | [c] => if breaksLine c then ['+'] else ['-']
    | c :: d :: _ => if breaksLine c then (if breaksLine d then ['+'] else []) else ['-']
  indentation ++ chomp

/-- A text as a block of lines. -/
def putLiteral (p : Page) (indent : Int) (cs : List Char) : Page :=
  let p := (p.space.word ('|' :: blockHints cs)).lineBreak '\n'
  putLines indent true cs { p with indentOnly := true, afterSpace := true }

/-- A plain text. -/
def putPlain (p : Page) (cs : List Char) : Page :=
  if cs.isEmpty then { p with afterSpace := false, indentOnly := false } else p.space.word cs

/-- The text of a scalar in a style; `indent` is the column of what holds it. -/
def putText (p : Page) (indent : Int) (style : TextStyle) (cs : List Char) : Page :=
  let inner := if indent < 0 then 2 else indent + 2
  match style with
  | .plain => putPlain p cs
  | .single => putSingle p inner cs
  | .double => putDouble p cs
  | .literal => putLiteral p inner cs

/-! ### Tags -/

/-- Whether a character of a tag is written as itself. -/
def isPlainInTag (c : Char) : Bool :=
  c.isAlphanum || c ∈ ['-', '_', ';', '/', '?', ':', '@', '&', '=', '+', '$', ',', '.', '~', '*', '\x27', '(', ')', '[', ']']

/-- A character of a tag, by its bytes when it is not written as itself. -/
def tagChar (c : Char) : List Char :=
  if isPlainInTag c then [c]
  else (String.singleton c).toUTF8.toList.flatMap fun b => '%' :: hexText 2 b.toNat

/-- A tag in front of a value. The tag without a name is written in full. -/
def putTag (p : Page) : Option String → Page
  | none => p
  | some "" => p.space.word ('!' :: '<' :: tagChar '!' ++ ['>'])
  | some tag => p.space.word ('!' :: tag.toList.flatMap tagChar)

/-! ### Writing values -/

/-- Whether a value is written on one line in front of a colon. Longer keys stand behind a question mark. -/
def isSimpleKey : Yaml → Bool
  | .string text => !text.toList.any breaksLine && text.utf8ByteSize ≤ 128
  | .sequence items => items.isEmpty
  | .mapping entries => entries.isEmpty
  | .tagged tag (.string text) => !text.toList.any breaksLine && text.utf8ByteSize + tag.utf8ByteSize + 1 ≤ 128
  | .tagged _ (.sequence items) => items.isEmpty
  | .tagged _ (.mapping entries) => entries.isEmpty
  | _ => true

/-- Where a value stands: in a mapping or elsewhere, as a simple key or not. -/
structure Position where
  inMapping : Bool := false
  isKey : Bool := false

mutual

/-- Writes a value inside a block that starts at a column, which is negative around the whole document. -/
def put (indent : Int) (position : Position) (tag : Option String) : Yaml → Page → Page
  | .null, p => putPlain (putTag p tag) ['n', 'u', 'l', 'l']
  | .bool b, p => putPlain (putTag p tag) (if b then ['t', 'r', 'u', 'e'] else ['f', 'a', 'l', 's', 'e'])
  | .int n, p => putPlain (putTag p tag) (toString n).toList
  | .float x, p => putPlain (putTag p tag) (NumberStyle.yaml.write x).toList
  | .string text, p => putText (putTag p tag) indent (styleOf text position.isKey) text.toList
  | .tagged own value, p => put indent position (some own) value p
  | .sequence [], p => (putTag p tag).space.word ['[', ']']
  | .sequence (item :: rest), p =>
    let p := putTag p tag
    let inner := if indent < 0 then 0 else if position.inMapping && !p.indentOnly then indent else indent + 2
    putItems inner (item :: rest) p
  | .mapping [], p => (putTag p tag).space.word ['\x7b', '\x7d']
  | .mapping (entry :: rest), p =>
    putEntries (if indent < 0 then 0 else indent + 2) (entry :: rest) (putTag p tag)

/-- Writes the items of a sequence that starts at a column. -/
def putItems (indent : Int) : List Yaml → Page → Page
  | [], p => p
  | item :: rest, p =>
    putItems indent rest (put indent {} none item ((p.startLine indent).mark ['-'] true true))

/-- Writes the entries of a mapping that starts at a column. -/
def putEntries (indent : Int) : List (Yaml × Yaml) → Page → Page
  | [], p => p
  | (key, value) :: rest, p =>
    let p := p.startLine indent
    let p :=
      if isSimpleKey key then
        (put indent { inMapping := true, isKey := true } none key p).mark [':'] false false
      else
        let p := put indent { inMapping := true } none key (p.mark ['?'] true true)
        (p.startLine indent).mark [':'] true true
    putEntries indent rest (put indent { inMapping := true } none value p)

end

mutual

/-- Whether a value can be written. A mapping of a single entry cannot when its key has a tag or is such a mapping itself,
since a single entry is where a tag could stand. -/
def isWritable : Yaml → Bool
  | .mapping [(.tagged _ _, _)] => false
  | .mapping [(.mapping [_], _)] => false
  | .mapping entries => areWritable entries
  | .sequence items => areItemsWritable items
  | .tagged _ (.mapping entries) => areWritable entries
  | .tagged _ value => isWritable value
  | _ => true

/-- Whether all items of a sequence can be written. -/
def areItemsWritable : List Yaml → Bool
  | [] => true
  | item :: rest => isWritable item && areItemsWritable rest

/-- Whether all entries of a mapping can be written. -/
def areWritable : List (Yaml × Yaml) → Bool
  | [] => true
  | (key, value) :: rest => isWritable key && isWritable value && areWritable rest

end

/-- The text of a value. -/
def renderText (value : Yaml) : String := ((put (-1) {} none value {}).startLine 0).text

/-- The text of a value, if it can be written. -/
def render? (value : Yaml) : Option String :=
  if isWritable value then some (renderText value) else none

end TrainingJobs.Yaml
