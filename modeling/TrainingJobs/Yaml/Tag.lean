import TrainingJobs.Yaml.ScalarText

/-!
# Names, tags and directives

The small forms of a YAML text besides its scalars: the name of an anchor or alias, a tag (a handle and a suffix), and
the directives in front of a document.
-/

namespace TrainingJobs.Yaml

/-- A tag as it is written. Without a handle the suffix is the whole tag. -/
structure TagText where
  handle : String
  suffix : String
deriving DecidableEq

/-- A directive in front of a document. -/
inductive Directive
  | version (major minor : Nat)
  /-- What a handle of tags stands for. -/
  | tag (handle meaning : String)

/-- The name of an anchor or alias from behind its indicator, and the place behind it. -/
def anchorName? (c : Cursor) : Option (String × Cursor) :=
  let name := c.rest.takeWhile isNameChar
  let after := c.advance name.length
  let ends := match after.rest with
    | [] => true
    | d :: _ => isSeparator d || d ∈ ['?', ':', ',', ']', '\x7d', '%', '@', '\x60']
  if name.isEmpty || !ends then none else some (String.ofList name, after)

/-- Whether a character may stand in a tag as itself. Commas and brackets may only where no brackets around the tag could
be meant. -/
def isTagChar (anywhere : Bool) (c : Char) : Bool :=
  isNameChar c || c ∈ [';', '/', '?', ':', '@', '&', '=', '+', '$', '.', '!', '~', '*', '\x27', '(', ')'] ||
    (anywhere && c ∈ [',', '[', ']'])

/-- The number of bytes of a UTF-8 sequence by its first byte. -/
def sequenceLength? (b : UInt8) : Option Nat :=
  if b < 0x80 then some 1
  else if 0xc0 ≤ b ∧ b < 0xe0 then some 2
  else if 0xe0 ≤ b ∧ b < 0xf0 then some 3
  else if 0xf0 ≤ b ∧ b < 0xf8 then some 4
  else none

/-- Bytes written as a percent sign and two hexadecimal digits each. -/
def escapedBytes? : Nat → List Char → Option (List UInt8)
  | 0, _ => some []
  | n + 1, '%' :: a :: b :: rest => do
    let byte ← hexadecimal? [a, b]
    let more ← escapedBytes? n rest
    some (byte.toUInt8 :: more)
  | _, _ => none

/-- A character written as the bytes of its UTF-8 sequence, and their number. -/
def escapedChar? (cs : List Char) : Option (List Char × Nat) := do
  let first ← escapedBytes? 1 cs
  let length ← first.head?.bind sequenceLength?
  let bytes ← escapedBytes? length cs
  let text ← String.fromUTF8? ⟨bytes.toArray⟩
  some (text.toList, length)

/-- The characters of a tag at a place, with escapes resolved, and the place behind them. -/
def tagChars? (anywhere : Bool) : Nat → List Char → Cursor → Option (List Char × Cursor)
  | 0, _, _ => none
  | fuel + 1, text, c =>
    match c.rest with
    | '%' :: _ => do
      let (chars, length) ← escapedChar? c.rest
      tagChars? anywhere fuel (text ++ chars) (c.advance (3 * length))
    | d :: _ => if isTagChar anywhere d then tagChars? anywhere fuel (text ++ [d]) (c.advance 1) else some (text, c)
    | [] => some (text, c)

/-- The handle at a place: an exclamation mark, a name that may be empty, and perhaps a second mark. -/
def tagHandle? (c : Cursor) : Option (List Char × Cursor) :=
  match c.rest with
  | '!' :: _ =>
    let name := (c.rest.drop 1).takeWhile isNameChar
    let c := c.advance (1 + name.length)
    if c.rest.head? == some '!' then some ('!' :: name ++ ['!'], c.advance 1) else some ('!' :: name, c)
  | _ => none

/-- A tag and the place behind it, which must be a separator, or a comma inside brackets. -/
def tag? (inBrackets : Bool) (c : Cursor) : Option (TagText × Cursor) := do
  let (tag, c) ←
    if c.rest.drop 1 |>.head? |>.any (· == '<') then do
      let inside := c.advance 2
      let (text, c) ← tagChars? true (inside.rest.length + 1) [] inside
      if text.isEmpty || c.rest.head? != some '>' then none
      else some ((⟨"", String.ofList text⟩ : TagText), c.advance 1)
    else do
      let (handle, c) ← tagHandle? c
      if handle.length > 1 && handle.getLast? == some '!' then
        let (text, c) ← tagChars? false (c.rest.length + 1) [] c
        if text.isEmpty then none else some (⟨String.ofList handle, String.ofList text⟩, c)
      else
        let (text, c) ← tagChars? false (c.rest.length + 1) (handle.drop 1) c
        if text.isEmpty then some (⟨"", "!"⟩, c) else some (⟨"!", String.ofList text⟩, c)
  if atSeparator c.rest || (inBrackets && c.rest.head? == some ',') then some (tag, c) else none

/-- A number of a version, at most nine digits long. -/
def versionNumber? (c : Cursor) : Option (Nat × Cursor) :=
  let digits := c.rest.takeWhile Char.isDigit
  if digits.isEmpty || 9 < digits.length then none
  else some (digits.foldl (fun n d => 10 * n + (d.toNat - '0'.toNat)) 0, c.advance digits.length)

/-- A directive from behind its percent sign, and the place behind its line. -/
def directive? (c : Cursor) : Option (Directive × Cursor) := do
  let name := c.rest.takeWhile isNameChar
  let c := c.advance name.length
  if !atSeparator c.rest then none
  else
    let c := c.skipWhile isGap
    let (directive, c) ←
      if name = ['Y', 'A', 'M', 'L'] then do
        let (major, c) ← versionNumber? c
        if c.rest.head? != some '.' then none
        else
          let (minor, c) ← versionNumber? (c.advance 1)
          some (Directive.version major minor, c)
      else if name = ['T', 'A', 'G'] then do
        let (handle, c) ← tagHandle? c
        if handle.length > 1 && handle.getLast? != some '!' then none
        else if !c.rest.head?.any isGap then none
        else
          let c := c.skipWhile isGap
          let (text, c) ← tagChars? true (c.rest.length + 1) [] c
          if text.isEmpty || !atSeparator c.rest then none
          else some (Directive.tag (String.ofList handle) (String.ofList text), c)
      else none
    let after ← c.restOfLine?
    some (directive, after)

end TrainingJobs.Yaml
