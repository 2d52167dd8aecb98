import TrainingJobs.Json.Value
import TrainingJobs.Number.Reading

/-!
# Reading JSON

`Json.read?` takes a text that is one JSON value with white space around it. Whole numbers within 64 bits stay whole, all
other numbers are the nearest float; a number beyond the greatest float is refused, and so is a nesting of more than 127
arrays and objects.
-/

namespace TrainingJobs.Json

/-- The white space of JSON. -/
def isSpace (c : Char) : Bool := c == ' ' || c == '\n' || c == '\r' || c == '\t'

/-- What follows white space. -/
def skipSpace (cs : List Char) : List Char := cs.dropWhile isSpace

/-- Four hexadecimal digits, and what follows them. -/
def takeUnit? : List Char → Option (Nat × List Char)
  | a :: b :: c :: d :: rest => do
    let a ← hexValue? a
    let b ← hexValue? b
    let c ← hexValue? c
    let d ← hexValue? d
    some (4096 * a + 256 * b + 16 * c + d, rest)
  | _ => none

/-- The character of an escape by code units: one unit, or a high and a low surrogate. -/
def takeEscapedUnit? (cs : List Char) : Option (Char × List Char) := do
  let (unit, rest) ← takeUnit? cs
  if unit < 0xd800 ∨ 0xdfff < unit then some (Char.ofNat unit, rest)
  else if 0xdc00 ≤ unit then none
  else match rest with
    | '\\' :: 'u' :: more => do
      let (low, rest) ← takeUnit? more
      if 0xdc00 ≤ low ∧ low ≤ 0xdfff then
        some (Char.ofNat (0x10000 + 0x400 * (unit - 0xd800) + (low - 0xdc00)), rest)
      else none
    | _ => none

/-- The character of an escape, what follows it, from behind the backslash. -/
def takeEscape? : List Char → Option (Char × List Char)
  | 'u' :: rest => takeEscapedUnit? rest
  | 'n' :: rest => some ('\n', rest)
  | 't' :: rest => some ('\t', rest)
  | 'r' :: rest => some ('\r', rest)
  | 'b' :: rest => some ('\x08', rest)
  | 'f' :: rest => some ('\x0c', rest)
  | '/' :: rest => some ('/', rest)
  | '\\' :: rest => some ('\\', rest)
  | '\x22' :: rest => some ('\x22', rest)
  | _ => none

/-- The rest of a string from behind its opening quote; `text` holds what was read, last character first. -/
def takeString? : Nat → List Char → List Char → Option (String × List Char)
  | 0, _, _ => none
  | _, _, [] => none
  | fuel + 1, text, c :: rest =>
    if c = '\x22' then some (String.ofList text.reverse, rest)
    else if c = '\\' then do
      let (c, rest) ← takeEscape? rest
      takeString? fuel (c :: text) rest
    else if c < ' ' then none
    else takeString? fuel (c :: text) rest

/-- Digits as JSON wants them: at least one, and no zero in front of others. -/
def isWholeNumber : List Char → Bool
  | [] => false
  | ['0'] => true
  | c :: _ => c != '0'

/-- A whole number, kept whole when it has 64 bits; a negative zero is a float. -/
def ofDigits (negative : Bool) (digits : List Char) : Json :=
  let n := naturalOfDigits digits
  if negative then
    if n = 0 ∨ Nat.pow 2 63 < n then .float (-(floatOfScaled n 0)) else .int (-n)
  else if n < Nat.pow 2 64 then .int n
  else .float (floatOfScaled n 0)

/-- A number, and what follows it. -/
def takeNumber? (cs : List Char) : Option (Json × List Char) := do
  let (negative, body) := match cs with
    | '-' :: rest => (true, rest)
    | _ => (false, cs)
  let (whole, rest) := takeDigits body
  if !isWholeNumber whole then none
  else
    let (fraction, afterFraction) := match rest with
      | '.' :: more => takeDigits more
      | _ => ([], rest)
    let hasPoint := rest.head? == some '.'
    if hasPoint && fraction.isEmpty then none
    else
      let (exponent, rest) ← readExponent? afterFraction
      if !hasPoint && rest.length == afterFraction.length then some (ofDigits negative whole, rest)
      else
        let x := floatOfScaled (naturalOfDigits (whole ++ fraction)) (exponent - fraction.length)
        if isFiniteFloat x then some (.float (if negative then -x else x), rest) else none

mutual

/-- A value without white space in front, and what follows it, at most `depth` arrays and objects deep. -/
def takeValue? : Nat → Nat → List Char → Option (Json × List Char)
  | 0, _, _ => none
  | fuel + 1, depth, cs =>
    match cs with
    | 'n' :: 'u' :: 'l' :: 'l' :: rest => some (.null, rest)
    | 't' :: 'r' :: 'u' :: 'e' :: rest => some (.bool true, rest)
    | 'f' :: 'a' :: 'l' :: 's' :: 'e' :: rest => some (.bool false, rest)
    | '\x22' :: rest => do
      let (text, rest) ← takeString? cs.length [] rest
      some (.string text, rest)
    | '[' :: rest =>
      match depth with
      | 0 => none
      | depth + 1 =>
        match skipSpace rest with
        | ']' :: rest => some (.array [], rest)
        | rest => takeItems? fuel depth [] rest
    | '\x7b' :: rest =>
      match depth with
      | 0 => none
      | depth + 1 =>
        match skipSpace rest with
        | '\x7d' :: rest => some (.object [], rest)
        | rest => takeMembers? fuel depth [] rest
    | _ => takeNumber? cs

/-- The items of an array up to its end; `items` holds those read, last one first. -/
def takeItems? : Nat → Nat → List Json → List Char → Option (Json × List Char)
  | 0, _, _, _ => none
  | fuel + 1, depth, items, cs => do
    let (item, rest) ← takeValue? fuel depth cs
    match skipSpace rest with
    | ',' :: rest => takeItems? fuel depth (item :: items) (skipSpace rest)
    | ']' :: rest => some (.array (item :: items).reverse, rest)
    | _ => none

/-- The members of an object up to its end; `members` holds those read, last one first. -/
def takeMembers? : Nat → Nat → List (String × Json) → List Char → Option (Json × List Char)
  | 0, _, _, _ => none
  | fuel + 1, depth, members, cs =>
    match cs with
    | '\x22' :: rest => do
      let (name, rest) ← takeString? cs.length [] rest
      match skipSpace rest with
      | ':' :: rest => do
        let (value, rest) ← takeValue? fuel depth (skipSpace rest)
        match skipSpace rest with
        | ',' :: rest => takeMembers? fuel depth ((name, value) :: members) (skipSpace rest)
        | '\x7d' :: rest => some (.object ((name, value) :: members).reverse, rest)
        | _ => none
      | _ => none
    | _ => none

end

/-- How many arrays and objects may stand in one another. -/
def greatestDepth : Nat := 127

/-- Reads a text that is one JSON value. -/
def read? (text : String) : Option Json := do
  let cs := skipSpace text.toList
  let (value, rest) ← takeValue? (cs.length + 1) greatestDepth cs
  if (skipSpace rest).isEmpty then some value else none

end TrainingJobs.Json
