import TrainingJobs.Number.Binary

/-!
# Reading numbers

`readFloat?` reads a decimal (or the name of an infinity) as the nearest float; `readNatural?` and `readInteger?` read
whole numbers between bounds. All of them take a text as a whole or refuse it.
-/

namespace TrainingJobs

/-- The digits at the front of a text, and what follows them. -/
def takeDigits (cs : List Char) : List Char × List Char :=
  (cs.takeWhile Char.isDigit, cs.dropWhile Char.isDigit)

/-- The value of a decimal digit. -/
def digitValue (c : Char) : Nat := c.toNat - '0'.toNat

/-- The value of a hexadecimal digit. -/
def hexValue? (c : Char) : Option Nat :=
  if '0' ≤ c ∧ c ≤ '9' then some (c.toNat - '0'.toNat)
  else if 'a' ≤ c ∧ c ≤ 'f' then some (c.toNat - 'a'.toNat + 10)
  else if 'A' ≤ c ∧ c ≤ 'F' then some (c.toNat - 'A'.toNat + 10)
  else none

/-- The natural number that decimal digits spell. -/
def naturalOfDigits (cs : List Char) : Nat :=
  cs.foldl (fun n c => 10 * n + digitValue c) 0

/-- A sign at the front of a text (whether it is a minus), and what follows it. -/
def takeSign : List Char → Bool × List Char
  | '-' :: rest => (true, rest)
  | '+' :: rest => (false, rest)
  | cs => (false, cs)

/-- The nearest float to `n * 10 ^ exponent`. Far outside the range of floats the answer is zero or infinite without
working it out. -/
def floatOfScaled (n : Nat) (exponent : Int) : Float :=
  if n = 0 then 0
  else
    let magnitude := (Nat.toDigits 10 n).length + exponent
    if magnitude > 400 then 1.0 / 0.0
    else if magnitude < -400 then 0
    else if exponent < 0 then Float.ofScientific n true exponent.natAbs
    else Float.ofScientific n false exponent.natAbs

/-- An exponent: `e` or `E`, a sign if there is one, and digits. A text that does not start with `e` has none. -/
def readExponent? : List Char → Option (Int × List Char)
  | [] => some (0, [])
  | c :: rest =>
    if c = 'e' ∨ c = 'E' then
      let (negative, body) := takeSign rest
      match takeDigits body with
      | ([], _) => none
      | (digits, after) =>
        let n : Int := naturalOfDigits digits
        some (if negative then -n else n, after)
    else some (0, c :: rest)

/-- An unsigned decimal: digits with at most one point among them, at least one digit, and perhaps an exponent. -/
def readDecimal? (cs : List Char) : Option Float :=
  let (whole, afterWhole) := takeDigits cs
  let (fraction, afterFraction) := match afterWhole with
    | '.' :: rest => takeDigits rest
    | rest => ([], rest)
  if whole.isEmpty && fraction.isEmpty then none
  else match readExponent? afterFraction with
    | some (exponent, []) => some (floatOfScaled (naturalOfDigits (whole ++ fraction)) (exponent - fraction.length))
    | _ => none

/-- The name of an infinity or of no number, in letters of either case. -/
def readFloatName? (cs : List Char) : Option Float :=
  let name := String.ofList (cs.map Char.toLower)
  if name = "inf" ∨ name = "infinity" then some (1.0 / 0.0)
  else if name = "nan" then some (0.0 / 0.0)
  else none

/-- Reads a float: a sign if there is one, then a decimal or a name. -/
def readFloat? (text : String) : Option Float :=
  let (negative, body) := takeSign text.toList
  let value := (readDecimal? body).orElse fun _ => readFloatName? body
  value.map fun x => if negative then -x else x

/-- Reads a natural number up to `greatest`: digits, after a plus if there is one. -/
def readNatural? (greatest : Nat) (text : String) : Option Nat :=
  let digits := match text.toList with
    | '+' :: rest => rest
    | cs => cs
  if digits.isEmpty || !digits.all Char.isDigit then none
  else
    let n := naturalOfDigits digits
    if n ≤ greatest then some n else none

/-- The digits of a number spell it. -/
theorem naturalOfDigits_toDigits (n : Nat) : naturalOfDigits (Nat.toDigits 10 n) = n := by
  have h : Nat.ofDigitChars 10 (Nat.toDigits 10 n) 0 = n := Nat.ofDigitChars_toDigits (by decide) (by decide)
  exact h

/-- A number up to the greatest is read back as it is written. -/
theorem readNatural?_toString {greatest n : Nat} (h : n ≤ greatest) : readNatural? greatest (toString n) = some n := by
  have hchars : (toString n).toList = Nat.toDigits 10 n := String.toList_ofList
  have hall : (Nat.toDigits 10 n).all Char.isDigit = true :=
    List.all_eq_true.2 fun c hc => Nat.isDigit_of_mem_toDigits (by decide) (by decide) hc
  have hempty : (Nat.toDigits 10 n).isEmpty = false := by
    rw [List.isEmpty_eq_false_iff]
    exact Nat.toDigits_ne_nil
  -- No digit is a plus, so all characters are taken for digits.
  have hdigits : (match Nat.toDigits 10 n with | '+' :: rest => rest | cs => cs) = Nat.toDigits 10 n := by
    split
    · rename_i rest heq
      rw [heq] at hall
      simp [Char.isDigit] at hall
    · rfl
  unfold readNatural?
  rw [hchars]
  simp only [hdigits, hall, hempty, Bool.not_true, Bool.or_self, Bool.false_eq_true, ↓reduceIte, naturalOfDigits_toDigits, h]

/-- A number is told by its text. -/
theorem toString_inj {i j : Nat} (h : toString i = toString j) : i = j := by
  have hi := readNatural?_toString (Nat.le_max_left i j)
  have hj := readNatural?_toString (Nat.le_max_right i j)
  rw [h, hj] at hi
  exact (Option.some.inj hi).symm

/-- No number beyond the greatest is read. -/
theorem le_of_readNatural? {greatest n : Nat} {text : String} (h : readNatural? greatest text = some n) : n ≤ greatest := by
  simp only [readNatural?, Option.ite_none_left_eq_some, Option.ite_none_right_eq_some, Option.some.injEq] at h
  obtain ⟨-, hle, rfl⟩ := h
  exact hle

/-- Reads an integer of 64 bits: digits, after a sign if there is one. -/
def readInteger? (text : String) : Option Int :=
  let (negative, digits) := takeSign text.toList
  if digits.isEmpty || !digits.all Char.isDigit then none
  else
    let n : Int := naturalOfDigits digits
    let value := if negative then -n else n
    if -9223372036854775808 ≤ value ∧ value ≤ 9223372036854775807 then some value else none

end TrainingJobs
