/-!
# Text out of octets

Programs write octets, which are meant as UTF-8 and need not be. `Text.ofOctets` reads what can be read; a start of a
character that does not go on as it should, or an octet that starts none, becomes one replacement character.
-/

namespace TrainingJobs.Text

/-- What stands for octets that are no character. -/
def replacement : Char := Char.ofNat 0xFFFD

/-- A character that has been begun: the bits read, the octets that are owed, and the range of the next one. -/
structure Begun where
  bits : Nat
  owed : Nat
  low : Nat := 0x80
  high : Nat := 0xBF

/-- What the first octet of a character begins. Some first octets narrow the second one, so that no character is written in
more octets than it needs, none is a surrogate and none lies beyond the last one. -/
def begin? (octet : Nat) : Option Begun :=
  if octet < 0xC2 then none
  else if octet < 0xE0 then some { bits := octet - 0xC0, owed := 1 }
  else if octet = 0xE0 then some { bits := 0, owed := 2, low := 0xA0 }
  else if octet = 0xED then some { bits := octet - 0xE0, owed := 2, high := 0x9F }
  else if octet < 0xF0 then some { bits := octet - 0xE0, owed := 2 }
  else if octet = 0xF0 then some { bits := 0, owed := 3, low := 0x90 }
  else if octet < 0xF4 then some { bits := octet - 0xF0, owed := 3 }
  else if octet = 0xF4 then some { bits := octet - 0xF0, owed := 3, high := 0x8F }
  else none

/-- Whether an octet continues what was begun. -/
def Begun.takes (b : Begun) (octet : Nat) : Bool := b.low ≤ octet && octet ≤ b.high

/-- One octet between characters: what is written and what is begun. -/
def stepFresh (octet : Nat) : List Char × Option Begun :=
  if octet < 0x80 then ([Char.ofNat octet], none)
  else
    match begin? octet with
    | some b => ([], some b)
    | none => ([replacement], none)

/-- One octet: what is written and what is begun then. An octet that does not continue a character is looked at anew. -/
def step (begun : Option Begun) (octet : Nat) : List Char × Option Begun :=
  match begun with
  | none => stepFresh octet
  | some b =>
    if b.takes octet then
      let bits := b.bits * 64 + (octet - 0x80)
      if b.owed ≤ 1 then ([Char.ofNat bits], none)
      else ([], some { bits := bits, owed := b.owed - 1 })
    else
      let (written, next) := stepFresh octet
      (replacement :: written, next)

/-- The characters of octets, behind what is begun. -/
def charsOfOctets : Option Begun → List Nat → List Char
  | none, [] => []
  | some _, [] => [replacement]
  | begun, octet :: rest => (step begun octet).1 ++ charsOfOctets (step begun octet).2 rest

/-- The text of octets. -/
def ofOctets (octets : List Nat) : String := String.ofList (charsOfOctets none octets)

end TrainingJobs.Text
