/-!
# Patterns

A pattern says which characters follow one another in a text (`Pattern`). From a place it has a list of places at which it can end,
in the order in which they are tried: a run takes as many characters as it can and gives them back one by one (`Pattern.ends`). What
stands between a place and such an end is said for each kind of pattern (`mem_ends_one_iff`, `mem_ends_many_iff` and the like). A
pattern is looked for at every place of a text; between the start and the end of it, it must take the whole text (`isIn_whole_iff`).
-/

namespace TrainingJobs.Text

/-- A place in a text: the characters before it, the nearest one first, and those behind it. -/
structure Place where
  before : List Char
  behind : List Char
deriving DecidableEq, Repr

namespace Place

/-- The place at which a text starts. -/
def start (cs : List Char) : Place := ⟨[], cs⟩

/-- The place at which a text ends. -/
def stop (cs : List Char) : Place := ⟨cs.reverse, []⟩

/-- The text around a place. -/
def text (a : Place) : List Char := a.before.reverse ++ a.behind

variable {a : Place} {cs : List Char}

@[simp]
theorem text_start : (start cs).text = cs := rfl

theorem eq_start (h : a.before = []) : a = start a.text := by
  cases a
  cases h
  rfl

theorem eq_stop (h : a.behind = []) : a = stop a.text := by
  cases a
  cases h
  simp [stop, text]

end Place

/-- A pattern. -/
inductive Pattern
  /-- Nothing, at the start of the text. -/
  | start
  /-- Nothing, at the end of the text. -/
  | stop
  /-- A character of a class. -/
  | one (is : Char → Bool)
  /-- A run of characters of a class, which may be empty. -/
  | many (is : Char → Bool)
  /-- A pattern and then another one. -/
  | seq (p q : Pattern)
  /-- A pattern or nothing. -/
  | optional (p : Pattern)

/-- The places at which a run of characters of a class can end, the farthest one first. -/
def runEnds (is : Char → Bool) (before : List Char) : List Char → List Place
  | [] => [⟨before, []⟩]
  | c :: behind => (if is c then runEnds is (c :: before) behind else []) ++ [⟨before, c :: behind⟩]

namespace Pattern

/-- The places at which a pattern can end that starts at a place, in the order in which they are tried. -/
def ends : Pattern → Place → List Place
  | start, a => if a.before.isEmpty then [a] else []
  | stop, a => if a.behind.isEmpty then [a] else []
  | one is, a =>
    match a.behind with
    | [] => []
    | c :: behind => if is c then [⟨c :: a.before, behind⟩] else []
  | many is, a => runEnds is a.before a.behind
  | seq p q, a => (p.ends a).flatMap q.ends
  | optional p, a => p.ends a ++ [a]

/-- Whether a pattern is found in a text, at whatever place. -/
def isIn (p : Pattern) (cs : List Char) : Bool :=
  !((seq (many fun _ => true) p).ends (.start cs)).isEmpty

/-- A pattern between the start and the end of the text. -/
def whole (p : Pattern) : Pattern := seq start (seq p stop)

/-! ## Where patterns end -/

variable {p q : Pattern} {is : Char → Bool} {a b : Place} {before behind cs : List Char}

theorem mem_runEnds_iff : b ∈ runEnds is before behind ↔
    ∃ run, (∀ c ∈ run, is c = true) ∧ behind = run ++ b.behind ∧ b.before = run.reverse ++ before := by
  induction behind generalizing before with
  | nil =>
    rw [runEnds, List.mem_singleton]
    constructor
    · rintro rfl
      exact ⟨[], nofun, rfl, rfl⟩
    · rintro ⟨run, -, hbehind, hbefore⟩
      obtain ⟨rfl, hnone⟩ := List.append_eq_nil_iff.1 hbehind.symm
      cases b
      cases hnone
      cases hbefore
      rfl
  | cons c behind ih =>
    rw [runEnds, List.mem_append, List.mem_singleton]
    constructor
    · rintro (hb | rfl)
      · split at hb
        · rename_i hc
          obtain ⟨run, hrun, rfl, hbefore⟩ := ih.1 hb
          refine ⟨c :: run, ?_, rfl, by simp [hbefore]⟩
          rintro d (_ | ⟨_, hd⟩)
          · exact hc
          · exact hrun d hd
        · cases hb
      · exact ⟨[], nofun, rfl, rfl⟩
    · rintro ⟨run, hrun, hbehind, hbefore⟩
      cases run with
      | nil =>
        cases b
        cases hbehind
        cases hbefore
        exact .inr rfl
      | cons d run =>
        obtain ⟨rfl, rfl⟩ := List.cons.inj hbehind
        rw [if_pos (hrun c List.mem_cons_self)]
        exact .inl (ih.2 ⟨run, fun d hd => hrun d (List.mem_cons_of_mem _ hd), rfl, by simp [hbefore]⟩)

theorem mem_ends_start_iff : b ∈ start.ends a ↔ b = a ∧ a.before = [] := by
  simp [ends, and_comm]

theorem mem_ends_stop_iff : b ∈ stop.ends a ↔ b = a ∧ a.behind = [] := by
  simp [ends, and_comm]

theorem mem_ends_one_iff : b ∈ (one is).ends a ↔ ∃ c, is c = true ∧ a.behind = c :: b.behind ∧ b.before = c :: a.before := by
  rw [ends]
  split
  · rename_i hnone
    simp [hnone]
  · rename_i c behind hsome
    rw [hsome]
    constructor
    · intro hb
      split at hb
      · rename_i hc
        rw [List.mem_singleton.1 hb]
        exact ⟨c, hc, rfl, rfl⟩
      · cases hb
    · rintro ⟨d, hd, hbehind, hbefore⟩
      cases b
      cases hbehind
      cases hbefore
      rw [if_pos hd]
      exact List.mem_singleton_self _

theorem mem_ends_many_iff : b ∈ (many is).ends a ↔
    ∃ run, (∀ c ∈ run, is c = true) ∧ a.behind = run ++ b.behind ∧ b.before = run.reverse ++ a.before :=
  mem_runEnds_iff

theorem mem_ends_seq_iff : b ∈ (seq p q).ends a ↔ ∃ between ∈ p.ends a, b ∈ q.ends between :=
  List.mem_flatMap

theorem mem_ends_optional_iff : b ∈ (optional p).ends a ↔ b ∈ p.ends a ∨ b = a := by
  rw [ends, List.mem_append, List.mem_singleton]

/-- The text around a place at which a pattern ends is the text around the place at which it starts. -/
theorem text_of_mem_ends (h : b ∈ p.ends a) : b.text = a.text := by
  induction p generalizing a b with
  | start => rw [(mem_ends_start_iff.1 h).1]
  | stop => rw [(mem_ends_stop_iff.1 h).1]
  | one is =>
    obtain ⟨c, -, hbehind, hbefore⟩ := mem_ends_one_iff.1 h
    simp [Place.text, hbehind, hbefore]
  | many is =>
    obtain ⟨run, -, hbehind, hbefore⟩ := mem_ends_many_iff.1 h
    simp [Place.text, hbehind, hbefore]
  | seq p q ihp ihq =>
    obtain ⟨between, hp, hq⟩ := mem_ends_seq_iff.1 h
    rw [ihq hq, ihp hp]
  | optional p ih =>
    rcases mem_ends_optional_iff.1 h with hp | rfl
    · exact ih hp
    · rfl

/-! ## Searches -/

/-- A pattern is found when it has an end at a place of the text. -/
theorem isIn_iff : p.isIn cs = true ↔ ∃ a b, a.text = cs ∧ b ∈ p.ends a := by
  rw [isIn, Bool.not_eq_true', List.isEmpty_eq_false_iff_exists_mem]
  constructor
  · rintro ⟨b, hb⟩
    obtain ⟨a, ha, hb⟩ := mem_ends_seq_iff.1 hb
    exact ⟨a, b, text_of_mem_ends ha, hb⟩
  · rintro ⟨a, b, rfl, hb⟩
    have ha : a ∈ (many fun _ => true).ends (.start a.text) :=
      mem_ends_many_iff.2 ⟨a.before.reverse, fun _ _ => rfl, rfl, by simp [Place.start]⟩
    exact ⟨b, mem_ends_seq_iff.2 ⟨a, ha, hb⟩⟩

/-- Between the start and the end of the text a pattern is found when it can take the whole text. -/
theorem isIn_whole_iff : p.whole.isIn cs = true ↔ Place.stop cs ∈ p.ends (.start cs) := by
  rw [isIn_iff]
  constructor
  · rintro ⟨a, b, htext, hb⟩
    obtain ⟨first, hfirst, hb⟩ := mem_ends_seq_iff.1 hb
    obtain ⟨last, hp, hlast⟩ := mem_ends_seq_iff.1 hb
    obtain ⟨rfl, hbefore⟩ := mem_ends_start_iff.1 hfirst
    obtain ⟨-, hbehind⟩ := mem_ends_stop_iff.1 hlast
    -- What the pattern takes lies between the two ends of one text.
    have hsame := (text_of_mem_ends hp).trans htext
    rw [Place.eq_start hbefore, Place.eq_stop hbehind, htext, hsame] at hp
    exact hp
  · intro hp
    have hfirst : Place.start cs ∈ start.ends (.start cs) := mem_ends_start_iff.2 ⟨rfl, rfl⟩
    have hlast : Place.stop cs ∈ stop.ends (.stop cs) := mem_ends_stop_iff.2 ⟨rfl, rfl⟩
    exact ⟨_, _, Place.text_start, mem_ends_seq_iff.2 ⟨_, hfirst, mem_ends_seq_iff.2 ⟨_, hp, hlast⟩⟩⟩

end Pattern

end TrainingJobs.Text
