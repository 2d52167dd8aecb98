import Mathlib.Data.Finset.Card
import Mathlib.Data.Fintype.EquivFin
import Mathlib.Order.Bounds.Basic
import TrainingJobs.Proofs.RecordMaps
import TrainingJobs.Proofs.Submitting

/-!
# Numbers of a family

A registration with automatic names that nobody disturbs is granted the name itself where that is free, and else the least number that
its family does not use, at the first attempt (`Registration.GrantsLeast`). In a namespace that nobody else uses, the numbers in use are
all that registrations and deletions of a family depend on: they do what a set of numbers does from which the least number missing is
taken (`FamilyCall.answer`). So members are numbered without gaps as they come, and gaps that deletions leave are filled from below
(`auto_naming_fills_gaps`).
-/

namespace TrainingJobs

/-! ## What is granted -/

namespace Registration

/-- The name that a registration with automatic names is granted at a server, by its exchanges. It is the one of its number, which is
0 where the name itself is free, and else the first that the family does not use; and one attempt at a numbered name is enough. -/
structure GrantsLeast (s : Server) (requested : JobName) (space : String) (xs : List Exchange) (id : JobIdentity) : Prop where
  named : id = (Record.candidate requested space id.familyIndex).identity requested
  bare : id.familyIndex = 0 ↔ s.held ⟨space, requested.text⟩ = none
  least : id.familyIndex ≠ 0 → s.FirstUnused space requested.text id.familyIndex
  atOnce : xs = if id.familyIndex = 0 then [(Record.candidate requested space 0).stored]
    else [Registry.taken (Record.candidate requested space 0),
      listed requested space (s.labelled space Keys.familyNameLabel requested.text),
      (Record.candidate requested space id.familyIndex).stored]

variable {s : Server} {requested : JobName} {space : String} {xs : List Exchange} {id : JobIdentity}

/-- The loop over numbered names is granted the first one that it tries, or none. -/
theorem registerNumbered_atOnce {index attempts left : Nat} (hs : ∀ x ∈ xs, s.Answers x)
    (hindex : s.FirstUnused space requested.text index)
    (h : (registerNumbered requested space attempts left).Yields xs (.ok id)) :
    id = (Record.candidate requested space index).identity requested ∧
      xs = [listed requested space (s.labelled space Keys.familyNameLabel requested.text),
        (Record.candidate requested space index).stored] := by
  have hresult := registerNumbered_result hs hindex h
  split at hresult
  · rename_i hfree
    refine ⟨Except.ok.inj hresult, ?_⟩
    have htried := registerNumbered_tried h
    -- Whatever is listed is what is held, so that the number that is tried is the first unused one.
    have hnext : ∀ maps, listed requested space maps ∈ xs → maps = s.labelled space Keys.familyNameLabel requested.text ∧
        nextCandidate requested space maps = Record.candidate requested space index := by
      intro maps hmem
      obtain rfl : maps = s.labelled space Keys.familyNameLabel requested.text := Except.ok.inj (hs _ hmem)
      exact ⟨rfl, congrArg _ ((s.firstUnused_smallestUnoccupiedIndex space requested.text).unique hindex)⟩
    cases htried with
    | granted maps =>
      obtain ⟨rfl, hcandidate⟩ := hnext maps List.mem_cons_self
      rw [hcandidate]
    | lost maps hrest =>
      obtain ⟨-, hcandidate⟩ := hnext maps List.mem_cons_self
      have htaken : s.held ⟨space, candidateName requested.text index⟩ ≠ none := by
        have hanswer : s.Answers (Registry.taken (Record.candidate requested space index)) :=
          hs _ (by rw [hcandidate]; exact List.mem_cons_of_mem _ List.mem_cons_self)
        exact hanswer.2
      exact absurd hfree.2 htaken
  · cases hresult

/-- Where nobody interferes a name that is granted is the least one. -/
theorem grantsLeast_of_answers {retries : Nat} (hs : ∀ x ∈ xs, s.Answers x)
    (h : (register retries requested space true).Yields xs (.ok id)) : GrantsLeast s requested space xs id := by
  obtain ⟨index, hindex⟩ : ∃ index, s.FirstUnused space requested.text index :=
    ⟨_, s.firstUnused_smallestUnoccupiedIndex space requested.text⟩
  obtain ⟨_, created, zs, hcreate, h, rfl⟩ := Program.andThen_yields_iff.1 h
  obtain ⟨rfl, rfl⟩ | ⟨rfl, rfl⟩ | ⟨e, he, rfl, rfl⟩ := Registry.create_yields hcreate
  · obtain ⟨rfl, hid⟩ := Program.done_yields_iff.1 h
    have hfree : s.held ⟨space, requested.text⟩ = none := hs (Record.candidate requested space 0).stored (by simp)
    obtain rfl := Except.ok.inj hid
    exact ⟨rfl, iff_of_true rfl hfree, fun hne => absurd rfl hne, rfl⟩
  · have htaken : s.held ⟨space, requested.text⟩ ≠ none :=
      (hs (Registry.taken (Record.candidate requested space 0)) (by simp)).2
    obtain ⟨rfl, rfl⟩ := registerNumbered_atOnce (fun x hx => hs x (by simp [hx])) hindex h
    have hne : index ≠ 0 := Nat.one_le_iff_ne_zero.1 hindex.positive
    exact ⟨rfl, iff_of_false hne htaken, fun _ => hindex, (if_neg hne).symm⟩
  · cases (Program.done_yields_iff.1 h).2

end Registration

/-! ## Effects in a quiet world -/

namespace World.Quiet

variable {w : World} (hw : w.Quiet)
include hw

/-- A registration that is granted a name leaves the record of the name, and else what was there. -/
theorem run_register {retries : Nat} {requested : JobName} {space : String} {autoName : Bool} {id : JobIdentity}
    (h : ((Registration.register retries requested space autoName).run w).1 = .ok id) :
    ((Registration.register retries requested space autoName).run w).2 =
      { w with server := w.server.put ⟨space, id.resolved⟩ (Record.candidate requested space id.familyIndex).toConfigMap } := by
  have hpath := (Registration.register retries requested space autoName).run_path w
  obtain ⟨⟨e, he⟩, -⟩ | ⟨before, index, heq, hvain, hid⟩ := Registration.register_yields (Program.run_yields _ w)
  · rw [h] at he
    cases he
  · rw [h] at hid
    obtain rfl := Except.ok.inj hid
    rw [heq] at hpath
    obtain ⟨w₁, hbefore, hlast⟩ := path_append_iff.1 hpath
    obtain ⟨rfl, -⟩ := hw.path_inVain hbefore hvain
    obtain ⟨w₂, hanswer, hend⟩ := path_cons_iff.1 hlast
    rw [path_nil_iff.1 hend]
    change w₁.answer (.createMap (Record.candidate requested space index).key
      (Record.candidate requested space index).toConfigMap) = (.ok (), w₂) at hanswer
    rw [hw.answer_createMap] at hanswer
    split at hanswer
    · cases hanswer
      rfl
    · cases hanswer

/-- A look-up says what is held under its key. -/
theorem run_get? (space name : String) :
    (Registry.get? space name).run w = (.ok ((w.held ⟨space, name⟩).map fun m => Record.ofConfigMap name space m.map), w) := by
  have hanswer := hw.answer_getMap ⟨space, name⟩
  cases hheld : w.held ⟨space, name⟩ with
  | none | some m =>
    rw [hheld] at hanswer
    exact Program.run_ask_andThen hanswer

/-- A deletion finds out when nothing is held under its key. -/
theorem delete_absent {space name : String} (hkey : w.held ⟨space, name⟩ = none) :
    (Lifecycle.delete space name).run w = (.error (.notFound name), w) := by
  rw [Lifecycle.delete, Program.bind_eq, Program.run_andThen, hw.run_get?, hkey]
  rfl

/-- A deletion takes away a record without a manifest, and no more. -/
theorem delete_bare {space name : String} {m : StoredMap} (hkey : w.held ⟨space, name⟩ = some m)
    (htext : m.map.text? Lifecycle.manifestText = none) :
    ∃ w' : World, (Lifecycle.delete space name).run w = (.ok (), w') ∧ w'.Quiet ∧
      ∀ k, w'.held k = if k = ⟨space, name⟩ then none else w.held k := by
  have hlook : (Registry.get? space name).run w = (.ok (some (Record.ofConfigMap name space m.map)), w) := by
    rw [hw.run_get?, hkey]
    rfl
  -- The warning about the missing manifest is all that comes in between.
  have hnoted : ∃ v : World, (Program.warn (name ++ " has no stored manifest, only its record is removed")).run w = ((), v) ∧
      v.Quiet ∧ v.held = w.held := ⟨_, rfl, ⟨hw.reachable, hw.faults, hw.races, hw.racing⟩, rfl⟩
  obtain ⟨v, hwarn, hv, hheld⟩ := hnoted
  have hthere : v.held ⟨space, name⟩ ≠ none := by
    rw [hheld, hkey]
    exact Option.some_ne_none m
  have hremove : (Registry.remove space name).run v = (.ok (), _) := Program.run_ask_andThen (hv.answer_deleteMap hthere)
  refine ⟨_, ?_, hv.erase ⟨space, name⟩, fun k => ?_⟩
  · rw [Lifecycle.delete, Program.bind_eq, Program.run_andThen, hlook]
    simp only [Record.get?_data_ofConfigMap, htext, Program.bind_eq, Program.pure_eq, Program.run_andThen, hwarn, Program.run_done,
      hremove]
  · rw [← hheld]
    exact Server.held_erase v.server _ k

end World.Quiet

/-! ## Numbers in use -/

/-- The least number that is not in use. -/
def leastUnused (taken : Finset Nat) : Nat := Nat.find (Infinite.exists_notMem_finset taken)

section LeastUnused

variable {taken : Finset Nat}

theorem leastUnused_notMem (taken : Finset Nat) : leastUnused taken ∉ taken := Nat.find_spec (Infinite.exists_notMem_finset taken)

theorem mem_of_lt_leastUnused {i : Nat} (h : i < leastUnused taken) : i ∈ taken :=
  Classical.not_not.1 (Nat.find_min (Infinite.exists_notMem_finset taken) h)

theorem leastUnused_eq_of {i : Nat} (hi : i ∉ taken) (hbelow : ∀ j < i, j ∈ taken) : leastUnused taken = i :=
  (Nat.find_eq_iff _).2 ⟨hi, fun j hj => Classical.not_not.2 (hbelow j hj)⟩

theorem leastUnused_range (n : Nat) : leastUnused (Finset.range n) = n :=
  leastUnused_eq_of Finset.notMem_range_self fun _ hj => Finset.mem_range.2 hj

/-- Below the least number that is not in use there are only numbers in use, so it is no greater than their count. -/
theorem leastUnused_le_card (taken : Finset Nat) : leastUnused taken ≤ taken.card := by
  have hsub : Finset.range (leastUnused taken) ⊆ taken := fun i hi => mem_of_lt_leastUnused (Finset.mem_range.1 hi)
  have hcard := Finset.card_le_card hsub
  rwa [Finset.card_range] at hcard

/-- Of numbers in use without a gap some are given up: the least of these is the next one. -/
theorem isLeast_leastUnused_sdiff {n : Nat} {gone : Finset Nat} (hgone : gone ⊆ Finset.range n) (hne : gone.Nonempty) :
    IsLeast {i | i ∈ gone} (leastUnused (Finset.range n \ gone)) := by
  have hlower : ∀ i ∈ gone, leastUnused (Finset.range n \ gone) ≤ i := by
    intro i hi
    refine Nat.le_of_not_lt fun hlt => ?_
    exact (Finset.mem_sdiff.1 (mem_of_lt_leastUnused hlt)).2 hi
  refine ⟨?_, hlower⟩
  obtain ⟨i, hi⟩ := hne
  have hlt : leastUnused (Finset.range n \ gone) < n := Nat.lt_of_le_of_lt (hlower i hi) (Finset.mem_range.1 (hgone hi))
  refine Classical.not_not.1 fun hnot => leastUnused_notMem (Finset.range n \ gone) ?_
  exact Finset.mem_sdiff.2 ⟨Finset.mem_range.2 hlt, hnot⟩

end LeastUnused

/-- What is done with the names of a family: another job asks for the name, or the job of a number is deleted. -/
inductive FamilyCall
  | register
  | delete (index : Nat)
deriving DecidableEq

/-- What comes of it. -/
inductive FamilyReply
  | registered (result : Except RegistrationError JobIdentity)
  | deleted (result : Except LifecycleError Unit)

namespace FamilyCall

/-- A member of a family is named. -/
def granted (requested : JobName) (index : Nat) : FamilyReply :=
  .registered (.ok ⟨requested, candidateName requested.text index, index⟩)

/-- What is run for a call. -/
def program (retries : Nat) (requested : JobName) (space : String) : FamilyCall → Program FamilyReply
  | register => do return .registered (← Registration.register retries requested space true)
  | delete index => do return .deleted (← Lifecycle.delete space (candidateName requested.text index))

/-- What is run for calls that are made one after the other. -/
def programs (retries : Nat) (requested : JobName) (space : String) : List FamilyCall → Program (List FamilyReply)
  | [] => return []
  | c :: rest => do
    let reply ← c.program retries requested space
    let replies ← programs retries requested space rest
    return reply :: replies

/-- What numbers in use say to a call, and those in use behind it: the least one that is not in use is taken, and one that is in use
is given up. -/
def answer (requested : JobName) (taken : Finset Nat) : FamilyCall → FamilyReply × Finset Nat
  | register => (granted requested (leastUnused taken), insert (leastUnused taken) taken)
  | delete index =>
    if index ∈ taken then (.deleted (.ok ()), taken.erase index)
    else (.deleted (.error (.notFound (candidateName requested.text index))), taken)

/-- What they say to calls that are made one after the other. -/
def answers (requested : JobName) : Finset Nat → List FamilyCall → List FamilyReply
  | _, [] => []
  | taken, c :: rest => (c.answer requested taken).1 :: answers requested (c.answer requested taken).2 rest

/-- The numbers in use behind calls. -/
def behind (requested : JobName) (taken : Finset Nat) (calls : List FamilyCall) : Finset Nat :=
  calls.foldl (fun taken c => (c.answer requested taken).2) taken

section Answers

variable {requested : JobName} {taken : Finset Nat}

theorem answers_append (calls later : List FamilyCall) :
    answers requested taken (calls ++ later) =
      answers requested taken calls ++ answers requested (behind requested taken calls) later := by
  induction calls generalizing taken with
  | nil => rfl
  | cons c rest ih =>
    rw [List.cons_append, answers, ih, answers, List.cons_append]
    rfl

theorem behind_append (calls later : List FamilyCall) :
    behind requested taken (calls ++ later) = behind requested (behind requested taken calls) later := List.foldl_append

theorem behind_cons (c : FamilyCall) (rest : List FamilyCall) :
    behind requested taken (c :: rest) = behind requested (c.answer requested taken).2 rest := rfl

/-- Registrations one after the other take the numbers from 0 on. -/
theorem answers_registrations (n : Nat) :
    answers requested ∅ (List.replicate n register) = (List.range n).map (granted requested) ∧
      behind requested ∅ (List.replicate n register) = Finset.range n := by
  induction n with
  | zero => exact ⟨rfl, rfl⟩
  | succ n ih =>
    obtain ⟨hanswers, hbehind⟩ := ih
    rw [List.replicate_succ']
    constructor
    · rw [answers_append, hanswers, hbehind, answers, answers, answer, leastUnused_range, List.range_succ, List.map_append]
      rfl
    · rw [behind_append, hbehind, behind_cons, answer, leastUnused_range, Finset.range_add_one]
      rfl

/-- Deletions of numbers in use give them up. -/
theorem answers_deletions {gone : List Nat} (hgone : gone.Nodup) (htaken : ∀ i ∈ gone, i ∈ taken) :
    answers requested taken (gone.map delete) = gone.map (fun _ => .deleted (.ok ())) ∧
      behind requested taken (gone.map delete) = taken \ gone.toFinset := by
  induction gone generalizing taken with
  | nil => exact ⟨rfl, by simp [behind]⟩
  | cons i rest ih =>
    obtain ⟨hi, hrest⟩ := List.nodup_cons.1 hgone
    have hanswer : (delete i).answer requested taken = (.deleted (.ok ()), taken.erase i) :=
      if_pos (htaken i List.mem_cons_self)
    have hstill : ∀ j ∈ rest, j ∈ taken.erase i := fun j hj =>
      Finset.mem_erase.2 ⟨fun heq => hi (heq ▸ hj), htaken j (List.mem_cons_of_mem i hj)⟩
    obtain ⟨hanswers, hbehind⟩ := ih hrest hstill
    constructor
    · rw [List.map_cons, answers, hanswer, hanswers, List.map_cons]
    · rw [List.map_cons, behind_cons, hanswer, hbehind, List.toFinset_cons, Finset.sdiff_insert, Finset.erase_sdiff_comm]

end Answers

end FamilyCall

/-! ## A namespace of one family -/

/-- In a quiet world a namespace holds the records of a family with some numbers, and nothing else. -/
structure World.Numbered (requested : JobName) (space : String) (taken : Finset Nat) (w : World) : Prop where
  quiet : w.Quiet
  members : ∀ i ∈ taken, ∃ version,
    w.held ⟨space, candidateName requested.text i⟩ = some ⟨(Record.candidate requested space i).toConfigMap, version⟩
  only : ∀ name m, w.held ⟨space, name⟩ = some m → ∃ i ∈ taken, name = candidateName requested.text i
  words : ∀ i ∈ taken, i ≤ maxWord

namespace World.Numbered

variable {requested : JobName} {space : String} {taken : Finset Nat} {w w' : World} (h : w.Numbered requested space taken)
include h

/-- The name of a number is free just when the number is not in use. -/
theorem free_iff (i : Nat) : w.held ⟨space, candidateName requested.text i⟩ = none ↔ i ∉ taken := by
  constructor
  · intro hfree hi
    obtain ⟨version, hheld⟩ := h.members i hi
    rw [hfree] at hheld
    cases hheld
  · intro hi
    cases hheld : w.held ⟨space, candidateName requested.text i⟩ with
    | none => rfl
    | some m =>
      obtain ⟨j, hj, hname⟩ := h.only _ m hheld
      exact absurd (candidateName_inj hname ▸ hj) hi

/-- The numbers that the family carries are those in use. -/
theorem carries_iff (i : Nat) : w.server.Carries space requested.text i ↔ i ∈ taken := by
  have hread : ∀ j, j ≤ maxWord → (Record.ofConfigMap (candidateName requested.text j) space
      (Record.candidate requested space j).toConfigMap).familyIndex = j := fun j hj =>
    congrArg Record.familyIndex (Record.ofConfigMap_toConfigMap (Record.candidate requested space j) hj)
  constructor
  · rintro ⟨name, m, hheld, -, hindex⟩
    obtain ⟨j, hj, rfl⟩ := h.only name m hheld
    obtain ⟨version, hmember⟩ := h.members j hj
    obtain rfl := Option.some.inj (hheld.symm.trans hmember)
    rw [hread j (h.words j hj)] at hindex
    exact hindex ▸ hj
  · intro hi
    obtain ⟨version, hmember⟩ := h.members i hi
    exact ⟨_, _, hmember, Record.familyName_toConfigMap _, hread i (h.words i hi)⟩

/-- Once the name itself is taken, the first number that the family does not use is the least one that is not in use. -/
theorem firstUnused (hzero : 0 ∈ taken) : w.server.FirstUnused space requested.text (leastUnused taken) where
  positive := by
    refine Nat.one_le_iff_ne_zero.2 fun heq => leastUnused_notMem taken ?_
    rw [heq]
    exact hzero
  unused hcarries := leastUnused_notMem taken ((h.carries_iff _).1 hcarries)
  first _ _ hlt := (h.carries_iff _).2 (mem_of_lt_leastUnused hlt)

/-- The record of another number is stored. -/
theorem put {i : Nat} (hword : i ≤ maxWord) :
    World.Numbered requested space (insert i taken)
      { w with server := w.server.put ⟨space, candidateName requested.text i⟩ (Record.candidate requested space i).toConfigMap } where
  quiet := h.quiet.put _ _
  members j hj := by
    by_cases heq : j = i
    · subst heq
      exact ⟨_, Server.held_put_self _ _ _⟩
    · have hkey : (⟨space, candidateName requested.text j⟩ : ObjectKey) ≠ ⟨space, candidateName requested.text i⟩ :=
        fun hsame => heq (candidateName_inj (congrArg ObjectKey.name hsame))
      obtain ⟨version, hheld⟩ := h.members j (Finset.mem_of_mem_insert_of_ne hj heq)
      exact ⟨version, (Server.held_put_of_ne _ _ hkey).trans hheld⟩
  only name m hm := by
    by_cases hname : name = candidateName requested.text i
    · exact ⟨i, Finset.mem_insert_self i taken, hname⟩
    · have hkey : (⟨space, name⟩ : ObjectKey) ≠ ⟨space, candidateName requested.text i⟩ :=
        fun hsame => hname (congrArg ObjectKey.name hsame)
      obtain ⟨j, hj, heq⟩ := h.only name m ((Server.held_put_of_ne _ _ hkey).symm.trans hm)
      exact ⟨j, Finset.mem_insert_of_mem hj, heq⟩
  words j hj := by
    rcases Finset.mem_insert.1 hj with rfl | hj
    · exact hword
    · exact h.words j hj

/-- The record of a number is taken away. -/
theorem erase {i : Nat} (hw' : w'.Quiet)
    (hheld : ∀ k, w'.held k = if k = ⟨space, candidateName requested.text i⟩ then none else w.held k) :
    w'.Numbered requested space (taken.erase i) where
  quiet := hw'
  members j hj := by
    obtain ⟨hne, hj⟩ := Finset.mem_erase.1 hj
    have hkey : (⟨space, candidateName requested.text j⟩ : ObjectKey) ≠ ⟨space, candidateName requested.text i⟩ :=
      fun hsame => hne (candidateName_inj (congrArg ObjectKey.name hsame))
    rw [hheld, if_neg hkey]
    exact h.members j hj
  only name m hm := by
    rw [hheld] at hm
    split at hm
    · cases hm
    · rename_i hkey
      obtain ⟨j, hj, rfl⟩ := h.only name m hm
      exact ⟨j, Finset.mem_erase.2 ⟨fun heq => hkey (by rw [heq]), hj⟩, rfl⟩
  words j hj := h.words j (Finset.mem_of_mem_erase hj)

/-- A registration is granted the least number that is not in use. -/
theorem run_register {retries : Nat} (hretries : 1 ≤ retries) :
    ((Registration.register retries requested space true).run w).1 =
      .ok ⟨requested, candidateName requested.text (leastUnused taken), leastUnused taken⟩ := by
  have hyields := Program.run_yields (Registration.register retries requested space true) w
  have hanswers := h.quiet.register_answers retries requested space true
  have hfree : w.server.held ⟨space, requested.text⟩ = none ↔ 0 ∉ taken := candidateName_zero requested.text ▸ h.free_iff 0
  by_cases hzero : 0 ∈ taken
  · have hresult := Registration.register_result hanswers (h.firstUnused hzero) hyields
    rw [if_neg fun hbare => hfree.1 hbare hzero] at hresult
    exact hresult.trans (if_pos ⟨Nat.one_le_iff_ne_zero.1 hretries, (h.free_iff _).2 (leastUnused_notMem taken)⟩)
  · have hleast : leastUnused taken = 0 := leastUnused_eq_of hzero fun j hj => absurd hj (Nat.not_lt_zero j)
    have hindex := w.server.firstUnused_smallestUnoccupiedIndex space requested.text
    rw [Registration.register_result hanswers hindex hyields, if_pos (hfree.2 hzero), hleast, candidateName_zero]

/-- One call: it is answered by the numbers in use, and behind it the namespace has those behind it. -/
theorem run_program {retries : Nat} (hretries : 1 ≤ retries) (c : FamilyCall) (hroom : c = .register → taken.card ≤ maxWord) :
    ∃ w' : World, (c.program retries requested space).run w = ((c.answer requested taken).1, w') ∧
      w'.Numbered requested space (c.answer requested taken).2 := by
  cases c with
  | register =>
    have hresult := h.run_register hretries
    have hword : leastUnused taken ≤ maxWord := Nat.le_trans (leastUnused_le_card taken) (hroom rfl)
    refine ⟨_, ?_, h.put hword⟩
    rw [FamilyCall.program, Program.bind_eq, Program.run_andThen, hresult, h.quiet.run_register hresult]
    rfl
  | delete i =>
    rw [FamilyCall.program, Program.bind_eq, Program.run_andThen, FamilyCall.answer]
    by_cases hi : i ∈ taken
    · obtain ⟨version, hheld⟩ := h.members i hi
      obtain ⟨w', hrun, hw', hheld'⟩ := h.quiet.delete_bare hheld rfl
      refine ⟨w', ?_, ?_⟩
      · rw [hrun, if_pos hi]
        rfl
      · rw [if_pos hi]
        exact h.erase hw' hheld'
    · refine ⟨w, ?_, ?_⟩
      · rw [h.quiet.delete_absent ((h.free_iff i).2 hi), if_neg hi]
        rfl
      · rw [if_neg hi]
        exact h

end World.Numbered

/-- Numbers in use are no more behind a call than before, but for the one that a registration takes. -/
theorem FamilyCall.card_answer_le (requested : JobName) (taken : Finset Nat) (c : FamilyCall) :
    (c.answer requested taken).2.card ≤ taken.card + if c = .register then 1 else 0 := by
  cases c with
  | register => exact Finset.card_insert_le _ _
  | delete i =>
    rw [answer]
    split
    · exact Finset.card_erase_le
    · exact Nat.le_refl _

/-- Calls that are made one after the other are answered by the numbers in use, as long as these are words. -/
theorem World.Numbered.run_programs {requested : JobName} {space : String} {taken : Finset Nat} {w : World} {retries : Nat}
    {calls : List FamilyCall} (h : w.Numbered requested space taken) (hretries : 1 ≤ retries)
    (hroom : taken.card + calls.count .register ≤ maxWord + 1) :
    ((FamilyCall.programs retries requested space calls).run w).1 = FamilyCall.answers requested taken calls := by
  induction calls generalizing taken w with
  | nil => rfl
  | cons c rest ih =>
    have hcard := c.card_answer_le requested taken
    rw [List.count_cons] at hroom
    simp only [beq_iff_eq] at hroom
    obtain ⟨w', hrun, h'⟩ := h.run_program hretries c fun heq => by
      rw [if_pos heq] at hroom
      omega
    rw [FamilyCall.programs, Program.bind_eq, Program.run_andThen, hrun, Program.bind_eq, Program.run_andThen]
    have hrest := ih h' (by omega)
    rw [Program.pure_eq, Program.run_done, hrest]
    rfl

/-- A namespace that holds nothing has no numbers in use. -/
theorem World.numbered_empty {requested : JobName} {space : String} {w : World} (hw : w.Quiet)
    (hempty : ∀ name, w.held ⟨space, name⟩ = none) : w.Numbered requested space ∅ where
  quiet := hw
  members _ hi := absurd hi (Finset.notMem_empty _)
  only name m hm := by
    rw [hempty name] at hm
    cases hm
  words _ hi := absurd hi (Finset.notMem_empty _)

open FamilyCall

/-- Automatic names are the least free ones. A registration that meets no failure and no other client, and is granted a name, is granted
the name itself where that is free, and else that of the least number from 1 on that nothing with the label of the family carries, at the
first attempt. So calls for one name in a namespace that was empty, any registrations and deletions, are answered by the least numbers
that are not in use: registrations one after the other get the numbers from 0 on, and the next one behind deletions the least number
that these have freed. -/
theorem auto_naming_fills_gaps (retries : Nat) (requested : JobName) (space : String) (w : World) :
    ((Registration.register retries requested space true).RunsAlone w → ∀ id,
      ((Registration.register retries requested space true).run w).1 = .ok id →
      Registration.GrantsLeast w.server requested space ((Registration.register retries requested space true).exchanges w) id) ∧
    (1 ≤ retries → (∀ name, w.held ⟨space, name⟩ = none) →
      let Alone (calls : List FamilyCall) := (programs retries requested space calls).RunsAlone w
      let replies (calls : List FamilyCall) := ((programs retries requested space calls).run w).1
      (∀ calls, calls.count register ≤ maxWord → Alone calls → replies calls = answers requested ∅ calls) ∧
      ∀ n < maxWord,
        (Alone (List.replicate n register) → replies (List.replicate n register) = (List.range n).map (granted requested)) ∧
        ∀ gone : List Nat, gone ≠ [] → gone.Nodup → (∀ i ∈ gone, i < n) →
          Alone (List.replicate n register ++ gone.map delete ++ [register]) →
          ∃ least, IsLeast {i | i ∈ gone} least ∧
            replies (List.replicate n register ++ gone.map delete ++ [register]) =
              (List.range n).map (granted requested) ++ gone.map (fun _ => .deleted (.ok ())) ++ [granted requested least]) := by
  constructor
  · intro halone id hid
    have hyields := (Registration.register retries requested space true).run_yields w
    rw [hid] at hyields
    refine Registration.grantsLeast_of_answers (fun x hx => ?_) hyields
    rw [halone.exchanges] at hx
    exact w.quiet_alone.register_answers _ _ _ _ x hx
  · intro hretries hempty Alone replies
    have hcalls : ∀ calls, calls.count register ≤ maxWord → Alone calls → replies calls = answers requested ∅ calls := by
      intro calls hcount halone
      have hnumbered : w.alone.Numbered requested space ∅ := World.numbered_empty w.quiet_alone hempty
      refine halone.result.trans (hnumbered.run_programs hretries ?_)
      rw [Finset.card_empty]
      omega
    refine ⟨hcalls, fun n hn => ?_⟩
    obtain ⟨hnamed, hbehind⟩ := @answers_registrations requested n
    constructor
    · intro halone
      rw [hcalls _ (by rw [List.count_replicate_self]; omega) halone, hnamed]
    · intro gone hne hnodup hgone halone
      have hcount : (List.replicate n register ++ gone.map delete ++ [register]).count register ≤ maxWord := by
        have hnone : (gone.map delete).count register = 0 := List.count_eq_zero.2 (by simp)
        rw [List.count_append, List.count_append, List.count_replicate_self, hnone]
        simp only [List.count_cons_self, List.count_nil]
        omega
      obtain ⟨hdeleted, hleft⟩ := @answers_deletions requested _ gone hnodup fun i hi =>
        Finset.mem_range.2 (hgone i hi)
      have hsub : gone.toFinset ⊆ Finset.range n := fun i hi => Finset.mem_range.2 (hgone i (List.mem_toFinset.1 hi))
      have hleast := isLeast_leastUnused_sdiff hsub (List.toFinset_nonempty_iff _ |>.2 hne)
      refine ⟨leastUnused (Finset.range n \ gone.toFinset), by simpa using hleast, ?_⟩
      rw [hcalls _ hcount halone, answers_append, answers_append, hnamed, behind_append, hbehind, hdeleted, hleft]
      rfl

/-- Three jobs `job` come and two of them go: the next one is `job-1` again. And beside `job` and `job-1`, each the first of its family,
another `job-1` is `job-1-1`, at the first attempt. -/
theorem auto_naming_fills_gaps_of_three :
    (({} : World).Quiet ∧ (∀ name, ({} : World).held ⟨"team-a", name⟩ = none) ∧ namedAlike.Quiet) ∧
      ((programs 5 .job "team-a" [register, register, register, delete 2, delete 1, register]).run {}).1 =
        [.registered (.ok ⟨.job, "job", 0⟩), .registered (.ok ⟨.job, "job-1", 1⟩), .registered (.ok ⟨.job, "job-2", 2⟩),
          .deleted (.ok ()), .deleted (.ok ()), .registered (.ok ⟨.job, "job-1", 1⟩)] ∧
      ((Registration.register 5 .jobOne "team-a" true).run namedAlike).1 = .ok ⟨.jobOne, "job-1-1", 1⟩ ∧
      Registration.GrantsLeast namedAlike.server .jobOne "team-a"
        ((Registration.register 5 .jobOne "team-a" true).exchanges namedAlike) ⟨.jobOne, "job-1-1", 1⟩ := by
  have hquiet : ({} : World).Quiet := ⟨rfl, rfl, rfl, rfl⟩
  have hempty : ∀ name, ({} : World).held ⟨"team-a", name⟩ = none := fun _ => rfl
  have hgranted : ((Registration.register 5 .jobOne "team-a" true).run namedAlike).1 = .ok ⟨.jobOne, "job-1-1", 1⟩ := rfl
  refine ⟨⟨hquiet, hempty, quiet_namedAlike⟩, ?_, hgranted, ?_⟩
  · obtain ⟨-, hthree⟩ := (auto_naming_fills_gaps 5 .job "team-a" {}).2 (by decide) hempty
    obtain ⟨least, hleast, hreplies⟩ := (hthree 3 (by decide)).2 [2, 1] (by decide) (by decide) (by decide)
      (Program.runsAlone_of_quiet _ hquiet)
    have hone : IsLeast {i | i ∈ [2, 1]} 1 := ⟨by simp, fun i hi => by simp at hi; omega⟩
    obtain rfl := hleast.unique hone
    exact hreplies
  · exact (auto_naming_fills_gaps 5 .jobOne "team-a" namedAlike).1 (Program.runsAlone_of_quiet _ quiet_namedAlike) _ hgranted

end TrainingJobs
