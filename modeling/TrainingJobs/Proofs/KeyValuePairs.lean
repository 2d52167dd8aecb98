import Mathlib.Data.List.TakeWhile
import TrainingJobs.Proofs.AcceptedRequests
import TrainingJobs.Text.Front

/-!
# Pairs that are read back

A text `KEY=VALUE` has one decomposition only: the white space around the key is not part of it, and the value is all that stands behind
the first equals sign (`IsPair`). `splitPair?` finds it, unless there is a line break in the value (`splitPair?_of_isPair`). So an
environment of pairs is read whole just when each value is on one line (`pairs_read_whole_iff`).
-/

namespace TrainingJobs

open Text (takeWhile_append_eq dropWhile_append_eq)

/-- A text is a pair of a key and a value: white space, the key, white space, an equals sign and the value. A key is not empty, and has
neither white space nor an equals sign. -/
structure IsPair (text key value : String) : Prop where
  split : ∃ before between : List Char, (∀ c ∈ before ++ between, Text.isBlank c = true) ∧
    text.toList = before ++ (key.toList ++ (between ++ '=' :: value.toList))
  nonempty : key.toList ≠ []
  inKey : ∀ c ∈ key.toList, c ≠ '=' ∧ Text.isBlank c = false

variable {text key value : String}

/-- A pair is split into its key and its value, unless the value has a line break. -/
theorem splitPair?_of_isPair (h : IsPair text key value) :
    splitPair? text = if '\n' ∈ value.toList then none else some (key, value) := by
  obtain ⟨before, between, hblank, htext⟩ := h.split
  obtain ⟨first, more, hkey⟩ := List.exists_cons_of_ne_nil h.nonempty
  have hcut : text.toList.dropWhile Text.isBlank = key.toList ++ (between ++ '=' :: value.toList) := by
    rw [htext]
    refine dropWhile_append_eq (fun c hc => hblank c (List.mem_append_left _ hc)) fun c hc => ?_
    rw [hkey] at hc
    cases hc
    exact (h.inKey first (by rw [hkey]; exact List.mem_cons_self)).2
  have hinKey : ∀ c ∈ key.toList, (c != '=' && !Text.isBlank c) = true := by
    intro c hc
    obtain ⟨hne, hink⟩ := h.inKey c hc
    rw [hink, bne_iff_ne.2 hne]
    rfl
  have hend : ∀ c ∈ (between ++ '=' :: value.toList).head?, (c != '=' && !Text.isBlank c) = false := by
    intro c hc
    cases between with
    | nil =>
      cases hc
      rfl
    | cons b rest =>
      cases hc
      rw [hblank c (by simp), Bool.not_true, Bool.and_false]
  have hgap : (between ++ '=' :: value.toList).dropWhile Text.isBlank = '=' :: value.toList := by
    refine dropWhile_append_eq (fun c hc => hblank c (List.mem_append_right _ hc)) fun c hc => ?_
    cases hc
    decide
  have hkeyEmpty : key.toList.isEmpty = false := by rw [hkey]; rfl
  unfold splitPair?
  dsimp only
  rw [hcut, takeWhile_append_eq hinKey hend, dropWhile_append_eq hinKey hend, hgap]
  simp only [hkeyEmpty, Bool.false_or, List.contains_iff_mem, String.ofList_toList]

/-- What is split is a pair. -/
theorem isPair_of_splitPair? (h : splitPair? text = some (key, value)) : IsPair text key value := by
  unfold splitPair? at h
  dsimp only at h
  split at h
  · rename_i rest hrest
    split at h
    · cases h
    · rename_i hkept
      cases h
      rw [Bool.or_eq_true, not_or, List.isEmpty_iff] at hkept
      have hkey : ∀ c ∈ (text.toList.dropWhile Text.isBlank).takeWhile fun c => c != '=' && !Text.isBlank c,
          c ≠ '=' ∧ Text.isBlank c = false := by
        intro c hc
        have := List.mem_takeWhile_imp hc
        rwa [Bool.and_eq_true, bne_iff_ne, Bool.not_eq_true'] at this
      refine ⟨⟨text.toList.takeWhile Text.isBlank, ((text.toList.dropWhile Text.isBlank).dropWhile
        fun c => c != '=' && !Text.isBlank c).takeWhile Text.isBlank, fun c hc => ?_, ?_⟩, ?_, ?_⟩
      · rcases List.mem_append.1 hc with hc | hc
        · exact List.mem_takeWhile_imp hc
        · exact List.mem_takeWhile_imp hc
      · rw [String.toList_ofList, String.toList_ofList, ← hrest, List.takeWhile_append_dropWhile, List.takeWhile_append_dropWhile,
          List.takeWhile_append_dropWhile]
      · rw [String.toList_ofList]
        exact hkept.1
      · rw [String.toList_ofList]
        exact hkey
  · cases h

theorem splitPair_of_isPair (h : IsPair text key value) :
    splitPair text = if '\n' ∈ value.toList then .error (.invalidPair text) else .ok (key, value) := by
  rw [splitPair, splitPair?_of_isPair h]
  by_cases hbreak : '\n' ∈ value.toList
  · rw [if_pos hbreak, if_pos hbreak]
  · rw [if_neg hbreak, if_neg hbreak]

/-- What is no pair is refused. -/
theorem splitPair_of_not_isPair (h : ∀ key value, ¬ IsPair text key value) : splitPair text = .error (.invalidPair text) := by
  rw [splitPair]
  cases hsplit : splitPair? text with
  | none => rfl
  | some pair => exact absurd (isPair_of_splitPair? hsplit) (h pair.1 pair.2)

/-! ## Environments -/

/-- A table of bindings gives the last value of a key. -/
theorem SortedTable.get?_ofList {ν : Type} (bindings : List (String × ν)) (k : String) :
    (SortedTable.ofList bindings).get? k = bindings.reverse.lookup k := by
  have h : ∀ t : SortedTable String ν, (t.insertAll bindings).get? k = (bindings.reverse.lookup k).or (t.get? k) := by
    induction bindings with
    | nil => exact fun t => rfl
    | cons e rest ih =>
      intro t
      have hstep : t.insertAll (e :: rest) = (t.insert e.1 e.2).insertAll rest := rfl
      rw [hstep, ih, List.reverse_cons, List.lookup_append, Option.or_assoc, get?_insert]
      by_cases hk : k = e.1
      · rw [if_pos (Std.compare_eq_iff_eq.2 hk), List.lookup_cons, hk, beq_self_eq_true]
        rfl
      · rw [if_neg (mt Std.compare_eq_iff_eq.1 hk), List.lookup_cons, beq_eq_false_iff_ne.2 hk]
        rfl
  rw [ofList, h, get?_empty, Option.or_none]

/-- The texts of an environment are pairs. -/
abbrev ArePairs (texts : List String) (pairs : List (String × String)) : Prop :=
  List.Forall₂ (fun text pair => IsPair text pair.1 pair.2) texts pairs

variable {texts : List String} {pairs : List (String × String)}

theorem mapM_splitPair_of_pairs (h : ArePairs texts pairs) (hline : ∀ pair ∈ pairs, '\n' ∉ pair.2.toList) :
    texts.mapM splitPair = .ok pairs := by
  refine RequestAux.mapM_eq_ok_iff.2 (List.forall₂_iff_zip.2 ⟨h.length_eq, fun {text pair} hmem => ?_⟩)
  rw [splitPair_of_isPair ((List.forall₂_iff_zip.1 h).2 hmem), if_neg (hline pair (List.of_mem_zip hmem).2)]

/-- The first pair with a line break in its value is refused. -/
theorem mapM_splitPair_of_break (h : ArePairs texts pairs) (hbreak : ∃ pair ∈ pairs, '\n' ∈ pair.2.toList) :
    ∃ text ∈ texts, texts.mapM splitPair = .error (.invalidPair text) := by
  induction h with
  | nil =>
    obtain ⟨pair, hpair, -⟩ := hbreak
    cases hpair
  | @cons text pair texts pairs hhead hrest ih =>
    rw [List.mapM_cons, splitPair_of_isPair hhead]
    by_cases hfirst : '\n' ∈ pair.2.toList
    · rw [if_pos hfirst]
      exact ⟨text, List.mem_cons_self, rfl⟩
    · obtain ⟨other, hother, hbroken⟩ := hbreak
      rcases List.mem_cons.1 hother with rfl | hother
      · exact absurd hbroken hfirst
      · obtain ⟨text', htext', hmapM⟩ := ih ⟨other, hother, hbroken⟩
        rw [if_neg hfirst, hmapM]
        exact ⟨text', List.mem_cons_of_mem _ htext', rfl⟩

variable {r : SubmitRequest} {base : ChartValues}

/-- A request that would be accepted without its environment is accepted with one that is read. -/
theorem SubmitRequest.values_of_environment (h : { r with environment := [] }.values = .ok base)
    (hread : r.environment.mapM splitPair = .ok pairs) : r.values = .ok { base with environment := .ofList pairs } := by
  obtain ⟨hamounts, share, environment, set, hshare, -, hset, rfl⟩ := values_eq_ok_iff.1 h
  exact values_eq_ok_iff.2 ⟨hamounts, share, pairs, set, hshare, hread, hset, rfl⟩

/-- It is refused with one that is not. -/
theorem SubmitRequest.values_of_unread_environment {e : RequestError} (h : { r with environment := [] }.values = .ok base)
    (hread : r.environment.mapM splitPair = .error e) : r.values = .error e := by
  obtain ⟨-, share, -, -, hshare, -⟩ := values_eq_ok_iff.1 h
  exact values_of_environment_error hshare hread

/-- A pair is read as its key and its whole value just when the value is on one line, and is refused otherwise, as is what is no pair.
So a request whose environment is made of pairs, and whose other fields are in order, gets the last value of each key just when all the
values are on one line, and is refused otherwise for one of its pairs. -/
theorem pairs_read_whole_iff (text : String) (r : SubmitRequest) :
    (∀ key value, IsPair text key value → (splitPair text = .ok (key, value) ↔ '\n' ∉ value.toList) ∧
      ('\n' ∈ value.toList → splitPair text = .error (.invalidPair text))) ∧
    ((∀ key value, ¬ IsPair text key value) → splitPair text = .error (.invalidPair text)) ∧
    ∀ (base : ChartValues) (pairs : List (String × String)),
      { r with environment := [] }.values = .ok base → ArePairs r.environment pairs →
      ((∃ v, r.values = .ok v ∧ ∀ key, v.environment.get? key = pairs.reverse.lookup key) ↔
        ∀ pair ∈ pairs, '\n' ∉ pair.2.toList) ∧
      ((∃ pair ∈ pairs, '\n' ∈ pair.2.toList) → ∃ text ∈ r.environment, r.values = .error (.invalidPair text)) := by
  refine ⟨fun key value h => ?_, fun h => splitPair_of_not_isPair h, fun base pairs h hpairs => ?_⟩
  · rw [splitPair_of_isPair h]
    by_cases hbreak : '\n' ∈ value.toList
    · simp [hbreak]
    · simp [hbreak]
  · have hrefused : (∃ pair ∈ pairs, '\n' ∈ pair.2.toList) →
        ∃ text ∈ r.environment, r.values = .error (.invalidPair text) := by
      intro hbreak
      obtain ⟨text, htext, hmapM⟩ := mapM_splitPair_of_break hpairs hbreak
      exact ⟨text, htext, SubmitRequest.values_of_unread_environment h hmapM⟩
    refine ⟨⟨fun ⟨v, hv, _⟩ pair hpair hbreak => ?_, fun hline => ?_⟩, hrefused⟩
    · obtain ⟨text, -, hrefusal⟩ := hrefused ⟨pair, hpair, hbreak⟩
      rw [hv] at hrefusal
      cases hrefusal
    · refine ⟨_, SubmitRequest.values_of_environment h (mapM_splitPair_of_pairs hpairs hline), fun key => ?_⟩
      exact SortedTable.get?_ofList pairs key

theorem inKey_singleA : ∀ c ∈ "A".toList, c ≠ '=' ∧ Text.isBlank c = false := by
  intro c hc
  obtain rfl : c = 'A' := by simpa using hc
  exact ⟨by decide, by decide⟩

/-- White space around a key is left out, and a key that comes again has its last value. -/
theorem pairs_read_whole_of_repeated_key :
    splitPair " A =x=y z" = .ok ("A", "x=y z") ∧ splitPair "A" = .error (.invalidPair "A") ∧
      ∃ v, { Lifecycle.plainRequest with environment := ["A=1", "B=", "A=2"] }.values = .ok v ∧
        v.environment.get? "A" = some "2" ∧ v.environment.get? "B" = some "" := by
  obtain ⟨hpair, -, hvalues⟩ :=
    pairs_read_whole_iff " A =x=y z" { Lifecycle.plainRequest with environment := ["A=1", "B=", "A=2"] }
  obtain ⟨-, hnone, -⟩ := pairs_read_whole_iff "A" Lifecycle.plainRequest
  have hblank : ∀ c ∈ [' '] ++ [' '], Text.isBlank c = true := by
    intro c hc
    obtain rfl : c = ' ' := by simpa using hc
    decide
  have hspaced : IsPair " A =x=y z" "A" "x=y z" := ⟨⟨[' '], [' '], hblank, by decide⟩, by decide, inKey_singleA⟩
  have hbare : ∀ key value, ¬ IsPair "A" key value := by
    intro key value h
    obtain ⟨before, between, -, htext⟩ := h.split
    have hmem : '=' ∈ "A".toList := by rw [htext]; simp
    revert hmem
    decide
  have hpairs : ArePairs ["A=1", "B=", "A=2"] [("A", "1"), ("B", ""), ("A", "2")] :=
    .cons (isPair_of_splitPair? (by rfl)) (.cons (isPair_of_splitPair? (by rfl)) (.cons (isPair_of_splitPair? (by rfl)) .nil))
  obtain ⟨v, hv, hget⟩ := (hvalues _ _ Lifecycle.values_plainRequest hpairs).1.2 (by decide)
  exact ⟨(hpair _ _ hspaced).1.2 (by decide), hnone hbare, v, hv, hget "A", hget "B"⟩

/-- A value with a line break is part of a pair, which is refused. -/
theorem pairs_of_broken_value_false :
    IsPair "A=x\ny" "A" "x\ny" ∧ splitPair "A=x\ny" = .error (.invalidPair "A=x\ny") ∧
      { Lifecycle.plainRequest with environment := ["A=x\ny"] }.values = .error (.invalidPair "A=x\ny") := by
  have hpair : IsPair "A=x\ny" "A" "x\ny" := ⟨⟨[], [], nofun, by decide⟩, by decide, inKey_singleA⟩
  exact ⟨hpair, rfl, rfl⟩

end TrainingJobs
