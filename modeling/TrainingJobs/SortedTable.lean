/-!
# Tables sorted by key

A `SortedTable` binds each key at most once and lists its bindings by ascending key, whatever the order they were put
in. The laws say what a look-up gives after each operation (`get?_insert`, `get?_erase`), and that a table is determined
by its look-ups (`ext_get?`).
-/

namespace TrainingJobs

namespace Bindings

variable {κ ν : Type} [Ord κ]

/-- The value bound to a key in a list of bindings. -/
def lookup? (k : κ) : List (κ × ν) → Option ν
  | [] => none
  | (k', v) :: rest => if compare k k' = .eq then some v else lookup? k rest

/-- A sorted list of bindings with one more, which replaces the binding of the same key. -/
def put (k : κ) (v : ν) : List (κ × ν) → List (κ × ν)
  | [] => [(k, v)]
  | (k', v') :: rest =>
    match compare k k' with
    | .lt => (k, v) :: (k', v') :: rest
    | .eq => (k, v) :: rest
    | .gt => (k', v') :: put k v rest

/-- A list of bindings without that of a key. -/
def drop (k : κ) (entries : List (κ × ν)) : List (κ × ν) :=
  entries.filter fun e => compare k e.1 != .eq

/-- Strictly ascending keys. -/
def Ascending (entries : List (κ × ν)) : Prop :=
  entries.Pairwise fun a b => compare a.1 b.1 = .lt

theorem mem_put {k : κ} {v : ν} {entries : List (κ × ν)} {e : κ × ν} (h : e ∈ put k v entries) :
    e = (k, v) ∨ e ∈ entries := by
  induction entries with
  | nil => simpa [put] using h
  | cons head rest ih =>
    obtain ⟨k', v'⟩ := head
    simp only [put] at h
    split at h <;> simp only [List.mem_cons] at h ⊢ <;> grind

theorem ascending_drop {entries : List (κ × ν)} (k : κ) (h : Ascending entries) : Ascending (drop k entries) :=
  h.filter _

theorem lookup?_eq_none_of_lt {entries : List (κ × ν)} {k : κ} (h : ∀ e ∈ entries, compare k e.1 = .lt) :
    lookup? k entries = none := by
  induction entries with
  | nil => rfl
  | cons head rest ih =>
    have h0 := h head (by simp)
    simp only [lookup?, h0, reduceCtorEq, ↓reduceIte]
    exact ih fun e he => h e (by simp [he])

theorem mem_of_lookup? [Std.LawfulEqOrd κ] {entries : List (κ × ν)} {k : κ} {v : ν}
    (h : lookup? k entries = some v) : (k, v) ∈ entries := by
  induction entries with
  | nil => simp [lookup?] at h
  | cons head rest ih =>
    obtain ⟨k₀, v₀⟩ := head
    simp only [lookup?] at h
    split at h
    · rename_i heq
      have := Std.LawfulEqOrd.eq_of_compare heq
      simp_all
    · simp [ih h]

variable [Std.TransOrd κ]

theorem ascending_put {entries : List (κ × ν)} (k : κ) (v : ν) (h : Ascending entries) :
    Ascending (put k v entries) := by
  induction entries with
  | nil => simp [Ascending, put]
  | cons head rest ih =>
    obtain ⟨k', v'⟩ := head
    have hhead : ∀ e ∈ rest, compare k' e.1 = .lt := (List.pairwise_cons.1 h).1
    have hrest : Ascending rest := (List.pairwise_cons.1 h).2
    simp only [put]
    split
    · rename_i hlt
      refine List.pairwise_cons.2 ⟨?_, h⟩
      intro e he
      rcases List.mem_cons.1 he with rfl | he
      · exact hlt
      · exact Std.TransCmp.lt_trans hlt (hhead e he)
    · rename_i heq
      refine List.pairwise_cons.2 ⟨?_, hrest⟩
      intro e he
      exact Std.TransCmp.lt_of_eq_of_lt heq (hhead e he)
    · rename_i hgt
      refine List.pairwise_cons.2 ⟨?_, ih hrest⟩
      intro e he
      rcases mem_put he with rfl | he
      · exact Std.OrientedCmp.lt_of_gt hgt
      · exact hhead e he

theorem lookup?_put {entries : List (κ × ν)} (k k' : κ) (v : ν) :
    lookup? k' (put k v entries) = if compare k' k = .eq then some v else lookup? k' entries := by
  induction entries with
  | nil => simp [put, lookup?]
  | cons head rest ih =>
    obtain ⟨k₀, v₀⟩ := head
    simp only [put]
    split
    · simp [lookup?]
    · rename_i heq
      simp only [lookup?]
      have : compare k' k = .eq ↔ compare k' k₀ = .eq :=
        ⟨fun h => Std.TransCmp.eq_trans h heq, fun h => Std.TransCmp.eq_trans h (Std.OrientedCmp.eq_symm heq)⟩
      by_cases h : compare k' k = .eq
      · simp [h]
      · simp [h, mt this.2 h]
    · rename_i hgt
      simp only [lookup?, ih]
      by_cases h₀ : compare k' k₀ = .eq
      · have : compare k' k ≠ .eq := by
          intro h
          have h1 : compare k k₀ = .eq := Std.TransCmp.eq_trans (Std.OrientedCmp.eq_symm h) h₀
          simp [hgt] at h1
        simp [h₀, this]
      · simp [h₀]

theorem lookup?_drop {entries : List (κ × ν)} (k k' : κ) :
    lookup? k' (drop k entries) = if compare k' k = .eq then none else lookup? k' entries := by
  induction entries with
  | nil => simp [drop, lookup?]
  | cons head rest ih =>
    obtain ⟨k₀, v₀⟩ := head
    simp only [drop, List.filter_cons] at ih ⊢
    by_cases h : compare k k₀ = .eq
    · simp only [h, bne_self_eq_false, Bool.false_eq_true, ↓reduceIte, ih, lookup?]
      by_cases h' : compare k' k = .eq
      · simp [h']
      · have : compare k' k₀ ≠ .eq := fun h₀ => h' (Std.TransCmp.eq_trans h₀ (Std.OrientedCmp.eq_symm h))
        simp [h', this]
    · have hb : (compare k k₀ != .eq) = true := by simpa using h
      simp only [hb, ↓reduceIte, lookup?, ih]
      by_cases h₀ : compare k' k₀ = .eq
      · have : compare k' k ≠ .eq := fun h' => h (Std.TransCmp.eq_trans (Std.OrientedCmp.eq_symm h') h₀)
        simp [h₀, this]
      · simp [h₀]

theorem lookup?_of_mem {entries : List (κ × ν)} (hs : Ascending entries) {k : κ} {v : ν} (h : (k, v) ∈ entries) :
    lookup? k entries = some v := by
  induction entries with
  | nil => simp at h
  | cons head rest ih =>
    obtain ⟨k₀, v₀⟩ := head
    rcases List.mem_cons.1 h with heq | hmem
    · cases heq
      simp [lookup?]
    · have hlt : compare k₀ k = .lt := (List.pairwise_cons.1 hs).1 _ hmem
      have : compare k k₀ ≠ .eq := by
        intro he
        have := Std.OrientedCmp.eq_symm he
        simp [hlt] at this
      simp [lookup?, this, ih (List.pairwise_cons.1 hs).2 hmem]

theorem eq_of_lookup? [Std.LawfulEqOrd κ] {a b : List (κ × ν)} (ha : Ascending a) (hb : Ascending b)
    (h : ∀ k, lookup? k a = lookup? k b) : a = b := by
  induction a generalizing b with
  | nil =>
    cases b with
    | nil => rfl
    | cons head rest =>
      have := h head.1
      simp [lookup?] at this
  | cons x xs ih =>
    cases b with
    | nil =>
      have := h x.1
      simp [lookup?] at this
    | cons y ys =>
      have hx := List.pairwise_cons.1 ha
      have hy := List.pairwise_cons.1 hb
      have hxy : compare x.1 y.1 = .eq := by
        cases hc : compare x.1 y.1 with
        | eq => rfl
        | lt =>
          have h1 := h x.1
          have h2 : lookup? x.1 (y :: ys) = none := lookup?_eq_none_of_lt fun e he => by
            rcases List.mem_cons.1 he with rfl | he
            · exact hc
            · exact Std.TransCmp.lt_trans hc (hy.1 e he)
          rw [h2] at h1
          simp [lookup?] at h1
        | gt =>
          have hc' := Std.OrientedCmp.lt_of_gt hc
          have h1 := h y.1
          have h2 : lookup? y.1 (x :: xs) = none := lookup?_eq_none_of_lt fun e he => by
            rcases List.mem_cons.1 he with rfl | he
            · exact hc'
            · exact Std.TransCmp.lt_trans hc' (hx.1 e he)
          rw [h2] at h1
          simp [lookup?] at h1
      have hkey := Std.LawfulEqOrd.eq_of_compare hxy
      have hval : x.2 = y.2 := by
        have h1 := h x.1
        simp [lookup?, hxy] at h1
        exact h1
      have hhead : x = y := Prod.ext hkey hval
      subst hhead
      congr 1
      refine ih hx.2 hy.2 fun k => ?_
      have h1 := h k
      by_cases hk : compare k x.1 = .eq
      · have hk' := Std.LawfulEqOrd.eq_of_compare hk
        subst hk'
        rw [lookup?_eq_none_of_lt hx.1, lookup?_eq_none_of_lt hy.1]
      · simpa [lookup?, hk] using h1

end Bindings

/-- A table that lists its bindings by ascending key. -/
structure SortedTable (κ ν : Type) [Ord κ] where
  entries : List (κ × ν)
  ascending : Bindings.Ascending entries

namespace SortedTable

variable {κ ν : Type} [Ord κ]

/-- The table without bindings. -/
def empty : SortedTable κ ν := ⟨[], List.Pairwise.nil⟩

instance : Inhabited (SortedTable κ ν) := ⟨empty⟩

/-- The value bound to a key. -/
def get? (t : SortedTable κ ν) (k : κ) : Option ν := Bindings.lookup? k t.entries

/-- Whether a key is bound. -/
def contains (t : SortedTable κ ν) (k : κ) : Bool := (t.get? k).isSome

/-- The keys, ascending. -/
def keys (t : SortedTable κ ν) : List κ := t.entries.map (·.1)

/-- The values, by ascending key. -/
def values (t : SortedTable κ ν) : List ν := t.entries.map (·.2)

/-- Whether nothing is bound. -/
def isEmpty (t : SortedTable κ ν) : Bool := t.entries.isEmpty

/-- Nothing is bound in the empty table. -/
@[simp] theorem get?_empty (k : κ) : (empty : SortedTable κ ν).get? k = none := rfl

/-- Two tables with the same bindings are the same table. -/
theorem ext_entries {a b : SortedTable κ ν} (h : a.entries = b.entries) : a = b := by
  cases a; cases b; cases h; rfl

instance [BEq κ] [BEq ν] : BEq (SortedTable κ ν) := ⟨fun a b => a.entries == b.entries⟩

instance [DecidableEq κ] [DecidableEq ν] : DecidableEq (SortedTable κ ν) := fun a b =>
  decidable_of_iff (a.entries = b.entries) ⟨ext_entries, fun h => h ▸ rfl⟩

variable [Std.TransOrd κ]

/-- Binds a key to a value, in place of what it was bound to. -/
def insert (t : SortedTable κ ν) (k : κ) (v : ν) : SortedTable κ ν :=
  ⟨Bindings.put k v t.entries, Bindings.ascending_put k v t.ascending⟩

/-- Takes the binding of a key away. -/
def erase (t : SortedTable κ ν) (k : κ) : SortedTable κ ν :=
  ⟨Bindings.drop k t.entries, Bindings.ascending_drop k t.ascending⟩

/-- Puts bindings into a table one after the other, so that the last of a key stays. -/
def insertAll (t : SortedTable κ ν) (bindings : List (κ × ν)) : SortedTable κ ν :=
  bindings.foldl (fun t e => t.insert e.1 e.2) t

/-- The table of a list of bindings: the last of a key stays. -/
def ofList (bindings : List (κ × ν)) : SortedTable κ ν := empty.insertAll bindings

theorem get?_insert (t : SortedTable κ ν) (k k' : κ) (v : ν) :
    (t.insert k v).get? k' = if compare k' k = .eq then some v else t.get? k' :=
  Bindings.lookup?_put k k' v

@[simp] theorem get?_insert_self (t : SortedTable κ ν) (k : κ) (v : ν) : (t.insert k v).get? k = some v := by
  simp [get?_insert]

theorem get?_erase (t : SortedTable κ ν) (k k' : κ) :
    (t.erase k).get? k' = if compare k' k = .eq then none else t.get? k' :=
  Bindings.lookup?_drop k k'

@[simp] theorem get?_erase_self (t : SortedTable κ ν) (k : κ) : (t.erase k).get? k = none := by
  simp [get?_erase]

/-- A binding is listed exactly when the look-up of its key gives its value. -/
theorem mem_entries_iff [Std.LawfulEqOrd κ] {t : SortedTable κ ν} {k : κ} {v : ν} :
    (k, v) ∈ t.entries ↔ t.get? k = some v :=
  ⟨Bindings.lookup?_of_mem t.ascending, Bindings.mem_of_lookup?⟩

/-- A table is determined by its look-ups. -/
theorem ext_get? [Std.LawfulEqOrd κ] {a b : SortedTable κ ν} (h : ∀ k, a.get? k = b.get? k) : a = b :=
  ext_entries (Bindings.eq_of_lookup? a.ascending b.ascending h)

end SortedTable

end TrainingJobs
