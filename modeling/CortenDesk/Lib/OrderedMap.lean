import Mathlib.Data.List.Sort

/-!
Ordered maps: one value a key, entries in insertion order, and two maps the same when
their entry lists are. A sorted map is determined by its lookups, which is what makes
the strict comparison of two maps sorted by key a comparison of maps.
-/
universe u v w
variable {κ : Type u} {υ : Type v} {ω : Type w}

structure OrderedMap (κ : Type u) (υ : Type v) where
  entries : List (κ × υ)
  nodup : (entries.map Prod.fst).Nodup

namespace OrderedMap

@[ext] theorem ext {a b : OrderedMap κ υ} (h : a.entries = b.entries) : a = b := by
  cases a
  cases b
  cases h
  rfl

instance [DecidableEq κ] [DecidableEq υ] : DecidableEq (OrderedMap κ υ) := fun a b =>
  decidable_of_iff (a.entries = b.entries) ⟨ext, congrArg entries⟩

def empty : OrderedMap κ υ := ⟨[], List.nodup_nil⟩

instance : EmptyCollection (OrderedMap κ υ) := ⟨empty⟩

def keys (a : OrderedMap κ υ) : List κ := a.entries.map Prod.fst

def size (a : OrderedMap κ υ) : Nat := a.entries.length

/-- The map without its oldest entry. -/
def shift (a : OrderedMap κ υ) : OrderedMap κ υ where
  entries := a.entries.tail
  nodup := by
    rw [List.map_tail]
    exact a.nodup.tail

theorem size_shift (a : OrderedMap κ υ) : a.shift.size = a.size - 1 := List.length_tail

theorem eq_empty_iff (a : OrderedMap κ υ) : a = ∅ ↔ ∀ k, k ∉ a.keys := by
  constructor
  · rintro rfl k
    exact List.not_mem_nil
  · intro h
    cases hl : a.entries with
    | nil => exact ext hl
    | cons e l =>
        refine absurd ?_ (h e.1)
        rw [keys, hl]
        exact List.mem_cons_self

section Lookup
variable [DecidableEq κ]

def get? (a : OrderedMap κ υ) (k : κ) : Option υ := a.entries.lookup k

@[simp] theorem get?_empty (k : κ) : (∅ : OrderedMap κ υ).get? k = none := rfl

private theorem lookup_eq_some_iff {l : List (κ × υ)} (h : (l.map Prod.fst).Nodup)
    (k : κ) (v : υ) : l.lookup k = some v ↔ (k, v) ∈ l := by
  induction l with
  | nil => simp
  | cons e l ih =>
      obtain ⟨i, x⟩ := e
      rw [List.map_cons, List.nodup_cons] at h
      rw [List.lookup_cons, List.mem_cons]
      by_cases hk : k = i
      · subst hk
        have absent : (k, v) ∉ l := fun hm => h.1 (List.mem_map.mpr ⟨(k, v), hm, rfl⟩)
        simp only [beq_self_eq_true, Option.some.injEq, absent, or_false, Prod.ext_iff,
          true_and]
        exact eq_comm
      · simp [beq_false_of_ne hk, ih h.2, hk]

theorem get?_eq_some_iff (a : OrderedMap κ υ) (k : κ) (v : υ) :
    a.get? k = some v ↔ (k, v) ∈ a.entries :=
  lookup_eq_some_iff a.nodup k v

theorem get?_eq_none_iff (a : OrderedMap κ υ) (k : κ) : a.get? k = none ↔ k ∉ a.keys := by
  constructor
  · intro h hk
    obtain ⟨e, he, rfl⟩ := List.mem_map.mp hk
    have := (a.get?_eq_some_iff e.1 e.2).mpr he
    simp [h] at this
  · intro h
    cases hv : a.get? k with
    | none => rfl
    | some v => exact absurd (List.mem_map_of_mem ((a.get?_eq_some_iff k v).mp hv)) h

theorem mem_keys_iff (a : OrderedMap κ υ) (k : κ) : k ∈ a.keys ↔ ∃ v, a.get? k = some v := by
  rw [← Option.ne_none_iff_exists', ne_eq, get?_eq_none_iff, not_not]

theorem get?_eq_of_mem_iff {a b : OrderedMap κ υ}
    (h : ∀ e, e ∈ a.entries ↔ e ∈ b.entries) (k : κ) : a.get? k = b.get? k := by
  apply Option.ext
  intro v
  rw [get?_eq_some_iff, get?_eq_some_iff, h]

/-- Assignment to a key: in place for a present one, at the end otherwise. -/
def assign (k : κ) (v : υ) : List (κ × υ) → List (κ × υ)
  | [] => [(k, v)]
  | e :: es => if e.1 = k then (k, v) :: es else e :: assign k v es

private theorem map_fst_assign (k : κ) (v : υ) (l : List (κ × υ)) :
    (assign k v l).map Prod.fst =
      if k ∈ l.map Prod.fst then l.map Prod.fst else l.map Prod.fst ++ [k] := by
  induction l with
  | nil => simp [assign]
  | cons e l ih =>
      by_cases hk : e.1 = k
      · simp [assign, hk]
      · have hk' : ¬ k = e.1 := fun h => hk h.symm
        simp only [assign, hk, if_false, List.map_cons, ih, List.mem_cons, hk', false_or]
        split <;> rfl

def set (a : OrderedMap κ υ) (k : κ) (v : υ) : OrderedMap κ υ where
  entries := assign k v a.entries
  nodup := by
    rw [map_fst_assign]
    split
    · exact a.nodup
    · next h =>
      refine List.nodup_append.mpr ⟨a.nodup, List.nodup_singleton k, ?_⟩
      intro x hx y hy
      rw [List.mem_singleton] at hy
      rintro rfl
      exact h (hy ▸ hx)

theorem get?_set (a : OrderedMap κ υ) (k : κ) (v : υ) (j : κ) :
    (a.set k v).get? j = if j = k then some v else a.get? j := by
  change (assign k v a.entries).lookup j = if j = k then some v else a.entries.lookup j
  induction a.entries with
  | nil =>
      by_cases hj : j = k
      · simp [assign, hj]
      · simp [assign, List.lookup_cons, hj, beq_false_of_ne hj]
  | cons e l ih =>
      obtain ⟨i, x⟩ := e
      by_cases hk : i = k
      · subst hk
        by_cases hj : j = i
        · simp [assign, hj]
        · simp [assign, List.lookup_cons, hj, beq_false_of_ne hj]
      · by_cases hj : j = i
        · have hjk : ¬ j = k := fun h => hk (hj.symm.trans h)
          simp [assign, hk, hj]
        · simp [assign, hk, List.lookup_cons, beq_false_of_ne hj, ih]

theorem size_set_le (a : OrderedMap κ υ) (k : κ) (v : υ) : (a.set k v).size ≤ a.size + 1 := by
  have keys := congrArg List.length (map_fst_assign k v a.entries)
  rw [List.length_map] at keys
  rw [size, size, set, keys]
  split
  · rw [List.length_map]
    exact Nat.le_succ _
  · rw [List.length_append, List.length_map, List.length_singleton]

theorem get?_of_shift {a : OrderedMap κ υ} {k : κ} {v : υ} (found : a.shift.get? k = some v) :
    a.get? k = some v :=
  (a.get?_eq_some_iff k v).mpr (List.mem_of_mem_tail ((a.shift.get?_eq_some_iff k v).mp found))

/-- The pairs of a list, assigned one after another. -/
def ofList (l : List (κ × υ)) : OrderedMap κ υ := l.foldl (fun a e => a.set e.1 e.2) ∅

private theorem assign_of_not_mem (k : κ) (v : υ) (l : List (κ × υ))
    (h : k ∉ l.map Prod.fst) : assign k v l = l ++ [(k, v)] := by
  induction l with
  | nil => rfl
  | cons e l ih =>
      rw [List.map_cons, List.mem_cons, not_or] at h
      have hk : ¬ e.1 = k := fun he => h.1 he.symm
      simp only [assign, hk, if_false, ih h.2, List.cons_append]

/-- Building from a list without repeated keys keeps the list. -/
theorem entries_ofList (l : List (κ × υ)) (h : (l.map Prod.fst).Nodup) :
    (ofList l).entries = l := by
  have grow : ∀ (l : List (κ × υ)) (a : OrderedMap κ υ), ((a.entries ++ l).map Prod.fst).Nodup →
      (l.foldl (fun a e => a.set e.1 e.2) a).entries = a.entries ++ l := by
    intro l
    induction l with
    | nil => intro a _; simp
    | cons e l ih =>
        intro a h
        have fresh : e.1 ∉ a.entries.map Prod.fst := by
          intro hm
          rw [List.map_append, List.nodup_append] at h
          exact h.2.2 _ hm _ (List.mem_map_of_mem List.mem_cons_self) rfl
        have step : (a.set e.1 e.2).entries = a.entries ++ [e] :=
          assign_of_not_mem e.1 e.2 a.entries fresh
        rw [List.foldl_cons, ih _ (by rw [step]; simpa using h), step]
        simp
  exact grow l ∅ h

/-- A key of the list that was built from has the value of its last assignment, so a
looked-up entry is one of the list's. -/
theorem mem_of_mem_ofList (l : List (κ × υ)) (e : κ × υ) (h : e ∈ (ofList l).entries) :
    e ∈ l := by
  have grow : ∀ (l : List (κ × υ)) (a : OrderedMap κ υ) (k : κ) (v : υ),
      (l.foldl (fun a e => a.set e.1 e.2) a).get? k = some v →
        a.get? k = some v ∨ (k, v) ∈ l := by
    intro l
    induction l with
    | nil => intro a k v h; exact .inl h
    | cons d l ih =>
        intro a k v h
        rcases ih _ k v h with hset | hl
        · rw [get?_set] at hset
          by_cases hk : k = d.1
          · rw [if_pos hk, Option.some.injEq] at hset
            exact .inr (List.mem_cons.mpr (.inl (by rw [hk, ← hset])))
          · rw [if_neg hk] at hset
            exact .inl hset
        · exact .inr (List.mem_cons_of_mem d hl)
  rcases grow l ∅ e.1 e.2 ((get?_eq_some_iff _ _ _).mpr h) with hempty | hl
  · simp at hempty
  · exact hl

/-- The values changed in place. -/
def map (f : υ → ω) (a : OrderedMap κ υ) : OrderedMap κ ω where
  entries := a.entries.map fun e => (e.1, f e.2)
  nodup := by
    rw [List.map_map]
    exact a.nodup

@[simp] theorem get?_map (f : υ → ω) (a : OrderedMap κ υ) (k : κ) :
    (a.map f).get? k = (a.get? k).map f := by
  simp only [get?, map]
  induction a.entries with
  | nil => rfl
  | cons e l ih =>
      rw [List.map_cons, List.lookup_cons, List.lookup_cons, ih]
      cases k == e.1 <;> rfl

theorem map_set (f : υ → ω) (a : OrderedMap κ υ) (k : κ) (v : υ) :
    (a.set k v).map f = (a.map f).set k (f v) := by
  apply ext
  simp only [map, set]
  induction a.entries with
  | nil => rfl
  | cons e l ih =>
      simp only [assign, List.map_cons]
      split
      · rfl
      · rw [List.map_cons, ih]

end Lookup

section KeySort
variable [LinearOrder κ]

def Sorted (a : OrderedMap κ υ) : Prop := a.entries.Pairwise fun x y => x.1 ≤ y.1

private instance : Std.Total fun x y : κ × υ => x.1 ≤ y.1 := ⟨fun x y => le_total x.1 y.1⟩

private instance : IsTrans (κ × υ) fun x y => x.1 ≤ y.1 := ⟨fun _ _ _ => le_trans⟩

/-- The entries in the order of their keys. -/
def ksort (a : OrderedMap κ υ) : OrderedMap κ υ where
  entries := a.entries.insertionSort fun x y => x.1 ≤ y.1
  nodup := (((List.perm_insertionSort _ a.entries).map Prod.fst).nodup_iff).mpr a.nodup

theorem mem_ksort (a : OrderedMap κ υ) (e : κ × υ) : e ∈ a.ksort.entries ↔ e ∈ a.entries :=
  List.mem_insertionSort _

theorem sorted_ksort (a : OrderedMap κ υ) : a.ksort.Sorted := List.pairwise_insertionSort _ _

@[simp] theorem get?_ksort (a : OrderedMap κ υ) (k : κ) : a.ksort.get? k = a.get? k :=
  get?_eq_of_mem_iff a.mem_ksort k

@[simp] theorem mem_keys_ksort (a : OrderedMap κ υ) (k : κ) : k ∈ a.ksort.keys ↔ k ∈ a.keys := by
  rw [mem_keys_iff, get?_ksort, mem_keys_iff]

/-- Two sorted maps with the same lookups are the same. -/
theorem eq_of_sorted {a b : OrderedMap κ υ} (ha : a.Sorted) (hb : b.Sorted)
    (h : ∀ k, a.get? k = b.get? k) : a = b := by
  have mem : ∀ e, e ∈ a.entries ↔ e ∈ b.entries := fun e => by
    rw [← get?_eq_some_iff, ← get?_eq_some_iff, h]
  have perm : a.entries.Perm b.entries :=
    (List.perm_ext_iff_of_nodup (.of_map _ a.nodup) (.of_map _ b.nodup)).mpr mem
  refine ext (perm.eq_of_pairwise ?_ ha hb)
  intro x y hx hy hxy hyx
  have hk : x.1 = y.1 := le_antisymm hxy hyx
  have same : a.get? x.1 = some y.2 := by
    rw [h, hk, get?_eq_some_iff]
    exact hy
  rw [(a.get?_eq_some_iff x.1 x.2).mpr hx, Option.some.injEq] at same
  exact Prod.ext hk same

end KeySort
end OrderedMap
