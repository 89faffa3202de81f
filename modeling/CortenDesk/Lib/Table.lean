import Mathlib.Data.List.Basic
import Mathlib.Data.List.Nodup

/-!
Tables of rows under an auto-increment key, which counts from 1: a key names at most one row
and is never given out again. Updates and deletions select rows by a predicate, as a query does;
each operation is described by the row a later lookup finds.
-/
universe u

class Row (ρ : Type u) where
  id : ρ → Nat

structure Table (ρ : Type u) [Row ρ] where
  rows : List ρ
  nextId : Nat
  nodup : (rows.map Row.id).Nodup
  below : ∀ r ∈ rows, Row.id r < nextId
  positive : 0 < nextId ∧ ∀ r ∈ rows, 0 < Row.id r

namespace Table
variable {ρ : Type u} [Row ρ] (t : Table ρ)

def empty : Table ρ :=
  ⟨[], 1, List.nodup_nil, fun _ h => (nomatch h), Nat.one_pos, fun _ h => (nomatch h)⟩

def find? (id : Nat) : Option ρ := t.rows.find? fun r => Row.id r = id

theorem eq_of_id_eq {r s : ρ} (hr : r ∈ t.rows) (hs : s ∈ t.rows)
    (h : Row.id r = Row.id s) : r = s :=
  List.inj_on_of_nodup_map t.nodup hr hs h

theorem find?_eq_some_iff {id : Nat} {r : ρ} :
    t.find? id = some r ↔ r ∈ t.rows ∧ Row.id r = id := by
  constructor
  · intro h
    exact ⟨List.mem_of_find?_eq_some h, by simpa using List.find?_some h⟩
  · rintro ⟨hr, rfl⟩
    cases h : t.find? (Row.id r) with
    | none => simpa using List.find?_eq_none.mp h r hr
    | some s =>
        have hs := List.mem_of_find?_eq_some h
        have hid : Row.id s = Row.id r := by simpa using List.find?_some h
        rw [t.eq_of_id_eq hs hr hid]

theorem find?_eq_none_iff {id : Nat} : t.find? id = none ↔ ∀ r ∈ t.rows, Row.id r ≠ id := by
  simp [find?]

theorem find?_of_mem {r : ρ} (h : r ∈ t.rows) : t.find? (Row.id r) = some r :=
  t.find?_eq_some_iff.mpr ⟨h, rfl⟩

/-- A key selects one row. -/
theorem filter_id_eq {r : ρ} (h : r ∈ t.rows) :
    (t.rows.filter fun s => decide (Row.id s = Row.id r)) = [r] := by
  classical
  have only : (t.rows.filter fun s => decide (Row.id s = Row.id r)) =
      t.rows.filter (· = r) := by
    refine List.filter_congr fun s hs => ?_
    rw [decide_eq_decide]
    exact ⟨t.eq_of_id_eq hs h, fun same => by rw [same]⟩
  rw [only, List.filter_eq, List.count_eq_one_of_mem t.nodup.of_map h]
  rfl

/-- `UPDATE … WHERE p`. -/
def update (p : ρ → Bool) (f : ρ → ρ) (keeps : ∀ r, Row.id (f r) = Row.id r := by intro _; rfl) :
    Table ρ where
  rows := t.rows.map fun r => if p r then f r else r
  nextId := t.nextId
  nodup := by
    have same : (fun r => Row.id (if p r then f r else r)) = Row.id := by
      funext r
      split
      · exact keeps r
      · rfl
    simpa only [List.map_map, Function.comp_def, same] using t.nodup
  below := by
    intro s hs
    obtain ⟨r, hr, rfl⟩ := List.mem_map.mp hs
    split
    · rw [keeps]
      exact t.below r hr
    · exact t.below r hr
  positive := by
    refine ⟨t.positive.1, fun s hs => ?_⟩
    obtain ⟨r, hr, rfl⟩ := List.mem_map.mp hs
    split
    · rw [keeps]
      exact t.positive.2 r hr
    · exact t.positive.2 r hr

/-- `DELETE … WHERE p`. -/
def delete (p : ρ → Bool) : Table ρ where
  rows := t.rows.filter fun r => ! p r
  nextId := t.nextId
  nodup := t.nodup.sublist (List.filter_sublist.map Row.id)
  below r hr := t.below r (List.mem_of_mem_filter hr)
  positive := ⟨t.positive.1, fun r hr => t.positive.2 r (List.mem_of_mem_filter hr)⟩

def insert (make : Nat → ρ) (given : ∀ n, Row.id (make n) = n := by intro _; rfl) : Table ρ where
  rows := t.rows ++ [make t.nextId]
  nextId := t.nextId + 1
  nodup := by
    rw [List.map_append, List.nodup_append]
    refine ⟨t.nodup, List.nodup_singleton _, ?_⟩
    intro a ha b hb
    obtain ⟨r, hr, rfl⟩ := List.mem_map.mp ha
    rw [List.map_singleton, List.mem_singleton, given] at hb
    rw [hb]
    exact Nat.ne_of_lt (t.below r hr)
  below := by
    intro r hr
    rcases List.mem_append.mp hr with old | new
    · exact Nat.lt_succ_of_lt (t.below r old)
    · rw [List.mem_singleton.mp new, given]
      exact Nat.lt_succ_self _
  positive := by
    refine ⟨Nat.succ_pos _, fun r hr => ?_⟩
    rcases List.mem_append.mp hr with old | new
    · exact t.positive.2 r old
    · rw [List.mem_singleton.mp new, given]
      exact t.positive.1

variable {t}

theorem mem_update {p : ρ → Bool} {f : ρ → ρ} {keeps : ∀ r, Row.id (f r) = Row.id r} {s : ρ} :
    s ∈ (t.update p f keeps).rows ↔ ∃ r ∈ t.rows, (if p r then f r else r) = s :=
  List.mem_map

theorem mem_delete {p : ρ → Bool} {s : ρ} :
    s ∈ (t.delete p).rows ↔ s ∈ t.rows ∧ p s = false := by
  simp [delete]

theorem mem_insert {make : Nat → ρ} {given : ∀ n, Row.id (make n) = n} {s : ρ} :
    s ∈ (t.insert make given).rows ↔ s ∈ t.rows ∨ s = make t.nextId := by
  simp [insert]

theorem ext {t u : Table ρ} (rows : t.rows = u.rows) (nextId : t.nextId = u.nextId) : t = u := by
  cases t
  cases u
  simp_all only

theorem update_congr {p q : ρ → Bool} {f g : ρ → ρ} {keeps : ∀ r, Row.id (f r) = Row.id r}
    {keeps' : ∀ r, Row.id (g r) = Row.id r}
    (same : ∀ r ∈ t.rows, (if p r then f r else r) = if q r then g r else r) :
    t.update p f keeps = t.update q g keeps' :=
  ext (List.map_congr_left same) rfl

theorem update_eq_self {p : ρ → Bool} {f : ρ → ρ} {keeps : ∀ r, Row.id (f r) = Row.id r}
    (same : ∀ r ∈ t.rows, p r → f r = r) : t.update p f keeps = t := by
  refine ext ?_ rfl
  calc (t.update p f keeps).rows
      = t.rows.map id := by
        refine List.map_congr_left fun r hr => ?_
        split
        · next hp => exact same r hr hp
        · rfl
    _ = t.rows := List.map_id _

/-- Two updates by one idempotent change are one. -/
theorem update_update {p q : ρ → Bool} {f : ρ → ρ} {keeps : ∀ r, Row.id (f r) = Row.id r}
    (twice : ∀ r, f (f r) = f r) (stable : ∀ r, q (f r) = q r) :
    (t.update p f keeps).update q f keeps = t.update (fun r => p r || q r) f keeps := by
  refine ext ?_ rfl
  simp only [update, List.map_map]
  refine List.map_congr_left fun r _ => ?_
  by_cases hp : p r <;> by_cases hq : q r <;> simp [hp, hq, stable, twice]

theorem find?_update (p : ρ → Bool) (f : ρ → ρ) (keeps : ∀ r, Row.id (f r) = Row.id r)
    (id : Nat) :
    (t.update p f keeps).find? id = (t.find? id).map fun r => if p r then f r else r := by
  have same (r : ρ) : Row.id (if p r then f r else r) = Row.id r := by
    split
    · exact keeps r
    · rfl
  simp only [find?, update, List.find?_map, Function.comp_def, same]

theorem find?_delete (p : ρ → Bool) (id : Nat) :
    (t.delete p).find? id = (t.find? id).filter fun r => ! p r := by
  apply Option.ext
  intro r
  simp only [find?_eq_some_iff, mem_delete, Option.filter_eq_some_iff, Bool.not_eq_true']
  exact ⟨fun ⟨⟨h, hp⟩, hid⟩ => ⟨⟨h, hid⟩, hp⟩, fun ⟨⟨h, hid⟩, hp⟩ => ⟨⟨h, hp⟩, hid⟩⟩

/-- An update by key changes one lookup. -/
theorem find?_update_id {r : ρ} (h : r ∈ t.rows) (f : ρ → ρ) (keeps : ∀ r, Row.id (f r) = Row.id r)
    (id : Nat) :
    (t.update (fun s => decide (Row.id s = Row.id r)) f keeps).find? id =
      if id = Row.id r then some (f r) else t.find? id := by
  rw [find?_update]
  split
  · next here => simp [here, t.find?_of_mem h]
  · next away =>
    cases found : t.find? id with
    | none => rfl
    | some s =>
        have other : Row.id s ≠ Row.id r := (t.find?_eq_some_iff.mp found).2 ▸ away
        simp [other]

/-- After an update by key, the one row of the key is the changed one. -/
theorem mem_update_id {r s : ρ} (h : r ∈ t.rows) (same : Row.id s = Row.id r) (f : ρ → ρ)
    (keeps : ∀ r, Row.id (f r) = Row.id r := by intro _; rfl) :
    s ∈ (t.update (fun s => decide (Row.id s = Row.id r)) f keeps).rows ↔ f r = s := by
  have found := find?_update_id h f keeps (Row.id s)
  rw [if_pos same] at found
  constructor
  · intro kept
    rw [find?_of_mem _ kept] at found
    exact (Option.some.inj found).symm
  · intro is
    rw [is] at found
    exact ((find?_eq_some_iff _).mp found).1

theorem mem_update_of_ne {r : ρ} {id : Nat} (h : r ∈ t.rows) (away : Row.id r ≠ id) (f : ρ → ρ)
    (keeps : ∀ r, Row.id (f r) = Row.id r := by intro _; rfl) :
    r ∈ (t.update (fun s => decide (Row.id s = id)) f keeps).rows :=
  mem_update.mpr ⟨r, h, if_neg (by simpa using away)⟩

/-- An update by key leaves the other rows. -/
theorem mem_update_iff_of_ne {r : ρ} {id : Nat} (away : Row.id r ≠ id) {f : ρ → ρ}
    {keeps : ∀ r, Row.id (f r) = Row.id r} :
    r ∈ (t.update (fun s => decide (Row.id s = id)) f keeps).rows ↔ r ∈ t.rows := by
  constructor
  · intro listed
    obtain ⟨s, was, rfl⟩ := mem_update.mp listed
    by_cases here : Row.id s = id
    · rw [if_pos (decide_eq_true here), keeps] at away
      exact absurd here away
    · rw [if_neg (by simpa using here)]
      exact was
  · exact fun h => mem_update_of_ne h away f keeps

/-- A deletion by key changes one lookup. -/
theorem find?_delete_id (id id' : Nat) :
    (t.delete fun s => decide (Row.id s = id)).find? id' =
      if id' = id then none else t.find? id' := by
  rw [find?_delete]
  cases found : t.find? id' with
  | none => simp
  | some s =>
      rw [← (t.find?_eq_some_iff.mp found).2]
      by_cases here : Row.id s = id <;> simp [here]

theorem find?_insert (make : Nat → ρ) (given : ∀ n, Row.id (make n) = n) (id : Nat) :
    (t.insert make given).find? id = if id = t.nextId then some (make id) else t.find? id := by
  apply Option.ext
  intro r
  rw [find?_eq_some_iff, mem_insert]
  split
  · next new =>
    subst new
    constructor
    · rintro ⟨old | new, hid⟩
      · exact absurd hid (Nat.ne_of_lt (t.below r old))
      · rw [new]
    · rintro ⟨⟩
      exact ⟨.inr rfl, given _⟩
  · next old =>
    rw [find?_eq_some_iff]
    constructor
    · rintro ⟨present | new, hid⟩
      · exact ⟨present, hid⟩
      · rw [new, given] at hid
        exact absurd hid.symm old
    · rintro ⟨present, hid⟩
      exact ⟨.inl present, hid⟩

section Unique
variable {κ : Type*} {key : ρ → κ}

/-- A unique index over a column, or over several. -/
def Unique (t : Table ρ) (key : ρ → κ) : Prop := (t.rows.map key).Nodup

instance Unique.decidable [DecidableEq κ] : Decidable (t.Unique key) :=
  inferInstanceAs (Decidable (t.rows.map key).Nodup)

theorem unique_empty : (empty : Table ρ).Unique key := List.nodup_nil

theorem Unique.eq (h : t.Unique key) {r s : ρ} (hr : r ∈ t.rows) (hs : s ∈ t.rows)
    (same : key r = key s) : r = s :=
  List.inj_on_of_nodup_map h hr hs same

theorem Unique.delete (h : t.Unique key) (p : ρ → Bool) : (t.delete p).Unique key :=
  List.Nodup.sublist (List.filter_sublist.map key) h

/-- An update that leaves the column alone. -/
theorem Unique.update (h : t.Unique key) {p : ρ → Bool} {f : ρ → ρ}
    {keeps : ∀ r, Row.id (f r) = Row.id r} (same : ∀ r, key (f r) = key r) :
    (t.update p f keeps).Unique key := by
  have kept (r : ρ) : key (if p r then f r else r) = key r := by
    split
    · exact same r
    · rfl
  simpa only [Unique, Table.update, List.map_map, Function.comp_def, kept] using h

/-- An update by key, when no other row has the new value. -/
theorem unique_update_id_iff (h : t.Unique key) {r : ρ} (hr : r ∈ t.rows) {f : ρ → ρ}
    {keeps : ∀ r, Row.id (f r) = Row.id r} :
    (t.update (fun s => decide (Row.id s = Row.id r)) f keeps).Unique key ↔
      ∀ s ∈ t.rows, key s = key (f r) → Row.id s = Row.id r := by
  rw [Unique, update, List.map_map, List.nodup_map_iff_inj_on t.nodup.of_map]
  simp only [Function.comp_apply, decide_eq_true_eq]
  constructor
  · intro injective s hs same
    by_contra away
    refine away (congrArg Row.id (injective s hs r hr ?_))
    rwa [if_neg away, if_pos rfl]
  · intro fresh x hx y hy same
    split at same <;> split at same
    · next hx' hy' => exact t.eq_of_id_eq hx hy (hx'.trans hy'.symm)
    · next hx' hy' =>
      rw [t.eq_of_id_eq hx hr hx'] at same
      exact absurd (fresh y hy same.symm) hy'
    · next hx' hy' =>
      rw [t.eq_of_id_eq hy hr hy'] at same
      exact absurd (fresh x hx same) hx'
    · exact h.eq hx hy same

theorem unique_insert_iff {make : Nat → ρ} {given : ∀ n, Row.id (make n) = n} :
    (t.insert make given).Unique key ↔
      t.Unique key ∧ ∀ r ∈ t.rows, key r ≠ key (make t.nextId) := by
  simp only [Unique, insert, List.map_append, List.map_singleton, List.nodup_append,
    List.nodup_singleton, true_and, List.mem_singleton, List.forall_mem_map, forall_eq]

end Unique

end Table

namespace Table
section Numbered
variable {ρ : Type u} {α : Type*}

/-- The rows that insertions one after another create, from a key on. -/
def numbered (make : α → Nat → ρ) (start : Nat) (l : List α) : List ρ :=
  (l.zipIdx start).map fun made => make made.1 made.2

@[simp] theorem numbered_nil (make : α → Nat → ρ) (start : Nat) : numbered make start [] = [] := rfl

@[simp] theorem numbered_cons (make : α → Nat → ρ) (start : Nat) (a : α) (l : List α) :
    numbered make start (a :: l) = make a start :: numbered make (start + 1) l := rfl

/-- A column that does not depend on the key. -/
theorem map_numbered {β : Type*} {make : α → Nat → ρ} {f : ρ → β} {g : α → β}
    (same : ∀ a n, f (make a n) = g a) (start : Nat) (l : List α) :
    (numbered make start l).map f = l.map g := by
  induction l generalizing start with
  | nil => rfl
  | cons a l ih => rw [numbered_cons, List.map_cons, List.map_cons, same, ih]

theorem mem_numbered {make : α → Nat → ρ} {start : Nat} {l : List α} {r : ρ}
    (h : r ∈ numbered make start l) : ∃ a ∈ l, ∃ n, start ≤ n ∧ r = make a n := by
  obtain ⟨⟨a, n⟩, mem, rfl⟩ := List.mem_map.mp h
  have bounds := List.mem_zipIdx mem
  exact ⟨a, by simpa using bounds.2.2 ▸ List.getElem_mem _, n, bounds.1, rfl⟩

end Numbered

end Table
