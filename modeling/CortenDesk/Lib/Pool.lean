/-!
Resources that a program obtains one after another and must give back. A resource is named by
its place in the order in which they came, and once closed it stays closed.
-/
universe u

/-- A resource of a kind, and whether it has been closed. -/
structure Resource (κ : Type u) where
  kind : κ
  closed : Bool := false

structure Pool (κ : Type u) where
  resources : List (Resource κ) := []

namespace Pool
variable {κ : Type u} {p : Pool κ} {i j : Nat} {kind kind' : κ}

/-- The name of the next resource. -/
def next (p : Pool κ) : Nat := p.resources.length

def obtain (p : Pool κ) (kind : κ) : Pool κ := ⟨p.resources ++ [⟨kind, false⟩]⟩

def close (p : Pool κ) (i : Nat) : Pool κ := ⟨p.resources.modify i fun r => { r with closed := true }⟩

/-- Closes what is held, if anything is. -/
def release (p : Pool κ) (held : Option Nat) : Pool κ := held.elim p p.close

def obtainMany (p : Pool κ) (kind : κ) : Nat → Pool κ
  | 0 => p
  | n + 1 => (p.obtainMany kind n).obtain kind

def closeAll (p : Pool κ) (held : List Nat) : Pool κ := held.foldl close p

/-- The kind of a resource that is open. -/
def opened? (p : Pool κ) (i : Nat) : Option κ :=
  match p.resources[i]? with
  | some ⟨kind, false⟩ => some kind
  | _ => none

/-- Every resource that was obtained has been closed. -/
def Drained (p : Pool κ) : Prop := ∀ r ∈ p.resources, r.closed = true

instance Drained.decidable : Decidable p.Drained :=
  inferInstanceAs (Decidable (∀ r ∈ p.resources, r.closed = true))

theorem opened?_eq_some_iff : p.opened? i = some kind ↔ p.resources[i]? = some ⟨kind, false⟩ := by
  unfold opened?
  split
  · next found =>
    rw [found]
    simp
  · next none => exact iff_of_false (by simp) (none kind)

theorem drained_iff : p.Drained ↔ ∀ i, p.opened? i = none := by
  constructor
  · intro drained i
    cases opened : p.opened? i with
    | none => rfl
    | some kind =>
        have found := opened?_eq_some_iff.mp opened
        exact absurd (drained _ (List.mem_of_getElem? found)) Bool.false_ne_true
  · rintro none ⟨kind, closed⟩ mem
    obtain ⟨i, found⟩ := List.mem_iff_getElem?.mp mem
    cases closed with
    | true => rfl
    | false =>
        have opened := opened?_eq_some_iff.mpr found
        rw [none i] at opened
        cases opened

@[simp] theorem opened?_obtain : (p.obtain kind).opened? i = some kind' ↔
    p.opened? i = some kind' ∨ (i = p.next ∧ kind' = kind) := by
  rw [opened?_eq_some_iff, opened?_eq_some_iff]
  simp only [obtain, next]
  rcases Nat.lt_trichotomy i p.resources.length with before | rfl | after
  · rw [List.getElem?_append_left before]
    exact (or_iff_left fun last => absurd last.1 (Nat.ne_of_lt before)).symm
  · simp [eq_comm]
  · rw [List.getElem?_eq_none (by simp; omega), List.getElem?_eq_none (by omega)]
    simp
    omega

@[simp] theorem opened?_close : (p.close i).opened? j = some kind ↔
    p.opened? j = some kind ∧ j ≠ i := by
  rw [opened?_eq_some_iff, opened?_eq_some_iff]
  simp only [close, List.getElem?_modify]
  by_cases same : i = j
  · subst same
    cases p.resources[i]? <;> simp
  · simp [same, Ne.symm same]

@[simp] theorem opened?_release {held : Option Nat} : (p.release held).opened? j = some kind ↔
    p.opened? j = some kind ∧ held ≠ some j := by
  cases held with
  | none => simp [release]
  | some i =>
      rw [release, Option.elim_some, opened?_close, ne_comm, ne_eq, ne_eq, Option.some.injEq]

@[simp] theorem next_close : (p.close i).next = p.next := List.length_modify ..

@[simp] theorem next_release {held : Option Nat} : (p.release held).next = p.next := by
  cases held with
  | none => rfl
  | some i => exact next_close

@[simp] theorem next_closeAll {held : List Nat} : (p.closeAll held).next = p.next := by
  induction held generalizing p with
  | nil => rfl
  | cons i held ih => exact ih.trans next_close

@[simp] theorem next_obtainMany (n : Nat) : (p.obtainMany kind n).next = p.next + n := by
  induction n with
  | zero => rfl
  | succ n ih =>
      rw [obtainMany, obtain, next, List.length_append, List.length_singleton]
      exact congrArg (· + 1) ih

@[simp] theorem opened?_obtainMany {n : Nat} : (p.obtainMany kind n).opened? i = some kind' ↔
    p.opened? i = some kind' ∨ ((p.next ≤ i ∧ i < p.next + n) ∧ kind' = kind) := by
  induction n with
  | zero =>
      rw [obtainMany]
      refine (or_iff_left ?_).symm
      rintro ⟨⟨low, high⟩, -⟩
      omega
  | succ n ih =>
      rw [obtainMany, opened?_obtain, ih, next_obtainMany, or_assoc, ← or_and_right]
      refine or_congr_right (and_congr_left fun _ => ?_)
      omega

@[simp] theorem opened?_closeAll {held : List Nat} : (p.closeAll held).opened? j = some kind ↔
    p.opened? j = some kind ∧ j ∉ held := by
  induction held generalizing p with
  | nil => simp [closeAll]
  | cons i held ih =>
      rw [closeAll, List.foldl_cons, ← closeAll, ih, opened?_close, and_assoc, List.mem_cons, not_or]

end Pool
