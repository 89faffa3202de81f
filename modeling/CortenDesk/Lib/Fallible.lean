import Mathlib.Data.List.Forall2
import Mathlib.Data.Option.Basic

/-! What a computation that may fail has gone through when it succeeds. -/
namespace Except
universe u
variable {ε ε' : Type*} {α β : Type u}

theorem bind_eq_ok {x : Except ε α} {f : α → Except ε β} {b : β} :
    (x >>= f) = .ok b ↔ ∃ a, x = .ok a ∧ f a = .ok b := by
  cases x with
  | error e =>
      refine ⟨fun failed => ?_, fun ⟨a, went, _⟩ => ?_⟩
      · cases failed
      · cases went
  | ok a =>
      refine ⟨fun ran => ⟨a, rfl, ran⟩, fun ⟨a', went, ran⟩ => ?_⟩
      obtain rfl := Except.ok.inj went
      exact ran

theorem bind_eq_error {x : Except ε α} {f : α → Except ε β} {e : ε} :
    (x >>= f) = .error e ↔ x = .error e ∨ ∃ a, x = .ok a ∧ f a = .error e := by
  cases x with
  | error d =>
      refine ⟨fun failed => .inl (congrArg error (Except.error.inj failed)), fun failed => ?_⟩
      obtain failed | ⟨a, went, _⟩ := failed
      · exact congrArg error (Except.error.inj failed)
      · cases went
  | ok a =>
      refine ⟨fun failed => .inr ⟨a, rfl, failed⟩, fun failed => ?_⟩
      obtain failed | ⟨a', went, failed⟩ := failed
      · cases failed
      · obtain rfl := Except.ok.inj went
        exact failed

theorem map_eq_ok {x : Except ε α} {f : α → β} {b : β} : x.map f = .ok b ↔ ∃ a, x = .ok a ∧ f a = b := by
  cases x with
  | error e =>
      refine ⟨fun failed => ?_, fun ⟨a, went, _⟩ => ?_⟩
      · cases failed
      · cases went
  | ok a =>
      refine ⟨fun ran => ⟨a, rfl, Except.ok.inj ran⟩, fun ⟨a', went, same⟩ => ?_⟩
      rw [← same, Except.ok.inj went]
      rfl

theorem mapError_eq_ok {x : Except ε α} {f : ε → ε'} {a : α} :
    x.mapError f = .ok a ↔ x = .ok a := by
  cases x with
  | error e => exact iff_of_false (fun failed => by cases failed) fun failed => by cases failed
  | ok b => exact ⟨fun went => by cases went; rfl, fun went => by cases went; rfl⟩

theorem ite_eq_ok {p : Prop} [Decidable p] {a b : α} {e : ε} :
    (if p then .ok a else .error e : Except ε α) = .ok b ↔ p ∧ a = b := by
  split
  · next holds => exact ⟨fun went => ⟨holds, Except.ok.inj went⟩, fun both => congrArg ok both.2⟩
  · next fails => exact iff_of_false (fun failed => by cases failed) fun both => fails both.1

/-- A list is gone through when every element is. -/
theorem mapM_eq_ok {f : α → Except ε β} {l : List α} {l' : List β} :
    l.mapM f = .ok l' ↔ List.Forall₂ (fun a b => f a = .ok b) l l' := by
  induction l generalizing l' with
  | nil =>
      rw [List.mapM_nil, List.forall₂_nil_left_iff]
      exact ⟨fun ran => (Except.ok.inj ran).symm, fun none => congrArg Except.ok none.symm⟩
  | cons a rest ih =>
      rw [List.mapM_cons, bind_eq_ok, List.forall₂_cons_left_iff]
      constructor
      · intro ran
        obtain ⟨b, first, ran⟩ := ran
        obtain ⟨more, others, ran⟩ := bind_eq_ok.mp ran
        exact ⟨b, more, first, ih.mp others, (Except.ok.inj ran).symm⟩
      · intro each
        obtain ⟨b, more, first, others, whole⟩ := each
        exact ⟨b, first, bind_eq_ok.mpr ⟨more, ih.mpr others, congrArg Except.ok whole.symm⟩⟩

/-- Every result belongs to an element. -/
theorem mem_of_mapM_eq_ok {f : α → Except ε β} {l : List α} {l' : List β}
    (ran : l.mapM f = .ok l') {b : β} (mem : b ∈ l') : ∃ a ∈ l, f a = .ok b := by
  have each := mapM_eq_ok.mp ran
  clear ran
  induction each with
  | nil => cases mem
  | cons first _ ih =>
      cases mem with
      | head => exact ⟨_, List.mem_cons_self, first⟩
      | tail _ mem =>
          obtain ⟨a, later, ok⟩ := ih mem
          exact ⟨a, List.mem_cons_of_mem _ later, ok⟩

end Except
