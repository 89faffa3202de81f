import Mathlib.Data.List.Induction

/-!
Logs in which entries open something that later entries close: what is open at the end of a log,
and what one more entry makes of it.
-/
namespace Pending
universe u
variable {α : Type u} {opens closes : α → Prop}

/-- Some entry opens, and none after it closes. -/
def Open (opens closes : α → Prop) (log : List α) : Prop :=
  ∃ before a after, log = before ++ a :: after ∧ opens a ∧ ∀ b ∈ after, ¬ closes b

theorem not_open_nil : ¬ Open opens closes [] := by
  intro pending
  obtain ⟨before, a, later, split, -⟩ := pending
  exact List.cons_ne_nil _ _ (List.append_eq_nil_iff.mp split.symm).2

/-- What is open behind one more entry was opened by it, or was open and is not closed by it. -/
theorem open_concat {log : List α} {a : α} (pending : Open opens closes (log ++ [a])) :
    opens a ∨ (Open opens closes log ∧ ¬ closes a) := by
  obtain ⟨before, b, later, split, opened, unclosed⟩ := pending
  cases later using List.reverseRecOn with
  | nil =>
      obtain ⟨-, same⟩ := List.append_inj' split rfl
      obtain rfl := (List.cons.inj same).1
      exact .inl opened
  | append_singleton later last =>
      rw [← List.cons_append, ← List.append_assoc] at split
      obtain ⟨earlier, same⟩ := List.append_inj' split rfl
      obtain rfl := (List.cons.inj same).1
      exact .inr ⟨⟨before, b, later, earlier, opened,
          fun entry mem => unclosed entry (List.mem_append_left _ mem)⟩,
        unclosed a (List.mem_append_right _ (List.mem_singleton_self a))⟩

end Pending
