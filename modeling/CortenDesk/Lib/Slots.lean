/-!
Lists that grow at their end, and whose elements are found and changed by their place.
-/
namespace Slots
universe u
variable {α : Type u} {slots : List α} {f : α → α} {i j : Nat} {a b : α}

/-- What is found after a change was there before it. -/
theorem found_modify (found : (slots.modify i f)[j]? = some a) :
    ∃ was, slots[j]? = some was ∧ a = if i = j then f was else was := by
  rw [List.getElem?_modify] at found
  obtain ⟨was, here, rfl⟩ := Option.map_eq_some_iff.mp found
  exact ⟨was, here, rfl⟩

theorem modify_found (found : slots[i]? = some a) : (slots.modify i f)[i]? = some (f a) := by
  simp [found]

theorem modify_other (other : i ≠ j) : (slots.modify i f)[j]? = slots[j]? := by
  simp [other]

/-- What is found after one more was added was there before it, or is the one added. -/
theorem found_concat (found : (slots ++ [b])[i]? = some a) :
    slots[i]? = some a ∨ i = slots.length ∧ a = b := by
  rcases Nat.lt_trichotomy i slots.length with before | rfl | after
  · rw [List.getElem?_append_left before] at found
    exact .inl found
  · simp only [List.getElem?_concat_length, Option.some.injEq] at found
    exact .inr ⟨rfl, found.symm⟩
  · rw [List.getElem?_eq_none (by simp; omega)] at found
    cases found

theorem found_lt (found : slots[i]? = some a) : i < slots.length :=
  (List.getElem?_eq_some_iff.mp found).1

/-- What was found is found after one more was added. -/
theorem concat_found (found : slots[i]? = some a) : (slots ++ [b])[i]? = some a := by
  rw [List.getElem?_append_left (found_lt found), found]

/-- The change of the one that was added last. -/
theorem modify_last : (slots ++ [a]).modify ((slots ++ [a]).length - 1) f = slots ++ [f a] := by
  refine List.ext_getElem? fun i => ?_
  rw [List.length_append, List.length_singleton, Nat.add_sub_cancel, List.getElem?_modify]
  rcases Nat.lt_trichotomy i slots.length with before | rfl | after
  · rw [List.getElem?_append_left before, List.getElem?_append_left before]
    simp [Nat.ne_of_gt before]
  · simp
  · rw [List.getElem?_eq_none (by simp; omega), List.getElem?_eq_none (by simp; omega)]
    rfl

end Slots
