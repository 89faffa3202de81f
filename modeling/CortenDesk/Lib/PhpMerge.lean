import CortenDesk.Lib.PhpValue
import Mathlib.Algebra.Group.Int.Defs

/-!
`array_merge` of two arrays: the values under integer keys are numbered anew, the one of a
string key is the last. The values are of any type, so they may carry where they come from.
-/
namespace Php
universe u v
variable {α : Type u} {β : Type v}

/-- An entry of a merged array, with the next number. -/
def mergeEntry (state : Arr Key α × Nat) (e : Key × α) : Arr Key α × Nat :=
  match e.1 with
  | .int _ => (state.1.set (.int state.2) e.2, state.2 + 1)
  | .str s => (state.1.set (.str s) e.2, state.2)

def arrayMerge (a b : Arr Key α) : Arr Key α :=
  ((a.entries ++ b.entries).foldl mergeEntry (∅, 0)).1

/-- The values under integer keys. -/
def numbered (l : List (Key × α)) : List α :=
  l.filterMap fun e => match e.1 with
    | .int _ => some e.2
    | .str _ => none

theorem get?_mergeEntry_str (state : Arr Key α × Nat) (e : Key × α) (s : String) :
    (mergeEntry state e).1.get? (.str s) =
      if e.1 = .str s then some e.2 else state.1.get? (.str s) := by
  obtain ⟨key, v⟩ := e
  cases key with
  | int i =>
      rw [mergeEntry, OrderedMap.get?_set]
      rfl
  | str t =>
      rw [mergeEntry, OrderedMap.get?_set]
      exact if_congr eq_comm rfl rfl

theorem get?_foldl_str (l : List (Key × α)) (distinct : (l.map Prod.fst).Nodup)
    (state : Arr Key α × Nat) (s : String) :
    (l.foldl mergeEntry state).1.get? (.str s) =
      (l.lookup (.str s)).or (state.1.get? (.str s)) := by
  induction l generalizing state with
  | nil => rfl
  | cons e l ih =>
      rw [List.map_cons, List.nodup_cons] at distinct
      rw [List.foldl_cons, ih distinct.2, get?_mergeEntry_str, List.lookup_cons]
      by_cases same : e.1 = .str s
      · have later : l.lookup (.str s) = none := by
          refine List.lookup_eq_none_iff.mpr fun d mem => ?_
          have apart : Key.str s ≠ d.1 := by
            intro again
            rw [same, again] at distinct
            exact distinct.1 (List.mem_map_of_mem mem)
          exact bne_iff_ne.mpr apart
        rw [if_pos same, later, same, beq_self_eq_true]
        rfl
      · rw [if_neg same, beq_false_of_ne (Ne.symm same)]

/-- The value of a string key is that of the last array that has it. -/
theorem get?_arrayMerge_str (a b : Arr Key α) (s : String) :
    (arrayMerge a b).get? (.str s) = (b.get? (.str s)).or (a.get? (.str s)) := by
  rw [arrayMerge, List.foldl_append, get?_foldl_str b.entries b.nodup,
    get?_foldl_str a.entries a.nodup, OrderedMap.get?_empty, Option.or_none]
  rfl

theorem get?_foldl_int (l : List (Key × α)) (state : Arr Key α × Nat)
    (free : ∀ i : Int, state.2 ≤ i → state.1.get? (.int i) = none) (i : Int) :
    (l.foldl mergeEntry state).1.get? (.int i) =
      if i < state.2 then state.1.get? (.int i) else (numbered l)[(i - state.2).toNat]? := by
  induction l generalizing state with
  | nil =>
      split
      · rfl
      · next above => exact free i (Int.not_lt.mp above)
  | cons e l ih =>
      obtain ⟨key, v⟩ := e
      rw [List.foldl_cons]
      cases key with
      | str s =>
          have same (j : Int) : (mergeEntry state (.str s, v)).1.get? (.int j) =
              state.1.get? (.int j) := by
            rw [mergeEntry, OrderedMap.get?_set]
            rfl
          rw [ih _ fun j above => (same j).trans (free j above), same]
          rfl
      | int n =>
          have set (j : Int) : (mergeEntry state (.int n, v)).1.get? (.int j) =
              if j = state.2 then some v else state.1.get? (.int j) := by
            rw [mergeEntry, OrderedMap.get?_set]
            exact if_congr ⟨Key.int.inj, congrArg Key.int⟩ rfl rfl
          have next : (mergeEntry state (.int n, v)).2 = state.2 + 1 := rfl
          have listed : numbered ((Key.int n, v) :: l) = v :: numbered l := rfl
          rw [ih, set, next, listed]
          · obtain below | here | above := Int.lt_trichotomy i state.2
            · rw [if_pos (by omega), if_neg (by omega), if_pos below]
            · rw [if_pos (by omega), if_pos here, if_neg (by omega), here, Int.sub_self]
              rfl
            · rw [if_neg (by omega), if_neg (by omega)]
              have offset : (i - state.2).toNat = (i - ((state.2 + 1 : Nat) : Int)).toNat + 1 := by
                omega
              rw [offset, List.getElem?_cons_succ]
          · intro j above
            rw [next] at above
            rw [set, if_neg (by omega)]
            exact free j (by omega)

/-- The values under integer keys come in their order, those of the first array first. -/
theorem get?_arrayMerge_int (a b : Arr Key α) (i : Int) :
    (arrayMerge a b).get? (.int i) =
      if i < 0 then none else (numbered a.entries ++ numbered b.entries)[i.toNat]? := by
  rw [arrayMerge, get?_foldl_int _ _ fun _ _ => OrderedMap.get?_empty _, OrderedMap.get?_empty, numbered,
    List.filterMap_append]
  rw [Int.natCast_zero, Int.sub_zero]
  rfl

/-- Merging does not look at the values. -/
theorem map_arrayMerge (f : α → β) (a b : Arr Key α) :
    (arrayMerge a b).map f = arrayMerge (a.map f) (b.map f) := by
  have merged : ∀ (l : List (Key × α)) (state : Arr Key α × Nat),
      (l.foldl mergeEntry state).1.map f =
        ((l.map fun e => (e.1, f e.2)).foldl mergeEntry (state.1.map f, state.2)).1 := by
    intro l
    induction l with
    | nil => exact fun _ => rfl
    | cons e l ih =>
        intro state
        obtain ⟨key, v⟩ := e
        rw [List.map_cons, List.foldl_cons, List.foldl_cons, ih]
        cases key with
        | int n => rw [mergeEntry, OrderedMap.map_set]; rfl
        | str s => rw [mergeEntry, OrderedMap.map_set]; rfl
  rw [arrayMerge, merged, List.map_append]
  rfl

end Php
