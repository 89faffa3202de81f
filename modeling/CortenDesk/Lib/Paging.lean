import Mathlib.Data.List.Basic

/-!
Listings that are read page by page. A query returns rows in an order that ascends; rows that
rank the same may come either way, and the other way in the next query.
-/
universe u v

/-- How a query arranges rows: `ORDER BY`. -/
structure Arrangement {α : Type u} (le : α → α → Bool) where
  sort : List α → List α
  perm (rows : List α) : (sort rows).Perm rows
  ascends (rows : List α) : (sort rows).Pairwise fun a b => le a b = true

namespace Paging
variable {α : Type u} {κ : Type v}

/-- `LIMIT size OFFSET offset`. -/
def window (offset size : Nat) (rows : List α) : List α := (rows.drop offset).take size

theorem mem_of_mem_window {offset size : Nat} {rows : List α} {row : α}
    (shown : row ∈ window offset size rows) : row ∈ rows :=
  List.mem_of_mem_drop (List.mem_of_mem_take shown)

/-- The windows of one size, one behind the other. -/
theorem windows_flatten (size n : Nat) (rows : List α) :
    ((List.range n).flatMap fun k => window (k * size) size rows) = rows.take (n * size) := by
  induction n with
  | zero => rw [Nat.zero_mul]; rfl
  | succ n ih =>
      rw [List.range_succ, List.flatMap_append, ih, List.flatMap_singleton, window, Nat.succ_mul,
        List.take_add]

end Paging

namespace Arrangement
variable {α : Type u} {κ : Type v} {rank : κ → κ → Bool} {key : α → κ}

theorem mem {le : α → α → Bool} (a : Arrangement le) {rows : List α} {row : α} :
    row ∈ a.sort rows ↔ row ∈ rows := (a.perm rows).mem_iff

theorem length {le : α → α → Bool} (a : Arrangement le) (rows : List α) :
    (a.sort rows).length = rows.length := (a.perm rows).length_eq

/-- The keys come in one order, when different keys differ in rank. -/
theorem keys_eq (a b : Arrangement fun x y => rank (key x) (key y)) {rows rows' : List α}
    (same : rows.Perm rows') (apart : ∀ x ∈ rows, ∀ y ∈ rows, rank (key x) (key y) = true →
      rank (key y) (key x) = true → key x = key y) :
    (a.sort rows).map key = (b.sort rows').map key := by
  refine @List.Perm.eq_of_pairwise _ (fun x y => rank x y = true) _ _ ?_
    (List.pairwise_map.mpr (a.ascends rows)) (List.pairwise_map.mpr (b.ascends rows')) ?_
  · intro first second here there
    obtain ⟨x, listed, rfl⟩ := List.mem_map.mp here
    obtain ⟨y, listed', rfl⟩ := List.mem_map.mp there
    exact apart x (a.mem.mp listed) y (same.mem_iff.mpr (b.mem.mp listed'))
  · exact ((a.perm rows).trans (same.trans (b.perm rows').symm)).map key

/-- The rows come in one order, however they are stored, when different rows differ in rank. -/
theorem sort_eq {le : α → α → Bool} (a b : Arrangement le) {rows rows' : List α}
    (same : rows.Perm rows') (apart : ∀ x ∈ rows, ∀ y ∈ rows, le x y = true → le y x = true → x = y) :
    a.sort rows = b.sort rows' := by
  refine List.Perm.eq_of_pairwise ?_ (a.ascends rows) (b.ascends rows')
    ((a.perm rows).trans (same.trans (b.perm rows').symm))
  intro x y here there
  exact apart x (a.mem.mp here) y (same.mem_iff.mpr (b.mem.mp there))

/-- A sorting algorithm arranges. -/
def ofMergeSort (le : α → α → Bool) (trans : ∀ a b c, le a b = true → le b c = true → le a c = true)
    (total : ∀ a b, (le a b || le b a) = true) : Arrangement le where
  sort rows := rows.mergeSort le
  perm rows := List.mergeSort_perm rows le
  ascends := List.pairwise_mergeSort trans total

end Arrangement

namespace Paging
variable {α : Type u} {κ : Type v} {le : α → α → Bool}

/-- The pages of one size hold the keys in their order, however each query arranges its ties. -/
theorem walk (arrange : Nat → Arrangement le) (key : α → κ) {rows : List α} {size n : Nat}
    (same : ∀ k, ((arrange k).sort rows).map key = ((arrange 0).sort rows).map key)
    (enough : rows.length ≤ n * size) :
    ((List.range n).flatMap fun k => (window (k * size) size ((arrange k).sort rows)).map key) =
      ((arrange 0).sort rows).map key := by
  have page (k : Nat) : (window (k * size) size ((arrange k).sort rows)).map key =
      window (k * size) size (((arrange 0).sort rows).map key) := by
    rw [window, List.map_take, List.map_drop, same, window]
  simp only [page]
  rw [windows_flatten, List.take_of_length_le]
  rw [List.length_map, Arrangement.length]
  exact enough

end Paging

/-!
`ORDER BY` with several terms: the first that tells two rows apart decides.
-/
namespace OrderBy
open Std
variable {α : Type u}

abbrev Term (α : Type u) := α → α → Ordering

def directed (ascending : Bool) (term : Term α) : Term α :=
  if ascending then term else fun a b => term b a

def terms (list : List (Term α)) : Term α := list.foldr compareLex fun _ _ => .eq

/-- The rows of an order. -/
def le (term : Term α) (a b : α) : Bool := (term a b).isLE

instance trans_directed (ascending : Bool) (term : Term α) [TransCmp term] :
    TransCmp (directed ascending term) := by
  cases ascending with
  | true => exact inferInstanceAs (TransCmp term)
  | false => exact inferInstanceAs (TransCmp fun a b => term b a)

theorem trans_terms {list : List (Term α)} (each : ∀ term ∈ list, TransCmp term) :
    TransCmp (terms list) := by
  induction list with
  | nil => exact { eq_swap := rfl, isLE_trans := fun _ _ => rfl }
  | cons term list ih =>
      have first : TransCmp term := each term List.mem_cons_self
      have rest : TransCmp (terms list) :=
        ih fun term listed => each term (List.mem_cons_of_mem _ listed)
      exact inferInstanceAs (TransCmp (compareLex term (terms list)))

theorem terms_eq_eq {list : List (Term α)} {a b : α} :
    terms list a b = .eq ↔ ∀ term ∈ list, term a b = .eq := by
  induction list with
  | nil => simp [terms]
  | cons term list ih =>
      rw [List.forall_mem_cons, ← ih]
      exact Ordering.then_eq_eq

/-- Two rows of one rank do not differ in any term. -/
theorem tied {term : Term α} [TransCmp term] {a b : α} (here : le term a b = true)
    (there : le term b a = true) : term a b = .eq := by
  rw [le, @OrientedCmp.eq_swap _ term _ b a] at there
  rw [le] at here
  revert here there
  cases term a b <;> decide

theorem le_head {term : Term α} {list : List (Term α)} {a b : α}
    (ranked : le (terms (term :: list)) a b = true) : le term a b = true := by
  rw [le, terms, List.foldr_cons, compareLex, Ordering.isLE_then_iff_and] at ranked
  exact ranked.1

/-- What an order puts last is last. -/
theorem split_of_flag {flag : α → Bool} {list : List (Term α)} {order : List α}
    (ascends : order.Pairwise fun a b => le (terms (compareOn flag :: list)) a b = true) :
    order = order.filter (fun a => ! flag a) ++ order.filter flag := by
  induction order with
  | nil => rfl
  | cons a order ih =>
      obtain ⟨above, ascends⟩ := List.pairwise_cons.mp ascends
      cases here : flag a with
      | false =>
          rw [List.filter_cons_of_pos (by rw [here]; rfl), List.filter_cons_of_neg (by simp [here]),
            List.cons_append, ← ih ascends]
      | true =>
          have rest : ∀ b ∈ order, flag b = true := by
            intro b listed
            have ranked := le_head (above b listed)
            rw [le, compareOn, here] at ranked
            revert ranked
            cases flag b <;> decide
          rw [List.filter_eq_nil_iff.mpr, List.nil_append, List.filter_eq_self.mpr]
          · intro b listed
            rcases List.mem_cons.mp listed with rfl | later
            · exact here
            · exact rest b later
          · intro b listed
            rcases List.mem_cons.mp listed with rfl | later
            · simp [here]
            · simp [rest b later]

end OrderBy

/-- A sorting algorithm arranges. -/
def Arrangement.ofTerm {α : Type u} (term : OrderBy.Term α) [Std.TransCmp term] :
    Arrangement (OrderBy.le term) where
  sort rows := rows.mergeSort (OrderBy.le term)
  perm rows := List.mergeSort_perm rows _
  ascends := List.pairwise_mergeSort (fun _ _ _ => Std.TransCmp.isLE_trans)
    fun a b => by
      rw [OrderBy.le, OrderBy.le, @Std.OrientedCmp.eq_swap _ term _ b a]
      cases term a b <;> decide
