import Mathlib.Data.List.Basic

/-!
The replacement of every match of a pattern, from left to right, in a text of any letters. A
pattern is told the letter before the place where it is tried and what follows; a match takes
the letter there and a number of further ones, which are not looked at again. The rules are those
of cutting a text in two, of a stretch that a match hides, and of texts that a replacement
leaves alone.
-/
namespace Replace
universe u

/-- How many letters beside the first a match takes, and what they are replaced by. -/
abbrev Pattern (α : Type u) := Option α → List α → Option (Nat × List α)

variable {α : Type u} (P : Pattern α)

/-- What is emitted from a place on, the first letters being part of a match. -/
def scan : Nat → Option α → List α → List α
  | _, _, [] => []
  | skip + 1, _, c :: l => scan skip (some c) l
  | 0, prev, c :: l =>
      match P prev (c :: l) with
      | some (n, r) => r ++ scan n (some c) l
      | none => c :: scan 0 (some c) l

/-- `preg_replace`. -/
def replace (l : List α) : List α := scan P 0 none l

/-- How much of what follows the first text is part of a match that begins in it. -/
def pending : Nat → Option α → List α → List α → Nat
  | skip, _, [], _ => skip
  | skip + 1, _, c :: l, rest => pending skip (some c) l rest
  | 0, prev, c :: l, rest =>
      match P prev (c :: (l ++ rest)) with
      | some (n, _) => pending n (some c) l rest
      | none => pending 0 (some c) l rest

/-- What is emitted for the first text. -/
def emitted : Nat → Option α → List α → List α → List α
  | _, _, [], _ => []
  | skip + 1, _, c :: l, rest => emitted skip (some c) l rest
  | 0, prev, c :: l, rest =>
      match P prev (c :: (l ++ rest)) with
      | some (n, r) => r ++ emitted n (some c) l rest
      | none => c :: emitted 0 (some c) l rest

/-- The replacements of several patterns, one after another. -/
def replaceAll (Ps : List (Pattern α)) (l : List α) : List α :=
  Ps.foldl (fun l P => replace P l) l

/-- The letter before what follows a text. -/
def last : Option α → List α → Option α
  | prev, [] => prev
  | _, c :: l => last (some c) l

section Cut
variable {P} {skip : Nat} {prev : Option α} {l rest : List α}

theorem scan_append (l rest : List α) (skip : Nat) (prev : Option α) :
    scan P skip prev (l ++ rest) = emitted P skip prev l rest ++
      scan P (pending P skip prev l rest) (last prev l) rest := by
  induction l generalizing skip prev with
  | nil => rfl
  | cons c l ih =>
      cases skip with
      | succ skip => exact ih skip (some c)
      | zero =>
          simp only [List.cons_append, scan, emitted, pending, last]
          cases found : P prev (c :: (l ++ rest)) with
          | none => exact congrArg (c :: ·) (ih 0 (some c))
          | some match_ =>
              dsimp only
              rw [ih, List.append_assoc]

theorem scan_nil (skip : Nat) (prev : Option α) : scan P skip prev [] = [] := by
  cases skip <;> rfl

theorem pending_of_none {c : α} (found : P prev (c :: (l ++ rest)) = none) :
    pending P 0 prev (c :: l) rest = pending P 0 (some c) l rest := by
  rw [pending, found]

theorem pending_of_some {c : α} {r : List α} {n : Nat}
    (found : P prev (c :: (l ++ rest)) = some (n, r)) :
    pending P 0 prev (c :: l) rest = pending P n (some c) l rest := by
  rw [pending, found]

/-- A text that is part of a match emits nothing. -/
theorem scan_append_of_le (l rest : List α) (skip : Nat) (prev : Option α)
    (inside : l.length ≤ skip) :
    scan P skip prev (l ++ rest) = scan P (skip - l.length) (last prev l) rest := by
  induction l generalizing skip prev with
  | nil => rfl
  | cons c l ih =>
      cases skip with
      | zero => exact absurd inside (Nat.not_succ_le_zero _)
      | succ skip =>
          rw [List.length_cons, Nat.add_sub_add_right]
          exact ih skip (some c) (Nat.le_of_succ_le_succ inside)

/-- A scan begins behind what it skips. -/
theorem scan_drop (l : List α) (skip : Nat) (prev : Option α) :
    scan P skip prev l = scan P 0 (last prev (l.take skip)) (l.drop skip) := by
  induction l generalizing skip prev with
  | nil => rw [scan_nil, List.drop_nil, scan_nil]
  | cons c l ih =>
      cases skip with
      | zero => rfl
      | succ skip => exact ih skip (some c)

/-- Up to the first match the result is the text. -/
theorem scan_cases (l : List α) (prev : Option α) : scan P 0 prev l = l ∨
    ∃ start c l' n r out, l = start ++ c :: l' ∧ P (last prev start) (c :: l') = some (n, r) ∧
      scan P 0 prev l = start ++ (r ++ out) := by
  induction l generalizing prev with
  | nil => exact .inl rfl
  | cons c l ih =>
      rw [scan]
      cases found : P prev (c :: l) with
      | none =>
          obtain same | ⟨start, d, l', n, r, out, text, match_, result⟩ := ih (some c)
          · exact .inl (congrArg (c :: ·) same)
          · exact .inr ⟨c :: start, d, l', n, r, out, congrArg (c :: ·) text, match_,
              congrArg (c :: ·) result⟩
      | some match_ =>
          exact .inr ⟨[], c, l, match_.1, match_.2, _, rfl, found, rfl⟩

/-- The letters of the result come from the text or from what is put in. -/
theorem mem_scan {d : α} (l : List α) (skip : Nat) (prev : Option α) (mem : d ∈ scan P skip prev l) :
    d ∈ l ∨ ∃ prev c l' n r, P prev (c :: l') = some (n, r) ∧ d ∈ r := by
  induction l generalizing skip prev with
  | nil =>
      rw [scan_nil] at mem
      cases mem
  | cons c l ih =>
      cases skip with
      | succ skip => exact (ih skip (some c) mem).imp_left (List.mem_cons_of_mem c)
      | zero =>
          rw [scan] at mem
          cases found : P prev (c :: l) with
          | none =>
              rw [found] at mem
              obtain rfl | mem := List.mem_cons.mp mem
              · exact .inl List.mem_cons_self
              · exact (ih 0 (some c) mem).imp_left (List.mem_cons_of_mem c)
          | some match_ =>
              rw [found] at mem
              obtain mem | mem := List.mem_append.mp mem
              · exact .inr ⟨prev, c, l, match_.1, match_.2, found, mem⟩
              · exact (ih match_.1 (some c) mem).imp_left (List.mem_cons_of_mem c)

theorem pending_append (a b rest : List α) (skip : Nat) (prev : Option α) :
    pending P skip prev (a ++ b) rest =
      pending P (pending P skip prev a (b ++ rest)) (last prev a) b rest := by
  induction a generalizing skip prev with
  | nil => rfl
  | cons c a ih =>
      cases skip with
      | succ skip => exact ih skip (some c)
      | zero =>
          simp only [List.cons_append, pending, last, List.append_assoc]
          cases P prev (c :: (a ++ (b ++ rest))) with
          | none => exact ih 0 (some c)
          | some match_ => exact ih match_.1 (some c)

theorem pending_of_le (l rest : List α) (skip : Nat) (prev : Option α) (inside : l.length ≤ skip) :
    pending P skip prev l rest = skip - l.length := by
  induction l generalizing skip prev with
  | nil => rfl
  | cons c l ih =>
      cases skip with
      | zero => exact absurd inside (Nat.not_succ_le_zero _)
      | succ skip =>
          rw [List.length_cons, Nat.add_sub_add_right]
          exact ih skip (some c) (Nat.le_of_succ_le_succ inside)

theorem emitted_of_le (l rest : List α) (skip : Nat) (prev : Option α) (inside : l.length ≤ skip) :
    emitted P skip prev l rest = [] := by
  induction l generalizing skip prev with
  | nil => cases skip <;> rfl
  | cons c l ih =>
      cases skip with
      | zero => exact absurd inside (Nat.not_succ_le_zero _)
      | succ skip => exact ih skip (some c) (Nat.le_of_succ_le_succ inside)

theorem last_append (prev : Option α) (a b : List α) : last prev (a ++ b) = last (last prev a) b := by
  induction a generalizing prev with
  | nil => rfl
  | cons c a ih => exact ih (some c)

end Cut

/-- At such a letter the pattern does not look back, and a match leaves the letter there. -/
structure Steady (P : Pattern α) (c : α) : Prop where
  blind : ∀ prev prev' l, P prev (c :: l) = P prev' (c :: l)
  keeps : ∀ prev l n r, P prev (c :: l) = some (n, r) → r.head? = some c

/-- At the places of the first text where a match is looked for, the same is found whichever of two
texts follows, up to where that text begins. -/
def Alike : Nat → Option α → List α → List α → List α → Prop
  | _, _, [], _, _ => True
  | skip + 1, _, c :: l, rest, rest' => Alike skip (some c) l rest rest'
  | 0, prev, c :: l, rest, rest' =>
      (P prev (c :: (l ++ rest))).map (fun found => (min found.1 l.length, found.2)) =
          (P prev (c :: (l ++ rest'))).map (fun found => (min found.1 l.length, found.2)) ∧
        Alike (((P prev (c :: (l ++ rest))).map Prod.fst).getD 0) (some c) l rest rest'

/-- In both texts one match that begins before the stretch reaches its end, and takes as much of
what follows. -/
def Covered (P : Pattern α) (a s s' b : List α) : Prop :=
  s.length ≤ pending P 0 none a (s ++ b) ∧ s'.length ≤ pending P 0 none a (s' ++ b) ∧
    pending P 0 none a (s ++ b) - s.length = pending P 0 none a (s' ++ b) - s'.length

/-- No match runs across an end of the stretch. -/
def Apart (P : Pattern α) (a s b : List α) : Prop :=
  pending P 0 none a (s ++ b) = 0 ∧ pending P 0 (last none a) s b = 0

/-- The patterns find the same before the stretch in both texts, and no match runs across its ends,
until one match hides it. -/
def Masked : List (Pattern α) → List α → List α → List α → List α → Prop
  | [], _, _, _, _ => False
  | P :: Ps, a, s, s', b =>
      Alike P 0 none a (s ++ b) (s' ++ b) ∧
        (Covered P a s s' b ∨
          (Apart P a s b ∧ Apart P a s' b ∧
            Masked Ps (emitted P 0 none a (s ++ b)) (emitted P 0 (last none a) s b)
              (emitted P 0 (last none a) s' b) (replace P b)))

instance Alike.decidable [DecidableEq α] : ∀ (skip : Nat) (prev : Option α) (l rest rest' : List α),
    Decidable (Alike P skip prev l rest rest')
  | _, _, [], _, _ => inferInstanceAs (Decidable True)
  | skip + 1, _, c :: l, rest, rest' => Alike.decidable skip (some c) l rest rest'
  | 0, prev, c :: l, rest, rest' =>
      haveI := Alike.decidable (((P prev (c :: (l ++ rest))).map Prod.fst).getD 0) (some c) l rest rest'
      inferInstanceAs (Decidable (_ ∧ _))

instance Masked.decidable [DecidableEq α] : ∀ (Ps : List (Pattern α)) (a s s' b : List α),
    Decidable (Masked Ps a s s' b)
  | [], _, _, _, _ => inferInstanceAs (Decidable False)
  | P :: Ps, a, s, s', b =>
      haveI : Decidable (Masked Ps (emitted P 0 none a (s ++ b)) (emitted P 0 (last none a) s b)
        (emitted P 0 (last none a) s' b) (replace P b)) := Masked.decidable Ps _ _ _ _
      haveI : Decidable (Covered P a s s' b) := inferInstanceAs (Decidable (_ ∧ _ ∧ _))
      haveI : Decidable (Apart P a s b) := inferInstanceAs (Decidable (_ ∧ _))
      haveI : Decidable (Apart P a s' b) := inferInstanceAs (Decidable (_ ∧ _))
      inferInstanceAs (Decidable (_ ∧ (_ ∨ (_ ∧ _ ∧ _))))

section Masked
variable {P : Pattern α}

/-- Two skips that agree up to the end of a text emit the same for it. -/
theorem emitted_min (l rest : List α) (skip : Nat) (prev : Option α) :
    emitted P (min skip l.length) prev l rest = emitted P skip prev l rest := by
  obtain inside | beyond := Nat.le_total skip l.length
  · rw [Nat.min_eq_left inside]
  · rw [Nat.min_eq_right beyond, emitted_of_le l rest _ prev (Nat.le_refl _),
      emitted_of_le l rest skip prev beyond]

theorem alike_of_none {prev : Option α} {c : α} {l rest rest' : List α}
    (found : P prev (c :: (l ++ rest)) = none) (found' : P prev (c :: (l ++ rest')) = none)
    (later : Alike P 0 (some c) l rest rest') : Alike P 0 prev (c :: l) rest rest' := by
  refine ⟨by rw [found, found'], ?_⟩
  rw [found]
  exact later

theorem alike_of_some {prev : Option α} {c : α} {l r rest rest' : List α} {n n' : Nat}
    (found : P prev (c :: (l ++ rest)) = some (n, r))
    (found' : P prev (c :: (l ++ rest')) = some (n', r)) (same : min n l.length = min n' l.length)
    (later : Alike P n (some c) l rest rest') : Alike P 0 prev (c :: l) rest rest' := by
  refine ⟨?_, ?_⟩
  · rw [found, found']
    exact congrArg some (Prod.ext same rfl)
  · rw [found]
    exact later

theorem alike_of_le (l rest rest' : List α) (skip : Nat) (prev : Option α) (inside : l.length ≤ skip) :
    Alike P skip prev l rest rest' := by
  induction l generalizing skip prev with
  | nil => cases skip <;> trivial
  | cons c l ih =>
      cases skip with
      | zero => exact absurd inside (Nat.not_succ_le_zero _)
      | succ skip => exact ih skip (some c) (Nat.le_of_succ_le_succ inside)

theorem emitted_of_alike (l rest rest' : List α) (skip : Nat) (prev : Option α)
    (alike : Alike P skip prev l rest rest') :
    emitted P skip prev l rest = emitted P skip prev l rest' := by
  induction l generalizing skip prev with
  | nil => cases skip <;> rfl
  | cons c l ih =>
      cases skip with
      | succ skip => exact ih skip (some c) alike
      | zero =>
          obtain ⟨same, later⟩ := alike
          have after := ih _ _ later
          rw [emitted, emitted]
          cases found : P prev (c :: (l ++ rest)) with
          | none =>
              rw [found] at same after
              have found' : P prev (c :: (l ++ rest')) = none := Option.map_eq_none_iff.mp same.symm
              rw [found']
              exact congrArg (c :: ·) after
          | some match_ =>
              rw [found] at same after
              obtain ⟨match_', found', equal⟩ := Option.map_eq_some_iff.mp same.symm
              obtain ⟨size, replaced⟩ := Prod.mk.inj equal
              rw [found']
              dsimp only [Option.map_some, Option.getD_some] at after ⊢
              rw [← replaced, after, ← emitted_min l rest' match_.1, ← size, emitted_min]

theorem scan_steady {b : List α} (steady : ∀ c ∈ b.head?, Steady P c) (skip : Nat)
    (prev prev' : Option α) : scan P skip prev b = scan P skip prev' b := by
  cases b with
  | nil => rfl
  | cons c l =>
      cases skip with
      | succ skip => rfl
      | zero => rw [scan, scan, (steady c rfl).blind prev prev']

theorem head?_scan {b : List α} (steady : ∀ c ∈ b.head?, Steady P c) (prev : Option α) :
    (scan P 0 prev b).head? = b.head? := by
  cases b with
  | nil => rfl
  | cons c l =>
      rw [scan]
      cases found : P prev (c :: l) with
      | none => rfl
      | some match_ =>
          dsimp only
          rw [List.head?_append, (steady c rfl).keeps prev l _ _ found]
          rfl

theorem replace_of_covered {a s b : List α} (steady : ∀ c ∈ b.head?, Steady P c)
    (covered : s.length ≤ pending P 0 none a (s ++ b)) : replace P (a ++ (s ++ b)) =
      emitted P 0 none a (s ++ b) ++ scan P (pending P 0 none a (s ++ b) - s.length) none b := by
  rw [replace, scan_append, scan_append_of_le s b _ _ covered, scan_steady steady]

theorem replace_of_apart {a s b : List α} (steady : ∀ c ∈ b.head?, Steady P c)
    (apart : Apart P a s b) : replace P (a ++ (s ++ b)) =
      emitted P 0 none a (s ++ b) ++ (emitted P 0 (last none a) s b ++ replace P b) := by
  rw [replace, scan_append, apart.1, scan_append, apart.2, scan_steady steady _ _ none]
  rfl

/-- A stretch that is masked does not show in the result. -/
theorem replaceAll_masked (Ps : List (Pattern α)) (a s s' b : List α)
    (steady : ∀ P ∈ Ps, ∀ c ∈ b.head?, Steady P c) (masked : Masked Ps a s s' b) :
    replaceAll Ps (a ++ (s ++ b)) = replaceAll Ps (a ++ (s' ++ b)) := by
  induction Ps generalizing a s s' b with
  | nil => exact masked.elim
  | cons P Ps ih =>
      have here := steady P List.mem_cons_self
      obtain ⟨alike, ⟨covers, covers', beyond⟩ | ⟨apart, apart', later⟩⟩ := masked
      · have before := emitted_of_alike a _ _ _ _ alike
        have same : replace P (a ++ (s ++ b)) = replace P (a ++ (s' ++ b)) := by
          rw [replace_of_covered here covers, replace_of_covered here covers', before, beyond]
        exact congrArg (replaceAll Ps) same
      · have before := emitted_of_alike a _ _ _ _ alike
        have next := ih _ _ _ (replace P b)
          (fun Q mem c head => steady Q (List.mem_cons_of_mem P mem) c
            (head?_scan here none ▸ head)) later
        rw [← replace_of_apart here apart, before, ← replace_of_apart here apart'] at next
        exact next

end Masked

/-- What stands before a text makes no difference to the pattern at its start. -/
def Blind (P : Pattern α) (prev prev' : Option α) (l : List α) : Prop :=
  ∀ c ∈ l.head?, ∀ l', P prev (c :: l') = P prev' (c :: l')

/-- The matches that a scan meets give back what they take. -/
def Clean : Nat → Option α → List α → Prop
  | _, _, [] => True
  | skip + 1, _, c :: l => Clean skip (some c) l
  | 0, prev, c :: l =>
      match P prev (c :: l) with
      | some (n, r) => r = c :: l.take n ∧ Clean n (some c) l
      | none => Clean 0 (some c) l

section Clean
variable {P : Pattern α}

theorem scan_of_clean (l : List α) (skip : Nat) (prev : Option α) (clean : Clean P skip prev l) :
    scan P skip prev l = l.drop skip := by
  induction l generalizing skip prev with
  | nil => exact List.drop_nil.symm
  | cons c l ih =>
      cases skip with
      | succ skip => exact ih skip (some c) clean
      | zero =>
          rw [scan]
          rw [Clean] at clean
          cases found : P prev (c :: l) with
          | none =>
              rw [found] at clean
              exact congrArg (c :: ·) (ih 0 (some c) clean)
          | some match_ =>
              rw [found] at clean
              dsimp only at clean ⊢
              rw [clean.1, ih _ _ clean.2, List.cons_append, List.take_append_drop]
              rfl

theorem replace_of_clean {l : List α} (clean : Clean P 0 none l) : replace P l = l :=
  scan_of_clean l 0 none clean

/-- A place behind what a match takes. -/
theorem clean_append_iff (l rest : List α) (prev : Option α) :
    Clean P l.length prev (l ++ rest) ↔ Clean P 0 (last prev l) rest := by
  induction l generalizing prev with
  | nil => rfl
  | cons c l ih => exact ih (some c)

/-- A match that gives back what it takes. -/
theorem clean_of_match {prev : Option α} {c : α} {r rest : List α}
    (found : P prev (c :: (r ++ rest)) = some (r.length, c :: r)) :
    Clean P 0 prev (c :: (r ++ rest)) ↔ Clean P 0 (last (some c) r) rest := by
  rw [Clean, found]
  dsimp only
  rw [List.take_left, eq_self, true_and]
  exact clean_append_iff r rest (some c)

/-- The replacement leaves nothing to replace when it makes no match of what was none, and a match
of what it puts in. -/
theorem clean_scan
    (still : ∀ prev c l, P prev (c :: l) = none → P prev (c :: scan P 0 (some c) l) = none)
    (made : ∀ prev c l n r, P prev (c :: l) = some (n, r) → (∀ d ∈ (l.drop n).head?, Steady P d) ∧
      ∃ r', r = c :: r' ∧ ∀ out, out.head? = (l.drop n).head? →
        P prev (c :: (r' ++ out)) = some (r'.length, r))
    (l : List α) (skip : Nat) (prev prev' : Option α)
    (start : Blind P prev' (last prev (l.take skip)) (l.drop skip)) :
    Clean P 0 prev' (scan P skip prev l) := by
  induction l generalizing skip prev prev' with
  | nil => trivial
  | cons c l ih =>
      cases skip with
      | succ skip => exact ih skip (some c) prev' start
      | zero =>
          have blind : ∀ l', P prev' (c :: l') = P prev (c :: l') := start c rfl
          rw [scan]
          cases found : P prev (c :: l) with
          | none =>
              dsimp only
              rw [Clean, blind, still prev c l found]
              exact ih 0 (some c) (some c) fun _ _ _ => rfl
          | some match_ =>
              obtain ⟨steady, r, same, again⟩ := made prev c l _ _ found
              dsimp only
              have reached : (scan P match_.1 (some c) l).head? = (l.drop match_.1).head? := by
                rw [scan_drop, head?_scan steady]
              rw [same, List.cons_append]
              refine (clean_of_match ?_).mpr (ih match_.1 (some c) _ fun d first l' =>
                (steady d first).blind _ _ _)
              rw [blind, again _ reached, same]

end Clean

/-- No match begins in the first text. -/
def Quiet : Option α → List α → List α → Prop
  | _, [], _ => True
  | prev, c :: l, rest => P prev (c :: (l ++ rest)) = none ∧ Quiet (some c) l rest

section Quiet
variable {P : Pattern α}

theorem quiet_append {a b rest : List α} {prev : Option α} (first : Quiet P prev a (b ++ rest))
    (second : Quiet P (last prev a) b rest) : Quiet P prev (a ++ b) rest := by
  induction a generalizing prev with
  | nil => exact second
  | cons c a ih =>
      have here : P prev (c :: ((a ++ b) ++ rest)) = none := by
        rw [List.append_assoc]
        exact first.1
      exact ⟨here, ih first.2 second⟩

theorem quiet_behind {a b rest : List α} {prev : Option α} (quiet : Quiet P prev (a ++ b) rest) :
    Quiet P (last prev a) b rest := by
  induction a generalizing prev with
  | nil => exact quiet
  | cons c a ih => exact ih quiet.2

theorem clean_of_quiet {l rest : List α} {prev : Option α} (quiet : Quiet P prev l rest)
    (clean : Clean P 0 (last prev l) rest) : Clean P 0 prev (l ++ rest) := by
  induction l generalizing prev with
  | nil => exact clean
  | cons c l ih =>
      rw [List.cons_append, Clean, quiet.1]
      exact ih quiet.2 clean

theorem scan_of_quiet {l rest : List α} {prev : Option α} (quiet : Quiet P prev l rest) :
    scan P 0 prev (l ++ rest) = l ++ scan P 0 (last prev l) rest := by
  induction l generalizing prev with
  | nil => rfl
  | cons c l ih =>
      rw [List.cons_append, scan, quiet.1]
      exact congrArg (c :: ·) (ih quiet.2)

theorem pending_of_quiet {l rest : List α} {prev : Option α} (quiet : Quiet P prev l rest) :
    pending P 0 prev l rest = 0 := by
  induction l generalizing prev with
  | nil => rfl
  | cons c l ih =>
      rw [pending, quiet.1]
      exact ih quiet.2

theorem quiet_front {a b rest : List α} {prev : Option α} (quiet : Quiet P prev (a ++ b) rest) :
    Quiet P prev a (b ++ rest) := by
  induction a generalizing prev with
  | nil => trivial
  | cons c a ih =>
      obtain ⟨here, later⟩ := quiet
      rw [List.append_eq, List.append_assoc] at here
      exact ⟨here, ih later⟩

/-- A text is quiet when no match begins at a place that cuts it in two. -/
theorem quiet_of_forall {l rest : List α} {prev : Option α} (none : ∀ front c back,
    l = front ++ c :: back → P (last prev front) (c :: (back ++ rest)) = Option.none) :
    Quiet P prev l rest := by
  induction l generalizing prev with
  | nil => trivial
  | cons c l ih =>
      refine ⟨none [] c l rfl, ih fun front d back text => ?_⟩
      exact none (c :: front) d back (congrArg (c :: ·) text)

theorem emitted_of_quiet {l rest : List α} {prev : Option α} (quiet : Quiet P prev l rest) :
    emitted P 0 prev l rest = l := by
  induction l generalizing prev with
  | nil => rfl
  | cons c l ih =>
      rw [emitted, quiet.1]
      exact congrArg (c :: ·) (ih quiet.2)

theorem alike_of_quiet {l rest rest' : List α} {prev : Option α} (quiet : Quiet P prev l rest)
    (quiet' : Quiet P prev l rest') : Alike P 0 prev l rest rest' := by
  induction l generalizing prev with
  | nil => trivial
  | cons c l ih => exact alike_of_none quiet.1 quiet'.1 (ih quiet.2 quiet'.2)

end Quiet

section Behind
variable {P : Pattern α} {Ps : List (Pattern α)}

theorem emitted_append (a b rest : List α) (skip : Nat) (prev : Option α) :
    emitted P skip prev (a ++ b) rest = emitted P skip prev a (b ++ rest) ++
      emitted P (pending P skip prev a (b ++ rest)) (last prev a) b rest := by
  induction a generalizing skip prev with
  | nil => cases skip <;> rfl
  | cons c a ih =>
      cases skip with
      | succ skip => exact ih skip (some c)
      | zero =>
          simp only [List.cons_append, emitted, pending, last, List.append_assoc]
          cases P prev (c :: (a ++ (b ++ rest))) with
          | none => exact congrArg (c :: ·) (ih 0 (some c))
          | some match_ =>
              dsimp only
              rw [ih, List.append_assoc]

theorem length_le_of_pending {l rest : List α} {prev : Option α} {skip : Nat}
    (ends : pending P skip prev l rest = 0) : skip ≤ l.length := by
  obtain inside | beyond := Nat.le_total skip l.length
  · exact inside
  · rw [pending_of_le l rest skip prev beyond] at ends
    omega

/-- Texts that are treated alike one behind the other are so as one, when no match runs across. -/
theorem alike_append {a b rest rest' : List α} {skip : Nat} {prev : Option α}
    (first : Alike P skip prev a (b ++ rest) (b ++ rest'))
    (ends : pending P skip prev a (b ++ rest) = 0) (ends' : pending P skip prev a (b ++ rest') = 0)
    (second : Alike P 0 (last prev a) b rest rest') : Alike P skip prev (a ++ b) rest rest' := by
  induction a generalizing skip prev with
  | nil =>
      obtain rfl : skip = 0 := ends
      exact second
  | cons c a ih =>
      cases skip with
      | succ skip => exact ih first ends ends' second
      | zero =>
          obtain ⟨same, later⟩ := first
          rw [pending] at ends ends'
          rw [List.cons_append, Alike, List.append_assoc, List.append_assoc]
          cases found : P prev (c :: (a ++ (b ++ rest))) with
          | none =>
              rw [found] at same later ends
              have found' : P prev (c :: (a ++ (b ++ rest'))) = none :=
                Option.map_eq_none_iff.mp same.symm
              rw [found'] at ends' ⊢
              exact ⟨rfl, ih later ends ends' second⟩
          | some match_ =>
              rw [found] at same later ends
              obtain ⟨match_', found', equal⟩ := Option.map_eq_some_iff.mp same.symm
              obtain ⟨size, replaced⟩ := Prod.mk.inj equal
              rw [found'] at ends' ⊢
              have short := length_le_of_pending ends
              have short' := length_le_of_pending ends'
              have one : match_'.1 = match_.1 := by omega
              refine ⟨?_, ?_⟩
              · rw [Option.map_some, Option.map_some, one, replaced]
              · dsimp only [Option.map_some, Option.getD_some] at later ends ends' ⊢
                rw [one] at ends'
                exact ih later ends ends' second

/-- Where the patterns find the same in front of a stretch, and the first one nothing from a place
before it to its end, the stretch is left to the others. -/
theorem masked_behind {a m s s' b : List α}
    (alike : Alike P 0 none a (m ++ (s ++ b)) (m ++ (s' ++ b)))
    (ends : pending P 0 none a (m ++ (s ++ b)) = 0)
    (ends' : pending P 0 none a (m ++ (s' ++ b)) = 0)
    (quiet : Quiet P (last none a) (m ++ s) b) (quiet' : Quiet P (last none a) (m ++ s') b)
    (later : Masked Ps (emitted P 0 none a (m ++ (s ++ b)) ++ m) s s' (replace P b)) :
    Masked (P :: Ps) (a ++ m) s s' b := by
  have front := quiet_front quiet
  have front' := quiet_front quiet'
  have behind := quiet_behind quiet
  have behind' := quiet_behind quiet'
  rw [← last_append] at behind behind'
  refine ⟨alike_append alike ends ends' (alike_of_quiet front front'), .inr ⟨⟨?_, ?_⟩, ⟨?_, ?_⟩, ?_⟩⟩
  · rw [pending_append, ends, pending_of_quiet front]
  · exact pending_of_quiet behind
  · rw [pending_append, ends', pending_of_quiet front']
  · exact pending_of_quiet behind'
  · rw [emitted_append, ends, emitted_of_quiet front, emitted_of_quiet behind,
      emitted_of_quiet behind']
    exact later

theorem masked_of_quiet {a s s' b : List α} (quiet : Quiet P none (a ++ s) b)
    (quiet' : Quiet P none (a ++ s') b) (later : Masked Ps a s s' (replace P b)) :
    Masked (P :: Ps) a s s' b :=
  masked_behind (a := []) trivial rfl rfl quiet quiet' later

/-- A stretch that one match takes to its end is masked, whatever else the match takes. -/
theorem masked_of_match {before head s s' b r : List α} {c : α} {beyond : Nat}
    (quiet : Quiet P none before (c :: head ++ (s ++ b)))
    (quiet' : Quiet P none before (c :: head ++ (s' ++ b)))
    (found : P (last none before) (c :: (head ++ (s ++ b))) = some (head.length + s.length + beyond, r))
    (found' : P (last none before) (c :: (head ++ (s' ++ b))) =
      some (head.length + s'.length + beyond, r)) : Masked (P :: Ps) (before ++ c :: head) s s' b := by
  have takes {t : List α} (quiet : Quiet P none before (c :: head ++ (t ++ b)))
      (found : P (last none before) (c :: (head ++ (t ++ b))) =
        some (head.length + t.length + beyond, r)) :
      pending P 0 none (before ++ c :: head) (t ++ b) = t.length + beyond := by
    rw [pending_append, pending_of_quiet quiet, pending_of_some found, pending_of_le _ _ _ _ (by omega)]
    omega
  refine ⟨?_, .inl ⟨?_, ?_, ?_⟩⟩
  · refine alike_append (alike_of_quiet quiet quiet') (pending_of_quiet quiet)
      (pending_of_quiet quiet') (alike_of_some found found' (by omega) (alike_of_le _ _ _ _ _ (by omega)))
  · rw [takes quiet found]
    omega
  · rw [takes quiet' found']
    omega
  · rw [takes quiet found, takes quiet' found']
    omega

/-- A word without the letter that the replacements begin with is the text's where the result
begins with it. -/
theorem prefix_of_emitted {w m : List α} {x : α} (absent : x ∉ w)
    (begins : ∀ prev l n r, P prev l = some (n, r) → r.head? = some x) (l rest : List α)
    (prev : Option α) (within : w <+: emitted P 0 prev l rest ++ m) : w <+: l ++ m := by
  induction l generalizing prev w with
  | nil => exact within
  | cons c l ih =>
      cases w with
      | nil => exact List.nil_prefix
      | cons d w =>
          obtain ⟨other, absent⟩ := not_or.mp (List.mem_cons.not.mp absent)
          rw [emitted] at within
          cases found : P prev (c :: (l ++ rest)) with
          | none =>
              rw [found] at within
              obtain ⟨rfl, within⟩ := List.cons_prefix_cons.mp within
              exact List.cons_prefix_cons.mpr ⟨rfl, ih absent (some d) within⟩
          | some match_ =>
              obtain ⟨r, same⟩ := List.head?_eq_some_iff.mp (begins _ _ _ _ found)
              rw [found] at within
              dsimp only at within
              rw [same] at within
              exact absurd (List.cons_prefix_cons.mp within).1.symm other

/-- A word that no replacement is part of is the text's where it stands in the result. -/
theorem infix_of_emitted {w m : List α} {x : α} (absent : x ∉ w)
    (apart : ∀ prev l n r, P prev l = some (n, r) →
      r.head? = some x ∧ ∀ out, w <:+: r ++ out → w <:+: out) (l rest : List α) (skip : Nat)
    (prev : Option α) (within : w <:+: emitted P skip prev l rest ++ m) : w <:+: l ++ m := by
  induction l generalizing skip prev with
  | nil => cases skip <;> exact within
  | cons c l ih =>
      cases skip with
      | succ skip => exact List.infix_cons (ih skip (some c) within)
      | zero =>
          have front : w <+: emitted P 0 prev (c :: l) rest ++ m → w <:+: c :: l ++ m := fun first =>
            (prefix_of_emitted absent (fun _ _ _ _ found => (apart _ _ _ _ found).1) _ rest prev
              first).isInfix
          rw [emitted] at within front
          cases found : P prev (c :: (l ++ rest)) with
          | none =>
              rw [found] at within front
              obtain first | later := List.infix_cons_iff.mp within
              · exact front first
              · exact List.infix_cons (ih 0 (some c) later)
          | some match_ =>
              rw [found] at within
              dsimp only at within
              rw [List.append_assoc] at within
              exact List.infix_cons (ih _ (some c) ((apart _ _ _ _ found).2 _ within))

end Behind

/-- No match anywhere. -/
def Free : Option α → List α → Prop
  | _, [] => True
  | prev, c :: l => P prev (c :: l) = none ∧ Free (some c) l

/-- Where the first pattern finds nothing the second does not either. -/
def Idle (P Q : Pattern α) : Option α → List α → Prop
  | _, [] => True
  | prev, c :: l => (P prev (c :: l) = none → Q prev (c :: l) = none) ∧ Idle P Q (some c) l

section Free
variable {P Q : Pattern α}

theorem clean_of_free (l : List α) (prev : Option α) (free : Free P prev l) : Clean P 0 prev l := by
  induction l generalizing prev with
  | nil => trivial
  | cons c l ih =>
      rw [Clean, free.1]
      exact ih (some c) free.2

theorem idle_self (l : List α) (prev : Option α) : Idle P P prev l := by
  induction l generalizing prev with
  | nil => trivial
  | cons c l ih => exact ⟨id, ih (some c)⟩

theorem idle_of_free (l : List α) (prev : Option α) (free : Free Q prev l) : Idle P Q prev l := by
  induction l generalizing prev with
  | nil => trivial
  | cons c l ih => exact ⟨fun _ => free.1, ih (some c) free.2⟩

/-- A replacement makes no match of another pattern when none appears where nothing is replaced, in
what is put in, or right behind it. -/
theorem free_scan
    (still : ∀ prev c l, P prev (c :: l) = none → Q prev (c :: l) = none →
      Q prev (c :: scan P 0 (some c) l) = none)
    (made : ∀ prev c l n r, P prev (c :: l) = some (n, r) → ∀ prev',
      Blind Q (last prev' r) (last (some c) (l.take n)) (l.drop n) ∧
        ∀ out, Free Q (last prev' r) out → Free Q prev' (r ++ out))
    (l : List α) (skip : Nat) (prev prev' : Option α) (idle : Idle P Q prev l)
    (start : Blind Q prev' (last prev (l.take skip)) (l.drop skip)) :
    Free Q prev' (scan P skip prev l) := by
  induction l generalizing skip prev prev' with
  | nil => trivial
  | cons c l ih =>
      cases skip with
      | succ skip => exact ih skip (some c) prev' idle.2 start
      | zero =>
          have blind : ∀ l', Q prev' (c :: l') = Q prev (c :: l') := start c rfl
          rw [scan]
          cases found : P prev (c :: l) with
          | none =>
              refine ⟨?_, ih 0 (some c) (some c) idle.2 fun _ _ _ => rfl⟩
              rw [blind, still prev c l found (idle.1 found)]
          | some match_ =>
              obtain ⟨joins, within⟩ := made prev c l _ _ found prev'
              exact within _ (ih match_.1 (some c) _ idle.2 joins)

end Free

end Replace
