import Mathlib.Data.List.Induction

/-!
Runs of a deterministic system driven by a list of events. An adversary, a lossy
link or a clock is part of the event, so "every interleaving" is "every list".
The rules below are the inductions over runs: an invariant, a preorder between the
first and the last state, and the passage between a condition on the steps of a run
and a property of the states it reaches.
-/
namespace Runs
universe u v w
variable {σ : Type u} {ι : Type v} {step : σ → ι → σ}

/-- The state reached from `s` by the events of a list, in order. -/
def run (step : σ → ι → σ) (s : σ) (es : List ι) : σ := es.foldl step s

/-- Every step of the run meets a condition on the state before it and its event. -/
def Along (step : σ → ι → σ) (cond : σ → ι → Prop) : σ → List ι → Prop
  | _, [] => True
  | s, e :: es => cond s e ∧ Along step cond (step s e) es

/-- Every state of the run, the first and the last included, has a property. -/
def Always (step : σ → ι → σ) (P : σ → Prop) : σ → List ι → Prop
  | s, [] => P s
  | s, e :: es => P s ∧ Always step P (step s e) es

instance Along.decidable {cond : σ → ι → Prop} [∀ s e, Decidable (cond s e)] :
    ∀ s es, Decidable (Along step cond s es)
  | _, [] => .isTrue trivial
  | s, e :: es =>
      haveI : Decidable (Along step cond (step s e) es) := Along.decidable (step s e) es
      inferInstanceAs (Decidable (cond s e ∧ Along step cond (step s e) es))

instance Always.decidable {P : σ → Prop} [DecidablePred P] :
    ∀ s es, Decidable (Always step P s es)
  | s, [] => inferInstanceAs (Decidable (P s))
  | s, e :: es =>
      haveI : Decidable (Always step P (step s e) es) := Always.decidable (step s e) es
      inferInstanceAs (Decidable (P s ∧ Always step P (step s e) es))

@[simp] theorem run_nil (s : σ) : run step s [] = s := rfl

@[simp] theorem run_cons (s : σ) (e : ι) (es : List ι) :
    run step s (e :: es) = run step (step s e) es := rfl

theorem run_append (s : σ) (es fs : List ι) :
    run step s (es ++ fs) = run step (run step s es) fs :=
  List.foldl_append

theorem run_concat (s : σ) (es : List ι) (e : ι) :
    run step s (es ++ [e]) = step (run step s es) e := by
  rw [run_append]
  rfl

/-- The invariant rule, relative to a condition met along the run. -/
theorem invariant_along {cond : σ → ι → Prop} {I : σ → Prop}
    (preserved : ∀ s e, I s → cond s e → I (step s e)) :
    ∀ (es : List ι) (s : σ), I s → Along step cond s es → I (run step s es)
  | [], _, hs, _ => hs
  | e :: es, s, hs, h =>
      invariant_along preserved es (step s e) (preserved s e hs h.1) h.2

/-- The invariant rule. -/
theorem invariant {I : σ → Prop} (preserved : ∀ s e, I s → I (step s e))
    (s : σ) (es : List ι) (hs : I s) : I (run step s es) := by
  induction es generalizing s with
  | nil => exact hs
  | cons e es ih => exact ih (step s e) (preserved s e hs)

/-- What the steps add to a log, in the order of the events. -/
theorem recorded {ρ : Type w} (log : σ → List ρ) {added : ι → List ρ}
    (records : ∀ s e, log (step s e) = log s ++ added e) (es : List ι) (s : σ) :
    log (run step s es) = log s ++ es.flatMap added := by
  induction es generalizing s with
  | nil => exact (List.append_nil _).symm
  | cons e es ih => rw [run_cons, ih, records, List.flatMap_cons, List.append_assoc]

/-- A preorder that every step meeting the condition respects relates the ends of a run. -/
theorem related_along {cond : σ → ι → Prop} {R : σ → σ → Prop} (refl : ∀ s, R s s)
    (trans : ∀ a b c, R a b → R b c → R a c)
    (respects : ∀ s e, cond s e → R s (step s e)) (es : List ι) (s : σ)
    (h : Along step cond s es) : R s (run step s es) := by
  induction es generalizing s with
  | nil => exact refl s
  | cons e es ih => exact trans _ _ _ (respects s e h.1) (ih (step s e) h.2)

/-- What every step does, every step of a run does. -/
theorem Along.intro {cond : σ → ι → Prop} (every : ∀ s e, cond s e) (es : List ι) (s : σ) :
    Along step cond s es := by
  induction es generalizing s with
  | nil => trivial
  | cons e es ih => exact ⟨every s e, ih (step s e)⟩

theorem Along.mono {cond cond' : σ → ι → Prop} (h : ∀ s e, cond s e → cond' s e) :
    ∀ (es : List ι) (s : σ), Along step cond s es → Along step cond' s es
  | [], _, _ => trivial
  | e :: es, s, hs => ⟨h s e hs.1, Along.mono h es (step s e) hs.2⟩

theorem Along.congr {c d : σ → ι → Prop} (same : ∀ s e, c s e ↔ d s e) (es : List ι) (s : σ) :
    Along step c s es ↔ Along step d s es :=
  ⟨Along.mono (fun s e => (same s e).mp) es s, Along.mono (fun s e => (same s e).mpr) es s⟩

/-- Along a run an invariant turns one condition on the steps into another. -/
theorem Along.of_invariant {cond P : σ → ι → Prop} {I : σ → Prop}
    (preserved : ∀ s e, I s → cond s e → I (step s e))
    (implies : ∀ s e, I s → cond s e → P s e) :
    ∀ (es : List ι) (s : σ), I s → Along step cond s es → Along step P s es
  | [], _, _, _ => trivial
  | e :: es, s, hs, h =>
      ⟨implies s e hs h.1, Along.of_invariant preserved implies es (step s e)
        (preserved s e hs h.1) h.2⟩

/-- A condition along a run, at every place where the run can be cut. -/
theorem along_iff_split {cond : σ → ι → Prop} (es : List ι) (s : σ) : Along step cond s es ↔
    ∀ before e after, es = before ++ e :: after → cond (run step s before) e := by
  induction es generalizing s with
  | nil => exact iff_of_true trivial fun before e after split => by simp at split
  | cons first es ih =>
      rw [Along, ih]
      constructor
      · rintro ⟨meets, later⟩ (_ | ⟨c, before⟩) e after split
        · obtain ⟨rfl, -⟩ := List.cons.inj split
          exact meets
        · obtain ⟨rfl, rfl⟩ := List.cons.inj split
          exact later before e after rfl
      · intro every
        refine ⟨every [] first es rfl, fun before e after split => ?_⟩
        exact every (first :: before) e after (by rw [split]; rfl)

theorem along_append {cond : σ → ι → Prop} (es fs : List ι) (s : σ) : Along step cond s (es ++ fs) ↔
    Along step cond s es ∧ Along step cond (run step s es) fs := by
  induction es generalizing s with
  | nil => exact (and_iff_right trivial).symm
  | cons e es ih =>
      rw [List.cons_append, Along, Along, ih, run_cons, and_assoc]

/-- A condition along a run and one more step. -/
theorem along_concat {cond : σ → ι → Prop} (es : List ι) (e : ι) (s : σ) :
    Along step cond s (es ++ [e]) ↔ Along step cond s es ∧ cond (run step s es) e := by
  rw [along_append]
  exact and_congr_right fun _ => and_iff_left trivial

/-- The invariant rule for what a history says of the state it leads to. -/
theorem history_along {cond : σ → ι → Prop} {I : List ι → σ → Prop} {s : σ}
    (preserved : ∀ es e, I es (run step s es) → cond (run step s es) e →
      I (es ++ [e]) (step (run step s es) e))
    (hs : I [] s) (es : List ι) (h : Along step cond s es) : I es (run step s es) := by
  induction es using List.reverseRecOn with
  | nil => exact hs
  | append_singleton es e ih =>
      obtain ⟨before, last⟩ := (along_concat es e s).mp h
      rw [run_concat]
      exact preserved es e (ih before) last

/-- A condition on the events alone. -/
theorem Along.of_forall {cond : ι → Prop} :
    ∀ (es : List ι) (s : σ), (∀ e ∈ es, cond e) → Along step (fun _ e => cond e) s es
  | [], _, _ => trivial
  | e :: es, s, h =>
      ⟨h e List.mem_cons_self,
        Along.of_forall es (step s e) fun e he => h e (List.mem_cons_of_mem _ he)⟩

theorem Always.head {P : σ → Prop} {s : σ} {es : List ι} (h : Always step P s es) : P s := by
  cases es with
  | nil => exact h
  | cons e es => exact h.1

theorem Always.last {P : σ → Prop} :
    ∀ (es : List ι) (s : σ), Always step P s es → P (run step s es)
  | [], _, h => h
  | e :: es, s, h => Always.last es (step s e) h.2

/-- A property holds in every state of a run when an invariant implies it. -/
theorem Always.of_invariant_along {cond : σ → ι → Prop} {I P : σ → Prop}
    (preserved : ∀ s e, I s → cond s e → I (step s e)) (implies : ∀ s, I s → P s) :
    ∀ (es : List ι) (s : σ), I s → Along step cond s es → Always step P s es
  | [], s, hs, _ => implies s hs
  | e :: es, s, hs, h =>
      ⟨implies s hs,
        Always.of_invariant_along preserved implies es (step s e) (preserved s e hs h.1) h.2⟩

theorem Always.of_invariant {I P : σ → Prop} (preserved : ∀ s e, I s → I (step s e))
    (implies : ∀ s, I s → P s) (es : List ι) (s : σ) (hs : I s) : Always step P s es := by
  induction es generalizing s with
  | nil => exact implies s hs
  | cons e es ih => exact ⟨implies s hs, ih (step s e) (preserved s e hs)⟩

/-- Where a condition on the step decides whether it keeps a property, a run keeps the
property in every state exactly when each of its steps meets the condition. -/
theorem always_iff_along {cond : σ → ι → Prop} {I P : σ → Prop}
    (preserved : ∀ s e, I s → I (step s e))
    (decides : ∀ s e, I s → P s → (P (step s e) ↔ cond s e)) (es : List ι) (s : σ)
    (hs : I s) (hp : P s) : Always step P s es ↔ Along step cond s es := by
  induction es generalizing s with
  | nil => exact iff_of_true hp trivial
  | cons e es ih =>
      constructor
      · rintro ⟨_, later⟩
        exact ⟨(decides s e hs hp).mp later.head,
          (ih (step s e) (preserved s e hs) later.head).mp later⟩
      · rintro ⟨meets, later⟩
        have kept := (decides s e hs hp).mpr meets
        exact ⟨hp, (ih (step s e) (preserved s e hs) kept).mpr later⟩

/-- The invariant rule for steps that may not complete: `es.foldlM step s` is the state
after a list of events that all did. -/
theorem invariant_completed {step : σ → ι → Option σ} {I : σ → Prop}
    (preserved : ∀ s e s', I s → step s e = some s' → I s') (es : List ι) (s s' : σ) (hs : I s)
    (completed : es.foldlM step s = some s') : I s' := by
  induction es generalizing s with
  | nil =>
      obtain rfl := Option.some.inj completed
      exact hs
  | cons e es ih =>
      rw [List.foldlM_cons] at completed
      obtain ⟨next, stepped, rest⟩ := Option.bind_eq_some_iff.mp completed
      exact ih next (preserved s e next hs stepped) rest

/-- A loop whose body may throw: the state it leaves, and whether it went through. -/
def foreach (body : σ → ι → Option σ) : σ → List ι → σ × Bool
  | s, [] => (s, true)
  | s, e :: es =>
      match body s e with
      | some next => foreach body next es
      | none => (s, false)

section Foreach
variable {body : σ → ι → Option σ}

theorem foreach_eq_true_iff {s s' : σ} {es : List ι} :
    foreach body s es = (s', true) ↔ es.foldlM body s = some s' := by
  induction es generalizing s with
  | nil => simp [foreach]
  | cons e es ih =>
      rw [foreach, List.foldlM_cons]
      cases body s e with
      | none => simp
      | some next => exact ih

/-- The invariant rule for a loop, however it ends. -/
theorem foreach_invariant {I : σ → Prop}
    (preserved : ∀ s e s', I s → body s e = some s' → I s') (s : σ) (es : List ι) (hs : I s) :
    I (foreach body s es).1 := by
  induction es generalizing s with
  | nil => exact hs
  | cons e es ih =>
      rw [foreach]
      cases stepped : body s e with
      | none => exact hs
      | some next => exact ih next (preserved s e next hs stepped)

/-- The loop stops where its body throws, and keeps what it did before. -/
theorem foreach_eq_false_iff {s s' : σ} {es : List ι} : foreach body s es = (s', false) ↔
    ∃ before e after, es = before ++ e :: after ∧ before.foldlM body s = some s' ∧
      body s' e = none := by
  induction es generalizing s with
  | nil => simp [foreach]
  | cons e es ih =>
      rw [foreach]
      cases stepped : body s e with
      | none =>
          constructor
          · intro stopped
            obtain rfl := (Prod.mk.inj stopped).1
            exact ⟨[], e, es, rfl, rfl, stepped⟩
          · rintro ⟨_ | ⟨first, before⟩, thrower, after, split, ran, threw⟩
            · obtain rfl := Option.some.inj ran
              rfl
            · obtain rfl := (List.cons.inj split).1
              rw [List.foldlM_cons, stepped] at ran
              cases ran
      | some next =>
          rw [ih]
          constructor
          · rintro ⟨before, thrower, after, rfl, ran, threw⟩
            refine ⟨e :: before, thrower, after, rfl, ?_, threw⟩
            rw [List.foldlM_cons, stepped]
            exact ran
          · rintro ⟨_ | ⟨first, before⟩, thrower, after, split, ran, threw⟩
            · obtain rfl := (List.cons.inj split).1
              obtain rfl := Option.some.inj ran
              rw [stepped] at threw
              cases threw
            · obtain ⟨rfl, rfl⟩ := List.cons.inj split
              rw [List.foldlM_cons, stepped] at ran
              exact ⟨before, thrower, after, rfl, ran, threw⟩

end Foreach

end Runs
