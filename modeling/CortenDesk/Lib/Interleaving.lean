import CortenDesk.Lib.Runs
import Mathlib.Logic.Function.Basic

/-!
Processes that share a state and take steps in any order. A process has a local state of
its own; a step of it may depend on an input, and an environment changes the shared state
between steps. An invariant is a property of the shared state together with one of every
process, proved of the process that steps and of the others apart.
-/
namespace Interleaving
universe u v w x
variable {σ : Type u} {τ : Type v} {ι : Type w} {κ : Type x}

/-- What a process does in one step, and what the environment does. -/
structure System (σ : Type u) (τ : Type v) (ι : Type w) (κ : Type x) where
  act : Nat → σ → τ → ι → σ × τ
  environment : σ → κ → σ

structure Config (σ : Type u) (τ : Type v) where
  shared : σ
  process : Nat → τ

inductive Event (ι : Type w) (κ : Type x)
  | act (pid : Nat) (input : ι)
  | environment (change : κ)

variable (S : System σ τ ι κ)

def step (c : Config σ τ) : Event ι κ → Config σ τ
  | .act pid input =>
      { shared := (S.act pid c.shared (c.process pid) input).1
        process := Function.update c.process pid (S.act pid c.shared (c.process pid) input).2 }
  | .environment change => { c with shared := S.environment c.shared change }

/-- A condition on the steps of the processes. -/
def Guarded (guard : Nat → σ → τ → ι → Prop) (c : Config σ τ) : Event ι κ → Prop
  | .act pid input => guard pid c.shared (c.process pid) input
  | .environment _ => True

instance {guard : Nat → σ → τ → ι → Prop} [∀ pid s t i, Decidable (guard pid s t i)]
    (c : Config σ τ) : ∀ event : Event ι κ, Decidable (Guarded guard c event)
  | .act pid input => inferInstanceAs (Decidable (guard pid c.shared (c.process pid) input))
  | .environment _ => .isTrue trivial

/-- A property of the shared state and one of every process. -/
def Holds (shared : σ → Prop) (process : Nat → σ → τ → Prop) (c : Config σ τ) : Prop :=
  shared c.shared ∧ ∀ pid, process pid c.shared (c.process pid)

variable {S} {guard : Nat → σ → τ → ι → Prop} {G : σ → Prop} {L : Nat → σ → τ → Prop}

theorem holds_act {c : Config σ τ} {pid : Nat} {input : ι} (holds : Holds G L c)
    (shared : G (S.act pid c.shared (c.process pid) input).1)
    (own : L pid (S.act pid c.shared (c.process pid) input).1
      (S.act pid c.shared (c.process pid) input).2)
    (others : ∀ q, q ≠ pid → L q c.shared (c.process q) →
      L q (S.act pid c.shared (c.process pid) input).1 (c.process q)) :
    Holds G L (step S c (.act pid input)) := by
  refine ⟨shared, fun q => ?_⟩
  by_cases same : q = pid
  · subst same
    simpa only [step, Function.update_self] using own
  · simpa only [step, Function.update_of_ne same] using others q same (holds.2 q)

/-- The rule of non-interference: a guarded step keeps the property of the shared state and
of the process that takes it, and does not disturb that of another. -/
theorem holds_step
    (own : ∀ pid s t input, G s → L pid s t → guard pid s t input →
      G (S.act pid s t input).1 ∧ L pid (S.act pid s t input).1 (S.act pid s t input).2)
    (others : ∀ pid q s t t' input, q ≠ pid → G s → L pid s t → L q s t' →
      guard pid s t input → L q (S.act pid s t input).1 t')
    (environment : ∀ s change, G s → G (S.environment s change))
    (undisturbed : ∀ pid s t change, G s → L pid s t → L pid (S.environment s change) t)
    (c : Config σ τ) (event : Event ι κ) (holds : Holds G L c)
    (guarded : Guarded guard c event) : Holds G L (step S c event) := by
  cases event with
  | act pid input =>
      obtain ⟨shared, after⟩ := own pid _ _ input holds.1 (holds.2 pid) guarded
      exact holds_act holds shared after fun q other local' =>
        others pid q _ _ _ input other holds.1 (holds.2 pid) local' guarded
  | environment change =>
      exact ⟨environment _ change holds.1, fun pid =>
        undisturbed pid _ _ change holds.1 (holds.2 pid)⟩

end Interleaving
