/-!
Machines that read a stream piece by piece: each piece moves the machine on and gives some output.
What such a machine gives out for a stream does not depend on the pieces that the stream comes in.
-/
namespace Streaming
universe u v w x
variable {σ : Type u} {α : Type v} {β : Type w}

/-- A machine that reads its piece element by element. -/
def push (step : σ → α → σ × List β) : σ → List α → σ × List β
  | s, [] => (s, [])
  | s, a :: as =>
      let (s', out) := step s a
      let (s'', rest) := push step s' as
      (s'', out ++ rest)

/-- The pieces are read one after another. -/
def pieces (f : σ → List α → σ × List β) : σ → List (List α) → σ × List β := push f

/-- Whether a piece comes whole or in two parts makes no difference. -/
structure Splits (f : σ → List α → σ × List β) : Prop where
  nil : ∀ s, f s [] = (s, [])
  append : ∀ s as bs, f s (as ++ bs) = ((f (f s as).1 bs).1, (f s as).2 ++ (f (f s as).1 bs).2)

theorem push_cons (step : σ → α → σ × List β) (s : σ) (a : α) (as : List α) :
    push step s (a :: as) = ((push step (step s a).1 as).1, (step s a).2 ++ (push step (step s a).1 as).2) :=
  rfl

theorem splits_push (step : σ → α → σ × List β) : Splits (push step) where
  nil _ := rfl
  append s as bs := by
    induction as generalizing s with
    | nil => rfl
    | cons a as ih =>
        rw [List.cons_append, push_cons, push_cons, ih, List.append_assoc]

/-- What is given out for a stream is what is given out for it in one piece. -/
theorem Splits.pieces {f : σ → List α → σ × List β} (h : Splits f) (s : σ)
    (frames : List (List α)) : pieces f s frames = f s frames.flatten := by
  induction frames generalizing s with
  | nil => exact (h.nil s).symm
  | cons frame frames ih =>
      have rest := ih (f s frame).1
      rw [Streaming.pieces] at rest
      rw [Streaming.pieces, push_cons, rest, List.flatten_cons, h.append]

/-- What holds of all that a step gives out holds of all that is given out. -/
theorem forall_push {step : σ → α → σ × List β} {P : β → Prop}
    (given : ∀ s a, ∀ b ∈ (step s a).2, P b) (s : σ) (as : List α) : ∀ b ∈ (push step s as).2, P b := by
  induction as generalizing s with
  | nil => exact nofun
  | cons a as ih =>
      intro b mem
      rw [push_cons] at mem
      rcases List.mem_append.mp mem with first | later
      · exact given s a b first
      · exact ih (step s a).1 b later

/-- Elements that leave the machine where it is and give out one element each. -/
theorem push_map {step : σ → α → σ × List β} {s : σ} {f : α → β} (as : List α)
    (each : ∀ a ∈ as, step s a = (s, [f a])) : push step s as = (s, as.map f) := by
  induction as with
  | nil => rfl
  | cons a as ih =>
      rw [push_cons, each a List.mem_cons_self, ih fun b mem => each b (List.mem_cons_of_mem a mem)]
      rfl

/-- Elements that leave the machine where it is and give out nothing. -/
theorem push_silent {step : σ → α → σ × List β} {s : σ} (as : List α)
    (each : ∀ a ∈ as, step s a = (s, [])) : push step s as = (s, []) := by
  induction as with
  | nil => rfl
  | cons a as ih =>
      rw [push_cons, each a List.mem_cons_self, ih fun b mem => each b (List.mem_cons_of_mem a mem)]
      rfl

/-- A stream made of words each of which brings the machine back to where it began. -/
theorem push_flatMap {ρ : Type x} {step : σ → α → σ × List β} {s : σ} {render : ρ → List α}
    {out : ρ → List β} (each : ∀ word, push step s (render word) = (s, out word))
    (words : List ρ) : push step s (words.flatMap render) = (s, words.flatMap out) := by
  induction words with
  | nil => rfl
  | cons word words ih =>
      rw [List.flatMap_cons, List.flatMap_cons, (splits_push step).append, each, ih]

end Streaming
