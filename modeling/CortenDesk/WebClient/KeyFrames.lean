import CortenDesk.WebClient.VideoPipeline

/-!
When the decoder is fed no delta without its reference: a delta that is dropped because the decoder
has too much queued arms no wait for a key frame.
-/
namespace CortenDesk
namespace WebClient
namespace VideoPipeline
section
variable {Bytes : Type} {kase : EncodedCase} {marks : List (Mark Bytes)} {m : Mark Bytes}
  {p q : VideoPipeline Bytes}

/-- What leaves a delta of a stream without its reference. -/
def Breaks (kase : EncodedCase) : Mark Bytes → Prop
  | .configured _ | .reset => True
  | .missed other => other = kase
  | .submitted _ _ => False

/-- A key chunk of the stream was submitted, and since then nothing breaks it. -/
def Keyed (kase : EncodedCase) (marks : List (Mark Bytes)) : Prop :=
  ∃ before chunk after, marks = before ++ .submitted kase chunk :: after ∧ chunk.key = true ∧
    ∀ m ∈ after, ¬ Breaks kase m

/-- Every delta that was submitted had its reference. -/
def Referenced (marks : List (Mark Bytes)) : Prop :=
  ∀ before kase chunk after, marks = before ++ .submitted kase chunk :: after →
    chunk.key = false → Keyed kase before

/-- The frames that the loop comes to find the decoder with no more queued than it may have, unless a
key frame is awaited or comes. -/
def Unhurried (kase : EncodedCase) (attempts : Nat → Attempt) :
    Nat → List (EncodedVideoFrame Bytes) → VideoPipeline Bytes → Prop
  | _, [], _ => True
  | i, f :: frames, p =>
      (p.awaitingKey = false → f.key = false → (attempts i).decodeQueueSize ≤ maxDecodeQueue) ∧
        ((p.pushOne kase f (attempts i)).2 = false →
          Unhurried kase attempts (i + 1) frames (p.pushOne kase f (attempts i)).1)

instance Unhurried.decidable (kase : EncodedCase) (attempts : Nat → Attempt) :
    ∀ (i : Nat) (frames : List (EncodedVideoFrame Bytes)) (p : VideoPipeline Bytes),
      Decidable (Unhurried kase attempts i frames p)
  | _, [], _ => .isTrue trivial
  | i, f :: frames, p =>
      haveI := Unhurried.decidable kase attempts (i + 1) frames (p.pushOne kase f (attempts i)).1
      inferInstanceAs (Decidable (_ ∧ (_ → _)))

/-- No delta is dropped for the decoder's queue. -/
def Orderly (p : VideoPipeline Bytes) : PipelineEvent Bytes → Prop
  | .pushFrame (some (.encoded kase frames)) now configures attempts =>
      p.closed = false → kase ∉ p.disabled → (p.ready kase now configures).2 = true →
        Unhurried kase attempts 0 frames (p.ready kase now configures).1
  | _ => True

theorem Keyed.concat (h : Keyed kase marks) (intact : ¬ Breaks kase m) : Keyed kase (marks ++ [m]) := by
  obtain ⟨before, chunk, after, rfl, key, none⟩ := h
  refine ⟨before, chunk, after ++ [m], by simp, key, fun m' mem => ?_⟩
  rcases List.mem_append.mp mem with old | new
  · exact none m' old
  · rw [List.mem_singleton.mp new]
    exact intact

theorem Keyed.append (h : Keyed kase marks) {more : List (Mark Bytes)}
    (intact : ∀ m ∈ more, ¬ Breaks kase m) : Keyed kase (marks ++ more) := by
  obtain ⟨before, chunk, after, rfl, key, none⟩ := h
  refine ⟨before, chunk, after ++ more, by simp, key, fun m mem => ?_⟩
  rcases List.mem_append.mp mem with old | new
  · exact none m old
  · exact intact m new

theorem Keyed.last (h : Keyed kase (marks ++ [m])) : ¬ Breaks kase m := by
  obtain ⟨before, chunk, after, split, -, none⟩ := h
  rcases List.eq_nil_or_concat after with rfl | ⟨front, last, rfl⟩
  · have same := (List.append_inj' split rfl).2
    rw [(List.cons.inj same).1]
    exact id
  · rw [List.concat_eq_append] at split none
    have cut : marks ++ [m] = (before ++ .submitted kase chunk :: front) ++ [last] := by
      simpa using split
    obtain rfl := (List.cons.inj (List.append_inj' cut rfl).2).1
    exact none m (by simp)

theorem keyed_submitted {chunk : EncodedVideoChunk Bytes} (key : chunk.key = true) :
    Keyed kase (marks ++ [.submitted kase chunk]) :=
  ⟨marks, chunk, [], rfl, key, fun _ mem => nomatch mem⟩

theorem Referenced.concat (h : Referenced marks)
    (keyed : ∀ kase chunk, m = .submitted kase chunk → chunk.key = false → Keyed kase marks) :
    Referenced (marks ++ [m]) := by
  intro before kase chunk after split delta
  rcases List.eq_nil_or_concat after with rfl | ⟨front, last, rfl⟩
  · obtain ⟨rfl, same⟩ := List.append_inj' split rfl
    exact keyed kase chunk (List.cons.inj same).1 delta
  · rw [List.concat_eq_append] at split
    have cut : marks ++ [m] = (before ++ .submitted kase chunk :: front) ++ [last] := by
      simpa using split
    exact h before kase chunk front (List.append_inj' cut rfl).1 delta

theorem Referenced.append_missed (h : Referenced marks) (kase : EncodedCase)
    (frames : List (EncodedVideoFrame Bytes)) :
    Referenced (marks ++ frames.map fun _ => .missed kase) := by
  induction frames generalizing marks with
  | nil => simpa using h
  | cons f frames ih =>
      have one : Referenced (marks ++ [.missed kase]) := h.concat fun _ _ same => nomatch same
      have rest := ih one
      simpa using rest

/-- What is submitted next has its reference, for what the decoder is configured. -/
structure Inv (p : VideoPipeline Bytes) : Prop where
  referenced : Referenced p.marks
  keyed : ∀ kase, p.decoder.isSome → p.currentCase = some kase → p.awaitingKey = false →
    Keyed kase p.marks
  enabled : ∀ kase, p.currentCase = some kase → kase ∉ p.disabled
  ended : p.closed = true → p.decoder = none

theorem inv_begin (now : Int) : Inv ({ lastOutputMs := now } : VideoPipeline Bytes) where
  referenced before kase chunk after split := by simp at split
  keyed kase some := by cases some
  enabled kase current := by cases current
  ended closed := by cases closed

theorem Inv.requestRefresh (h : Inv p) (now : Int) : Inv (p.requestRefresh now) := by
  unfold VideoPipeline.requestRefresh
  split
  · exact h
  · exact ⟨h.referenced, h.keyed, h.enabled, h.ended⟩

theorem Inv.fatal (h : Inv p) (kase : EncodedCase) (now : Int) : Inv (p.fatal kase now) := by
  unfold VideoPipeline.fatal
  split
  · exact h
  · apply Inv.requestRefresh
    have torn : Inv { p.teardownDecoder with currentCase := none } :=
      ⟨h.referenced, fun _ some => (nomatch some), fun _ current => (nomatch current), fun _ => rfl⟩
    split
    · exact torn
    · exact ⟨h.referenced, fun _ some => (nomatch some), fun _ current => (nomatch current), fun _ => rfl⟩

/-- While a key frame is awaited, or for another stream, frames may be missed. -/
theorem Inv.miss (h : Inv p) (kase : EncodedCase) (frames : List (EncodedVideoFrame Bytes))
    (harmless : p.awaitingKey = true ∨ p.decoder = none ∨ p.currentCase ≠ some kase) :
    Inv (p.miss kase frames) := by
  refine ⟨h.referenced.append_missed kase frames, fun other some current awaits => ?_, h.enabled,
    h.ended⟩
  have keyed := h.keyed other some current awaits
  refine keyed.append fun m mem => ?_
  obtain ⟨f, -, rfl⟩ := List.mem_map.mp mem
  rintro rfl
  rcases harmless with awaiting | none | away
  · exact absurd (awaiting.symm.trans awaits) (by simp)
  · change p.decoder.isSome at some
    rw [none] at some
    cases some
  · exact away current

@[simp] theorem requestRefresh_frame (p : VideoPipeline Bytes) (now : Int) :
    (p.requestRefresh now).awaitingKey = p.awaitingKey ∧
      (p.requestRefresh now).currentCase = p.currentCase ∧
      (p.requestRefresh now).decoder = p.decoder ∧ (p.requestRefresh now).closed = p.closed := by
  unfold VideoPipeline.requestRefresh
  split <;> exact ⟨rfl, rfl, rfl, rfl⟩

theorem awaitingKey_fatal (p : VideoPipeline Bytes) (kase : EncodedCase) (now : Int) :
    (p.fatal kase now).awaitingKey = p.awaitingKey := by
  unfold VideoPipeline.fatal
  split
  · rfl
  · simp only [(requestRefresh_frame _ now).1]
    split <;> rfl

/-- A failure of `decode` is missed, and awaits a key frame. -/
theorem Inv.caught (h : Referenced p.marks) (enabled : ∀ kase, p.currentCase = some kase → kase ∉ p.disabled)
    (ended : p.closed = true → p.decoder = none) (kase : EncodedCase) (f : EncodedVideoFrame Bytes)
    (now : Int) : Inv (p.caught kase f now) ∧ (p.caught kase f now).awaitingKey = true := by
  have failed : Inv { p.miss kase [f] with
      framesDropped := p.framesDropped + 1, awaitingKey := true, failStreak := p.failStreak + 1 } :=
    ⟨h.append_missed kase [f], fun _ _ _ awaits => (nomatch awaits), enabled, ended⟩
  unfold VideoPipeline.caught VideoPipeline.noteFailure
  simp only
  split
  · exact ⟨failed.fatal kase now, awaitingKey_fatal _ kase now⟩
  · exact ⟨failed.requestRefresh now, (requestRefresh_frame _ now).1⟩

/-- A failure that does not take the decoder leaves the stream. -/
theorem current_caught {f : EncodedVideoFrame Bytes} {now : Int}
    (stays : (p.caught kase f now).decoder.isSome) (open_ : p.closed = false) :
    (p.caught kase f now).currentCase = p.currentCase := by
  unfold VideoPipeline.caught VideoPipeline.noteFailure at stays ⊢
  simp only at stays ⊢
  split
  · next fails =>
    rw [if_pos fails, VideoPipeline.fatal, if_neg (by simp [VideoPipeline.miss, open_])] at stays
    simp only [(requestRefresh_frame _ now).2.2.1] at stays
    split at stays <;> cases stays
  · exact (requestRefresh_frame _ now).2.1

theorem Inv.checkStall (h : Inv p) (now : Int) : Inv (p.checkStall now) := by
  unfold VideoPipeline.checkStall
  split
  · exact h
  · split
    · exact h
    · apply Inv.requestRefresh
      exact ⟨h.referenced, fun _ _ _ awaits => (nomatch awaits), h.enabled, h.ended⟩

theorem checkStall_frame (p : VideoPipeline Bytes) (now : Int) :
    (p.checkStall now).currentCase = p.currentCase ∧ (p.checkStall now).decoder = p.decoder := by
  unfold VideoPipeline.checkStall
  split
  · exact ⟨rfl, rfl⟩
  · split
    · exact ⟨rfl, rfl⟩
    · exact ⟨(requestRefresh_frame _ now).2.1, (requestRefresh_frame _ now).2.2.1⟩

/-- One frame under the decoder of its stream: the loop goes on under that decoder, or breaks with
a key frame awaited. -/
theorem Inv.pushOne (h : Inv p) (current : p.currentCase = some kase) (some : p.decoder.isSome)
    {f : EncodedVideoFrame Bytes} {a : Attempt}
    (unhurried : p.awaitingKey = false → f.key = false → a.decodeQueueSize ≤ maxDecodeQueue) :
    Inv (p.pushOne kase f a).1 ∧
      ((p.pushOne kase f a).2 = false →
        (p.pushOne kase f a).1.currentCase = Option.some kase ∧ (p.pushOne kase f a).1.decoder.isSome) ∧
      ((p.pushOne kase f a).2 = true → (p.pushOne kase f a).1.awaitingKey = true) := by
  obtain ⟨decoder, held⟩ := Option.isSome_iff_exists.mp some
  have open_ : p.closed = false := by
    rw [← Bool.not_eq_true]
    intro closed
    rw [h.ended closed] at held
    cases held
  unfold VideoPipeline.pushOne
  split
  · next awaits =>
    have awaiting : p.awaitingKey = true := (Bool.and_eq_true_iff.mp awaits).1
    have counted : Inv { p with framesDropped := p.framesDropped + 1 } :=
      ⟨h.referenced, h.keyed, h.enabled, h.ended⟩
    have same := requestRefresh_frame { p with framesDropped := p.framesDropped + 1 } a.now
    refine ⟨(counted.requestRefresh a.now).miss kase [f] (.inl (same.1.trans awaiting)), fun _ => ?_,
      fun breaks => nomatch breaks⟩
    refine ⟨same.2.1.trans current, ?_⟩
    change (VideoPipeline.requestRefresh _ a.now).decoder.isSome
    rw [same.2.2.1]
    exact some
  · next ready =>
    have delta : f.key = false → p.awaitingKey = false := by
      intro delta
      rw [delta, Bool.not_false, Bool.and_true] at ready
      exact Bool.eq_false_iff.mpr ready
    split
    · next hurried =>
      rw [held] at hurried
      simp only [Option.elim_some, Bool.and_eq_true, Bool.not_eq_true'] at hurried
      have fits := unhurried (delta hurried.1) hurried.1
      exact absurd (of_decide_eq_true hurried.2) (Nat.not_lt.mpr fits)
    · have keyed (chunk : EncodedVideoChunk Bytes) (kase' : EncodedCase)
          (same : Mark.submitted kase f.chunk = .submitted kase' chunk) (isDelta : chunk.key = false) :
          Keyed kase' p.marks := by
        obtain ⟨rfl, rfl⟩ := Mark.submitted.inj same
        exact h.keyed kase some current (delta isDelta)
      have referenced : Referenced (p.marks ++ [.submitted kase f.chunk]) :=
        h.referenced.concat fun kase' chunk same isDelta => keyed chunk kase' same isDelta
      simp only [held, Option.isSome_some, Bool.true_and]
      split
      · have submitted : Inv { p.mark (.submitted kase f.chunk) with awaitingKey := false } := by
          refine ⟨referenced, fun kase' _ current' _ => ?_, h.enabled, h.ended⟩
          obtain rfl := Option.some.inj (current.symm.trans current')
          by_cases key : f.key = true
          · exact keyed_submitted key
          · rw [Bool.not_eq_true] at key
            exact (h.keyed kase some current (delta key)).concat id
        have same := checkStall_frame
          { p.mark (.submitted kase f.chunk) with awaitingKey := false } a.now
        refine ⟨submitted.checkStall a.now, fun _ => ⟨same.1.trans current, ?_⟩,
          fun breaks => nomatch breaks⟩
        rw [same.2]
        exact some
      · have failed := Inv.caught (p := { p.mark (.submitted kase f.chunk) with
            decoder := Option.some (if a.closes then .closed else decoder) }) referenced h.enabled
          (fun closed => absurd (open_.symm.trans closed) (by simp)) kase f a.now
        refine ⟨failed.1, fun goesOn => ?_, fun _ => failed.2⟩
        simp only [Bool.or_eq_false_iff, Option.isNone_eq_false_iff] at goesOn
        exact ⟨(current_caught goesOn.1.2 open_).trans current, goesOn.1.2⟩

theorem Inv.pushFrames (h : Inv p) (current : p.currentCase = some kase) (some : p.decoder.isSome)
    {attempts : Nat → Attempt} {i : Nat} {frames : List (EncodedVideoFrame Bytes)}
    (unhurried : Unhurried kase attempts i frames p) : Inv (p.pushFrames kase attempts i frames) := by
  induction frames generalizing p i with
  | nil => exact h
  | cons f frames ih =>
      obtain ⟨inv, goesOn, breaks⟩ := h.pushOne current some unhurried.1
      unfold VideoPipeline.pushFrames
      simp only
      split
      · next broke => exact inv.miss kase frames (.inl (breaks broke))
      · next on =>
        have on := Bool.eq_false_iff.mpr on
        obtain ⟨current, some⟩ := goesOn on
        exact ih inv current some (unhurried.2 on)

theorem Inv.ready (h : Inv p) (open_ : p.closed = false) (enabled : kase ∉ p.disabled) (now : Int)
    (configures : Bool) : Inv (p.ready kase now configures).1 ∧
      ((p.ready kase now configures).2 = true →
        (p.ready kase now configures).1.currentCase = some kase ∧
          (p.ready kase now configures).1.decoder.isSome) ∧
      ((p.ready kase now configures).2 = false →
        (p.ready kase now configures).1.awaitingKey = true) := by
  unfold VideoPipeline.ready
  split
  · have begun : Inv ({ p.teardownDecoder with awaitingKey := true, failStreak := 0 }.mark
        (.configured kase)) :=
      ⟨h.referenced.concat fun _ _ same => (nomatch same), fun _ some => (nomatch some), h.enabled,
        fun _ => rfl⟩
    unfold VideoPipeline.configure
    simp only
    split
    · refine ⟨⟨begun.referenced, fun _ _ _ awaits => (nomatch awaits), fun other current => ?_,
        fun closed => absurd (open_.symm.trans closed) (by simp)⟩, fun _ => ⟨rfl, rfl⟩,
        fun fails => nomatch fails⟩
      obtain rfl := Option.some.inj current
      exact enabled
    · exact ⟨begun.fatal kase now, fun ready => (nomatch ready),
        fun _ => awaitingKey_fatal _ kase now⟩
  · next has =>
    simp only [Bool.or_eq_true, not_or, Option.isNone_iff_eq_none, ne_eq, decide_not,
      Bool.not_eq_true', decide_eq_false_iff_not, not_not, decide_eq_true_eq] at has
    exact ⟨h, fun _ => ⟨has.1.2, Option.isSome_iff_ne_none.mpr has.1.1⟩, fun fails => nomatch fails⟩

theorem Inv.pushFrame (h : Inv p) {union : Option (VideoUnion Bytes)} {now : Int} {configures : Bool}
    {attempts : Nat → Attempt} (orderly : p.Orderly (.pushFrame union now configures attempts)) :
    Inv (p.pushFrame union now configures attempts) := by
  unfold VideoPipeline.pushFrame
  split
  · next kase frames =>
    split
    · next closed => exact h.miss kase frames (.inr (.inl (h.ended closed)))
    · next open_ =>
      rw [Bool.not_eq_true] at open_
      split
      · next disabled =>
        refine (h.requestRefresh now).miss kase frames (.inr (.inr ?_))
        rw [(requestRefresh_frame p now).2.1]
        exact fun current => h.enabled kase current disabled
      · next enabled =>
        obtain ⟨inv, ready, failed⟩ := h.ready open_ enabled now configures
        simp only
        split
        · next configured =>
          obtain ⟨current, some⟩ := ready configured
          exact inv.pushFrames current some (orderly open_ enabled configured)
        · next fails => exact inv.miss kase frames (.inl (failed (Bool.eq_false_iff.mpr fails)))
  · exact h

theorem Inv.step (h : Inv p) {e : PipelineEvent Bytes} (orderly : p.Orderly e) : Inv (p.step e) := by
  cases e with
  | pushFrame union now configures attempts => exact h.pushFrame orderly
  | output now => exact ⟨h.referenced, h.keyed, h.enabled, h.ended⟩
  | error kase now => exact h.fatal kase now
  | decoderCloses =>
      refine ⟨h.referenced, fun kase some current awaits => ?_, h.enabled, fun closed => ?_⟩
      · exact h.keyed kase (by simpa [VideoPipeline.step] using some) current awaits
      · simp [VideoPipeline.step, h.ended closed]
  | reset now =>
      exact ⟨h.referenced.concat fun _ _ same => (nomatch same), fun _ some => (nomatch some),
        fun _ current => (nomatch current), fun _ => rfl⟩
  | close => exact ⟨h.referenced, fun _ some => (nomatch some), h.enabled, fun _ => rfl⟩

/-- In every run in which no delta is dropped for the decoder's queue, each delta that is submitted
has its reference. -/
theorem referenced_of_orderly (now : Int) (events : List (PipelineEvent Bytes))
    (orderly : Runs.Along step Orderly { lastOutputMs := now } events) :
    Referenced (Runs.run step ({ lastOutputMs := now } : VideoPipeline Bytes) events).marks :=
  (Runs.invariant_along (fun _ _ h orderly => h.step orderly) events _ (inv_begin now) orderly).referenced

end

namespace Sample

def frame (key : Bool) : EncodedVideoFrame Unit := ⟨(), key, 0⟩

/-- One frame of VP8, which finds the decoder with so much queued. -/
def push (key : Bool) (decodeQueueSize : Nat) : PipelineEvent Unit :=
  .pushFrame (some (.encoded .vp8s [frame key])) 0 true fun _ => { now := 0, decodeQueueSize }

/-- A key frame, and a delta that the decoder has no room for. -/
def full : List (PipelineEvent Unit) := [push true 0, push false 31]

end Sample

theorem slow_delta_referenced : Referenced (Runs.run step ({ lastOutputMs := 0 } : VideoPipeline Unit)
    [Sample.push true 0, Sample.push false 30, .reset 0, Sample.push false 0]).marks := by
  refine referenced_of_orderly 0 _ ⟨?_, ?_, trivial, ?_, trivial⟩
  · exact fun _ _ _ => by decide
  · exact fun _ _ _ => by decide
  · exact fun _ _ _ => by decide

/-- The delta after one that was dropped is submitted without its reference. -/
theorem delta_after_drop : ¬ Referenced (Runs.run step ({ lastOutputMs := 0 } : VideoPipeline Unit)
    (Sample.full ++ [Sample.push false 0])).marks := by
  intro referenced
  have keyed : Keyed .vp8s ([.configured .vp8s, .submitted .vp8s (Sample.frame true).chunk] ++
      [.missed .vp8s]) :=
    referenced _ .vp8s (Sample.frame false).chunk [] rfl rfl
  exact keyed.last rfl

end VideoPipeline
end WebClient
end CortenDesk
