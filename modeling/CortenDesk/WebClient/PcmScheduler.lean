import Mathlib.Algebra.Order.Field.Rat
import Mathlib.Data.Nat.Cast.Field
import Mathlib.Data.Rat.Cast.Defs
import Mathlib.Tactic.Linarith
import Mathlib.Tactic.Positivity
import CortenDesk.Lib.Runs

/-!
The scheduler of decoded audio, in exact arithmetic. A block of interleaved samples is copied into
one buffer with a plane for each channel and started behind the block before it; what would be
queued for too long is dropped. The clock is the audio context's and may show anything.
-/
namespace CortenDesk
namespace WebClient

/-- A number as JavaScript has it: finite, or one of the infinities or not a number. -/
inductive JsNumber
  | finite (value : ℚ)
  | nonFinite

/-- `Number.EPSILON`. -/
def numberEpsilon : ℚ := 1 / 2 ^ 52

structure PcmFormat where
  sampleRate : ℚ
  channels : Nat
  rate_pos : 0 < sampleRate
  channels_pos : 0 < channels
  deriving DecidableEq

/-- The options of a scheduler, and the buffers its context can create: for a count of channels, of
frames and a rate it does not support, `createBuffer` throws. -/
structure PcmOptions where
  leadSeconds : ℚ := 1 / 20
  maxQueuedSeconds : ℚ := 1 / 2
  createBuffer : Nat → Nat → ℚ → Bool

/-- What is done to the source with a number. -/
inductive SourceCall
  | start (source : Nat) (time : ℚ)
  | stop (source : Nat)
  | disconnect (source : Nat)

/-- A block that was started, with the time it was accepted at. -/
structure PcmBlock (σ : Type*) where
  pcm : List σ
  format : PcmFormat
  planes : List (List σ)
  acceptedAt : ℚ
  start : ℚ
  duration : ℚ

structure PcmScheduler where
  scheduledUntil : ℚ := 0
  format : Option PcmFormat := none
  scheduled : List Nat := []

/-- The scheduler with its context: the clock, the number of sources created, what was called on
them, and the blocks accepted since the scheduler was last reset. -/
structure Playback (σ : Type*) where
  scheduler : PcmScheduler := {}
  currentTime : ℚ := 0
  sources : Nat := 0
  calls : List SourceCall := []
  since : List (PcmBlock σ) := []

inductive EnqueueResult
  | accepted
  | rejected
  | thrown
  deriving DecidableEq

inductive PcmEvent (σ : Type*)
  | enqueue (pcm : List σ) (sampleRate channels : JsNumber)
  | reset
  | clock (time : ℚ)
  | ended (source : Nat)

/-- The format of a valid rate and count of channels. -/
def formatOf (sampleRate channels : JsNumber) : Option PcmFormat :=
  match sampleRate, channels with
  | .finite rate, .finite count =>
      if valid : 0 < rate ∧ count.den = 1 ∧ 0 < count then
        some { sampleRate := rate
               channels := count.num.toNat
               rate_pos := valid.1
               channels_pos := by
                 have positive := Rat.num_pos.mpr valid.2.2
                 omega }
      else none
  | _, _ => none

variable {σ : Type*}

/-- `reset`: what is scheduled is stopped, each call in a `try` of its own. -/
def Playback.reset (s : Playback σ) : Playback σ :=
  { s with
    scheduler := {}
    calls := s.calls ++ s.scheduler.scheduled.flatMap fun source =>
      [.stop source, .disconnect source]
    since := [] }

/-- The channels of a block, each with every `channels`-th sample. -/
def deinterleave [Inhabited σ] (pcm : List σ) (channels frames : Nat) : List (List σ) :=
  (List.range channels).map fun channel =>
    (List.range frames).map fun frame => pcm.getD (frame * channels + channel) default

/-- The scheduler with the format of the block that comes next. -/
def Playback.withFormat (s : Playback σ) (format : PcmFormat) : Playback σ :=
  if s.scheduler.format = some format then s
  else { s.reset with scheduler := { s.reset.scheduler with format := some format } }

def PcmOptions.enqueue [Inhabited σ] (options : PcmOptions) (s : Playback σ) (pcm : List σ)
    (sampleRate channels : JsNumber) : Playback σ × EnqueueResult :=
  match formatOf sampleRate channels with
  | none => (s, .rejected)
  | some format =>
      if pcm.length = 0 ∨ pcm.length % format.channels ≠ 0 then (s, .rejected)
      else
        let s := s.withFormat format
        let frames := pcm.length / format.channels
        let duration := (frames : ℚ) / format.sampleRate
        let now := s.currentTime
        let start := max (now + options.leadSeconds) s.scheduler.scheduledUntil
        if options.maxQueuedSeconds + numberEpsilon < start + duration - now then (s, .rejected)
        else if ¬ options.createBuffer format.channels frames format.sampleRate then (s, .thrown)
        else
          ({ s with
             scheduler :=
               { s.scheduler with
                 scheduledUntil := start + duration
                 scheduled := s.scheduler.scheduled ++ [s.sources] }
             sources := s.sources + 1
             calls := s.calls ++ [.start s.sources start]
             since := s.since ++
               [{ pcm := pcm
                  format := format
                  planes := deinterleave pcm format.channels frames
                  acceptedAt := now
                  start := start
                  duration := duration }] }, .accepted)

def PcmOptions.step [Inhabited σ] (options : PcmOptions) (s : Playback σ) :
    PcmEvent σ → Playback σ
  | .enqueue pcm sampleRate channels => (options.enqueue s pcm sampleRate channels).1
  | .reset => s.reset
  | .clock time => { s with currentTime := time }
  | .ended source =>
      { s with
        scheduler := { s.scheduler with scheduled := s.scheduler.scheduled.filter (· ≠ source) } }

def PcmBlock.finish (block : PcmBlock σ) : ℚ := block.start + block.duration

/-- When a block is started and ends, seen from the time of its acceptance. -/
structure PcmBlock.Timely (options : PcmOptions) (block : PcmBlock σ) : Prop where
  lead : block.acceptedAt + options.leadSeconds ≤ block.start
  bounded : block.finish ≤ block.acceptedAt + options.maxQueuedSeconds + numberEpsilon
  duration : block.duration = (block.pcm.length : ℚ) / block.format.channels / block.format.sampleRate
  audible : 0 < block.duration

/-- A plane for each channel, with the samples of that channel in their order. -/
structure PcmBlock.Deinterleaved (block : PcmBlock σ) : Prop where
  channels : block.planes.length = block.format.channels
  plane : ∀ channel plane, block.planes[channel]? = some plane →
    plane.length * block.format.channels = block.pcm.length ∧
      ∀ frame < plane.length,
        plane[frame]? = block.pcm[frame * block.format.channels + channel]?

/-- What holds of the blocks accepted since the last reset. -/
structure Playback.Scheduled (options : PcmOptions) (s : Playback σ) : Prop where
  ordered : s.since.Pairwise fun earlier later => earlier.finish ≤ later.start
  before : ∀ block ∈ s.since, block.finish ≤ s.scheduler.scheduledUntil
  timely : ∀ block ∈ s.since, block.Timely options
  samples : ∀ block ∈ s.since, block.Deinterleaved

theorem deinterleave_samples [Inhabited σ] {pcm : List σ} {channels frames : Nat}
    (whole : frames * channels = pcm.length) {channel : Nat} {plane : List σ}
    (found : (deinterleave pcm channels frames)[channel]? = some plane) :
    plane.length = frames ∧
      ∀ frame < frames, plane[frame]? = pcm[frame * channels + channel]? := by
  rw [deinterleave, List.getElem?_map] at found
  obtain ⟨c, inside, rfl⟩ := Option.map_eq_some_iff.mp found
  obtain ⟨below, rfl⟩ := List.getElem?_eq_some_iff.mp inside
  rw [List.length_range] at below
  rw [List.getElem_range]
  refine ⟨by rw [List.length_map, List.length_range], fun frame early => ?_⟩
  have within : frame * channels + channel < pcm.length := by
    have next := Nat.mul_le_mul_right channels (Nat.succ_le_of_lt early)
    rw [Nat.succ_mul] at next
    omega
  rw [List.getElem?_map, List.getElem?_range early, Option.map_some,
    List.getD_eq_getElem?_getD, List.getElem?_eq_getElem within]
  rfl

theorem scheduled_reset (options : PcmOptions) (s : Playback σ) :
    s.reset.Scheduled options where
  ordered := .nil
  before := by simp [Playback.reset]
  timely := by simp [Playback.reset]
  samples := by simp [Playback.reset]

theorem Playback.Scheduled.withFormat {options : PcmOptions} {s : Playback σ}
    (scheduled : s.Scheduled options) (format : PcmFormat) : (s.withFormat format).Scheduled options := by
  unfold Playback.withFormat
  split
  · exact scheduled
  · have fresh := scheduled_reset options s
    exact ⟨fresh.ordered, fresh.before, fresh.timely, fresh.samples⟩

section
variable [Inhabited σ] {options : PcmOptions} {s : Playback σ} {pcm : List σ}
  {sampleRate channels : JsNumber}

/-- What an accepted block adds to the state that has its format. -/
structure Accepts (options : PcmOptions) (s s' : Playback σ) (pcm : List σ) (format : PcmFormat)
    (block : PcmBlock σ) : Prop where
  some : pcm.length ≠ 0
  whole : pcm.length % format.channels = 0
  block_eq : block =
    { pcm := pcm
      format := format
      planes := deinterleave pcm format.channels (pcm.length / format.channels)
      acceptedAt := s.currentTime
      start := max (s.currentTime + options.leadSeconds) s.scheduler.scheduledUntil
      duration := ((pcm.length / format.channels : Nat) : ℚ) / format.sampleRate }
  queued : block.finish - s.currentTime ≤ options.maxQueuedSeconds + numberEpsilon
  since : s'.since = s.since ++ [block]
  scheduledUntil : s'.scheduler.scheduledUntil = block.finish

/-- What a call can do: nothing, set the format, or accept a block with it. -/
theorem enqueue_cases (s : Playback σ) (pcm : List σ) (sampleRate channels : JsNumber) :
    (options.enqueue s pcm sampleRate channels = (s, .rejected)) ∨
      ∃ format, formatOf sampleRate channels = some format ∧
        ((options.enqueue s pcm sampleRate channels).1 = s.withFormat format ∧
            (options.enqueue s pcm sampleRate channels).2 ≠ .accepted ∨
          (options.enqueue s pcm sampleRate channels).2 = .accepted ∧
            ∃ block, Accepts options (s.withFormat format)
              (options.enqueue s pcm sampleRate channels).1 pcm format block) := by
  unfold PcmOptions.enqueue
  split
  · exact .inl rfl
  · next format valid =>
      split
      · exact .inl rfl
      · next shape =>
          rw [not_or, not_not] at shape
          refine .inr ⟨format, valid, ?_⟩
          dsimp only
          split
          · exact .inl ⟨rfl, fun same => by cases same⟩
          · next queued =>
              split
              · exact .inl ⟨rfl, fun same => by cases same⟩
              · exact .inr ⟨rfl, _, ⟨shape.1, shape.2, rfl, not_lt.mp queued, rfl, rfl⟩⟩

theorem Accepts.timely {s' : Playback σ} {format : PcmFormat} {block : PcmBlock σ}
    (accepts : Accepts options s s' pcm format block) : block.Timely options := by
  have whole := Nat.div_mul_cancel (Nat.dvd_of_mod_eq_zero accepts.whole)
  have counted : format.channels ≠ 0 := Nat.ne_of_gt format.channels_pos
  have frames : 0 < pcm.length / format.channels := by
    rw [Nat.pos_iff_ne_zero]
    intro none
    rw [none, Nat.zero_mul] at whole
    exact accepts.some whole.symm
  have ends := accepts.queued
  have rate := format.rate_pos
  obtain rfl := accepts.block_eq
  refine ⟨le_max_left _ _, ?_, ?_, ?_⟩
  · simp only at ends ⊢
    linarith
  · simp only
    rw [Nat.cast_div (Nat.dvd_of_mod_eq_zero accepts.whole) (by exact_mod_cast counted)]
  · have some : (0 : ℚ) < (pcm.length / format.channels : Nat) := by exact_mod_cast frames
    simp only
    positivity

theorem Accepts.samples {s' : Playback σ} {format : PcmFormat} {block : PcmBlock σ}
    (accepts : Accepts options s s' pcm format block) : block.Deinterleaved := by
  have whole := Nat.div_mul_cancel (Nat.dvd_of_mod_eq_zero accepts.whole)
  obtain rfl := accepts.block_eq
  refine ⟨by simp [deinterleave], fun channel plane found => ?_⟩
  obtain ⟨length, sample⟩ := deinterleave_samples whole found
  exact ⟨by rw [length]; exact whole, fun frame early => sample frame (length ▸ early)⟩

/-- An accepted block starts where everything before it has ended. -/
theorem Playback.Scheduled.accepts {s' : Playback σ} {format : PcmFormat} {block : PcmBlock σ}
    (scheduled : s.Scheduled options) (accepts : Accepts options s s' pcm format block) :
    s'.Scheduled options := by
  have behind : s.scheduler.scheduledUntil ≤ block.start := by
    rw [accepts.block_eq]
    exact le_max_right _ _
  have lasts : block.start ≤ block.finish := by
    have audible := accepts.timely.audible
    simp only [PcmBlock.finish]
    linarith
  constructor
  · rw [accepts.since, List.pairwise_append]
    refine ⟨scheduled.ordered, List.pairwise_singleton _ _, fun earlier mem later last => ?_⟩
    rw [List.mem_singleton.mp last]
    exact (scheduled.before earlier mem).trans behind
  · intro other mem
    rw [accepts.scheduledUntil]
    rw [accepts.since, List.mem_append, List.mem_singleton] at mem
    obtain mem | rfl := mem
    · exact ((scheduled.before other mem).trans behind).trans lasts
    · exact le_refl _
  · intro other mem
    rw [accepts.since, List.mem_append, List.mem_singleton] at mem
    obtain mem | rfl := mem
    · exact scheduled.timely other mem
    · exact accepts.timely
  · intro other mem
    rw [accepts.since, List.mem_append, List.mem_singleton] at mem
    obtain mem | rfl := mem
    · exact scheduled.samples other mem
    · exact accepts.samples

theorem Playback.Scheduled.enqueue (scheduled : s.Scheduled options) (pcm : List σ)
    (sampleRate channels : JsNumber) :
    (options.enqueue s pcm sampleRate channels).1.Scheduled options := by
  cases enqueue_cases s pcm sampleRate channels with
  | inl unchanged => rw [unchanged]; exact scheduled
  | inr formatted =>
      obtain ⟨format, -, outcome⟩ := formatted
      cases outcome with
      | inl refused => rw [refused.1]; exact scheduled.withFormat format
      | inr accepted =>
          obtain ⟨block, accepts⟩ := accepted.2
          exact (scheduled.withFormat format).accepts accepts

theorem Playback.Scheduled.step (scheduled : s.Scheduled options) (event : PcmEvent σ) :
    (options.step s event).Scheduled options := by
  cases event with
  | enqueue pcm sampleRate channels => exact scheduled.enqueue pcm sampleRate channels
  | reset => exact scheduled_reset options s
  | clock time => exact ⟨scheduled.ordered, scheduled.before, scheduled.timely, scheduled.samples⟩
  | ended source =>
      exact ⟨scheduled.ordered, scheduled.before, scheduled.timely, scheduled.samples⟩

/-- A block that is not accepted changes at most the format. -/
theorem enqueue_unchanged (s : Playback σ) (pcm : List σ) (sampleRate channels : JsNumber)
    (same : ∀ format, formatOf sampleRate channels = some format → s.scheduler.format = some format)
    (refused : (options.enqueue s pcm sampleRate channels).2 ≠ .accepted) :
    (options.enqueue s pcm sampleRate channels).1 = s := by
  cases enqueue_cases s pcm sampleRate channels with
  | inl unchanged => rw [unchanged]
  | inr formatted =>
      obtain ⟨format, valid, outcome⟩ := formatted
      cases outcome with
      | inl refused => rw [refused.1, Playback.withFormat, if_pos (same format valid)]
      | inr accepted => exact absurd accepted.1 refused

end

theorem run_scheduled [Inhabited σ] (options : PcmOptions) (events : List (PcmEvent σ)) :
    (Runs.run options.step {} events).Scheduled options :=
  Runs.invariant (I := Playback.Scheduled options) (fun _ event scheduled => scheduled.step event)
    {} events
    { ordered := .nil
      before := by simp
      timely := by simp
      samples := by simp }

/-- What was accepted since the last reset is played in order and without overlap, each block in
its time and with its samples; what is not accepted changes nothing without a new format. -/
theorem audio_in_order [Inhabited σ] (options : PcmOptions) (events : List (PcmEvent σ)) :
    ((Runs.run options.step {} events).since.Pairwise fun earlier later =>
        earlier.start < later.start ∧ earlier.finish ≤ later.start) ∧
      (∀ block ∈ (Runs.run options.step {} events).since,
        block.Timely options ∧ block.Deinterleaved) ∧
      ∀ pcm sampleRate channels,
        (∀ format, formatOf sampleRate channels = some format →
          (Runs.run options.step {} events).scheduler.format = some format) →
        (options.enqueue (Runs.run options.step {} events) pcm sampleRate channels).2 ≠ .accepted →
        (options.enqueue (Runs.run options.step {} events) pcm sampleRate channels).1 =
          Runs.run options.step {} events := by
  have scheduled := run_scheduled options events
  refine ⟨scheduled.ordered.imp_of_mem fun {earlier later} mem _ apart => ⟨?_, apart⟩,
    fun block mem => ⟨scheduled.timely block mem, scheduled.samples block mem⟩,
    fun pcm sampleRate channels => enqueue_unchanged _ pcm sampleRate channels⟩
  have audible := (scheduled.timely earlier mem).audible
  simp only [PcmBlock.finish] at apart
  linarith

/-- Options with a queue that is shorter than a frame at 8000 Hz by the tolerance. -/
def shortQueue : PcmOptions where
  leadSeconds := 0
  maxQueuedSeconds := 1 / 8000 - numberEpsilon
  createBuffer := fun _ _ _ => true

/-- Such a frame is accepted and ends behind the queue. -/
theorem block_ends_late :
    ∃ block ∈ (Runs.run shortQueue.step ({} : Playback ℚ)
        [.enqueue [0] (.finite 8000) (.finite 1)]).since,
      block.acceptedAt + shortQueue.maxQueuedSeconds < block.finish := by
  have mono : formatOf (.finite 8000) (.finite 1) = some ⟨8000, 1, by norm_num, by decide⟩ := by
    simp [formatOf]
  have fresh : ∀ format, ({} : Playback ℚ).withFormat format =
      { scheduler := { format := some format } } := by
    intro format
    rw [Playback.withFormat, if_neg (by simp)]
    rfl
  simp only [Runs.run_cons, Runs.run_nil, PcmOptions.step, PcmOptions.enqueue, mono, fresh]
  norm_num [shortQueue, numberEpsilon, PcmBlock.finish]

end WebClient
end CortenDesk
