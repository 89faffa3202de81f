import CortenDesk.Lib.Runs
import CortenDesk.WebClient.VideoPipeline
import Mathlib.Data.List.TakeWhile

/-!
The codecs that a session advertises, which two write: the preference of the user works on the
session's own copy, and a codec that the pipeline disables is taken out of the original probe.
-/
namespace CortenDesk
namespace WebClient

inductive PreferCodec
  | auto
  | vp9
  | h264
  | h265
  | vp8
  | av1
  deriving DecidableEq

/-- The codec that a preference is for. -/
def PreferCodec.codec : PreferCodec → Option EncodedCase
  | .auto => none
  | .vp9 => some .vp9s
  | .h264 => some .h264s
  | .h265 => some .h265s
  | .vp8 => some .vp8s
  | .av1 => some .av1s

structure SupportedDecoding where
  abilityVp9 : Nat := 0
  abilityVp8 : Nat := 0
  abilityH264 : Nat := 0
  abilityAv1 : Nat := 0
  abilityH265 : Nat := 0
  prefer : PreferCodec := .auto
  deriving DecidableEq

namespace SupportedDecoding

def ability (sd : SupportedDecoding) : EncodedCase → Nat
  | .vp9s => sd.abilityVp9
  | .vp8s => sd.abilityVp8
  | .h264s => sd.abilityH264
  | .h265s => sd.abilityH265
  | .av1s => sd.abilityAv1

/-- A case of the switch of `readvertise`. -/
def without (sd : SupportedDecoding) : EncodedCase → SupportedDecoding
  | .vp9s => { sd with abilityVp9 := 0 }
  | .vp8s => { sd with abilityVp8 := 0 }
  | .h264s => { sd with abilityH264 := 0 }
  | .h265s => { sd with abilityH265 := 0 }
  | .av1s => { sd with abilityAv1 := 0 }

def codecNames (sd : SupportedDecoding) : List PreferCodec :=
  [.auto] ++ (if sd.abilityVp9 > 0 then [.vp9] else []) ++
    (if sd.abilityH264 > 0 then [.h264] else []) ++
    (if sd.abilityH265 > 0 then [.h265] else []) ++
    (if sd.abilityVp8 > 0 then [.vp8] else []) ++ (if sd.abilityAv1 > 0 then [.av1] else [])

/-- The test of `setPreferredCodec`. -/
def supports (sd : SupportedDecoding) (prefer : PreferCodec) : Bool :=
  prefer == .auto ||
    (prefer == .vp9 && sd.abilityVp9 > 0) ||
    (prefer == .h264 && sd.abilityH264 > 0) ||
    (prefer == .h265 && sd.abilityH265 > 0) ||
    (prefer == .vp8 && sd.abilityVp8 > 0) ||
    (prefer == .av1 && sd.abilityAv1 > 0)

end SupportedDecoding

/-- What the browser can decode: with WebCodecs, or through Media Source Extensions. -/
structure DecodingEnvironment where
  videoDecoder : Bool
  isConfigSupported : EncodedCase → Bool
  mseH264Available : Bool

def probeSupportedDecoding (env : DecodingEnvironment) : SupportedDecoding :=
  let probe (codec : EncodedCase) : Nat :=
    if env.videoDecoder && env.isConfigSupported codec then 1 else 0
  { abilityVp9 := probe .vp9s
    abilityVp8 := probe .vp8s
    abilityH264 := if ! env.videoDecoder && env.mseH264Available then 1 else probe .h264s
    abilityAv1 := probe .av1s
    abilityH265 := 0
    prefer := .auto }

/-- The pipeline of a host: one that decodes, or one that forwards what can be played as H.264. -/
inductive HostVideo (Bytes : Type)
  | decoding (pipeline : VideoPipeline Bytes)
  | forwarding

def HostVideo.disabledCodecs {Bytes : Type} : HostVideo Bytes → List EncodedCase
  | .decoding pipeline => pipeline.disabled
  | .forwarding => [.vp8s, .vp9s, .av1s, .h265s]

/-- The part of a session that tells its peer what it can decode. -/
structure DecodingSession where
  decoding : SupportedDecoding := { abilityVp9 := 1, abilityVp8 := 1 }
  loginSent : Bool := false
  told : List SupportedDecoding := []

namespace DecodingSession

def setSupportedDecoding (s : DecodingSession) (sd : SupportedDecoding) : DecodingSession :=
  let s := { s with decoding := sd }
  if s.loginSent then { s with told := s.told ++ [sd] } else s

def setPreferredCodec (s : DecodingSession) (prefer : PreferCodec) : DecodingSession × Bool :=
  if ! s.decoding.supports prefer then (s, false)
  else (s.setSupportedDecoding { s.decoding with prefer }, true)

/-- The login request, with the decoding of the session. -/
def login (s : DecodingSession) : DecodingSession :=
  { s with loginSent := true, told := s.told ++ [s.decoding] }

end DecodingSession

inductive CodecNote
  | accepted (prefer : PreferCodec)
  | disabled (codec : EncodedCase)
  deriving DecidableEq

/-- A host with its session; `history` is of what has changed the codecs, the newest first. -/
structure CodecHost (Bytes : Type) where
  probe : SupportedDecoding
  video : HostVideo Bytes
  session : DecodingSession
  codecSupport : List (List PreferCodec)
  history : List CodecNote := []

inductive CodecEvent
  | preferredCodec (prefer : PreferCodec)
  | failure (codec : EncodedCase) (now : Int)
  | login

namespace CodecHost
section
variable {Bytes : Type}

/-- The host as it has created its session. -/
def connect (env : DecodingEnvironment) (now : Int) : CodecHost Bytes :=
  let probe := probeSupportedDecoding env
  let session : DecodingSession := {}
  { probe
    video :=
      if ! env.videoDecoder && env.mseH264Available then .forwarding
      else .decoding { lastOutputMs := now }
    session := session.setSupportedDecoding probe
    codecSupport := [probe.codecNames] }

def readvertise (w : CodecHost Bytes) : CodecHost Bytes :=
  let sd := w.video.disabledCodecs.foldl SupportedDecoding.without w.probe
  { w with
    session := w.session.setSupportedDecoding sd
    codecSupport := w.codecSupport ++ [sd.codecNames] }

def preferredCodec (w : CodecHost Bytes) (prefer : PreferCodec) : CodecHost Bytes :=
  match w.session.setPreferredCodec prefer with
  | (session, true) => { w with session, history := .accepted prefer :: w.history }
  | (session, false) => { w with session }

/-- The pipeline gives a codec up, and has it advertised no longer if that is new. -/
def failure (w : CodecHost Bytes) (codec : EncodedCase) (now : Int) : CodecHost Bytes :=
  match w.video with
  | .forwarding => w
  | .decoding pipeline =>
      let failed := pipeline.fatal codec now
      let w := { w with video := .decoding failed }
      if failed.readvertised.length > pipeline.readvertised.length then
        { w.readvertise with history := .disabled codec :: w.history }
      else w

def step (w : CodecHost Bytes) : CodecEvent → CodecHost Bytes
  | .preferredCodec prefer => w.preferredCodec prefer
  | .failure codec now => w.failure codec now
  | .login => { w with session := w.session.login }

/-- The preferences that were accepted, the newest first. -/
def accepted (history : List CodecNote) : List PreferCodec :=
  history.filterMap fun
    | .accepted prefer => some prefer
    | .disabled _ => none

/-- The preference that counts: the newest whose codec is advertised. -/
def chosen (history : List CodecNote) (sd : SupportedDecoding) : PreferCodec :=
  ((accepted history).find? sd.supports).getD .auto

/-- What was handed to the session last has the codecs that were probed and are not disabled, and
the preference that counts. -/
structure Reflects (w : CodecHost Bytes) : Prop where
  codecs : ∀ codec, w.session.decoding.ability codec =
    if codec ∈ w.video.disabledCodecs then 0 else w.probe.ability codec
  prefer : w.session.decoding.prefer = chosen w.history w.session.decoding

/-- No codec was disabled since the newest preference was accepted, or every codec preferred since
the automatic choice is disabled. -/
def Stands (w : CodecHost Bytes) : Prop :=
  match w.history with
  | .disabled _ :: earlier =>
      ∀ prefer ∈ (accepted earlier).takeWhile (· ≠ .auto), ∀ codec ∈ prefer.codec,
        codec ∈ w.video.disabledCodecs
  | _ => True

@[simp] theorem ability_without (sd : SupportedDecoding) (codec other : EncodedCase) :
    (sd.without codec).ability other = if other = codec then 0 else sd.ability other := by
  cases codec <;> cases other <;> rfl

theorem ability_foldl (codecs : List EncodedCase) (sd : SupportedDecoding) (codec : EncodedCase) :
    (codecs.foldl SupportedDecoding.without sd).ability codec =
      if codec ∈ codecs then 0 else sd.ability codec := by
  induction codecs generalizing sd with
  | nil => rfl
  | cons first codecs ih =>
      rw [List.foldl_cons, ih, ability_without]
      by_cases later : codec ∈ codecs
      · rw [if_pos later, if_pos (List.mem_cons_of_mem first later)]
      · simp [later]

theorem prefer_foldl (codecs : List EncodedCase) (sd : SupportedDecoding) :
    (codecs.foldl SupportedDecoding.without sd).prefer = sd.prefer := by
  induction codecs generalizing sd with
  | nil => rfl
  | cons first codecs ih =>
      rw [List.foldl_cons, ih]
      cases first <;> rfl

/-- A preference is supported where its codec is advertised. -/
theorem supports_iff {sd : SupportedDecoding} {prefer : PreferCodec} :
    sd.supports prefer = true ↔ ∀ codec ∈ prefer.codec, 0 < sd.ability codec := by
  cases prefer <;> simp [SupportedDecoding.supports, PreferCodec.codec, SupportedDecoding.ability]

theorem ability_prefer (sd : SupportedDecoding) (prefer : PreferCodec) (codec : EncodedCase) :
    ({ sd with prefer } : SupportedDecoding).ability codec = sd.ability codec := by
  cases codec <;> rfl

/-- A codec that is given up is new exactly where it is reported. -/
theorem fatal_cases (pipeline : VideoPipeline Bytes) (codec : EncodedCase) (now : Int) :
    ((pipeline.fatal codec now).readvertised = pipeline.readvertised ∧
      (pipeline.fatal codec now).disabled = pipeline.disabled) ∨
    ((pipeline.fatal codec now).readvertised = pipeline.readvertised ++ [codec] ∧
      (pipeline.fatal codec now).disabled = pipeline.disabled ++ [codec]) := by
  have refreshed (p : VideoPipeline Bytes) : (p.requestRefresh now).readvertised = p.readvertised ∧
      (p.requestRefresh now).disabled = p.disabled := by
    unfold VideoPipeline.requestRefresh
    split <;> exact ⟨rfl, rfl⟩
  unfold VideoPipeline.fatal
  split
  · exact .inl ⟨rfl, rfl⟩
  · simp only [refreshed]
    split
    · exact .inl ⟨rfl, rfl⟩
    · exact .inr ⟨rfl, rfl⟩

structure Inv (w : CodecHost Bytes) : Prop where
  codecs : ∀ codec, w.session.decoding.ability codec =
    if codec ∈ w.video.disabledCodecs then 0 else w.probe.ability codec
  probe : w.probe.prefer = .auto
  probed : ∀ prefer ∈ accepted w.history, ∀ codec ∈ prefer.codec, 0 < w.probe.ability codec
  prefer : w.session.decoding.prefer =
    match w.history with
    | .accepted prefer :: _ => prefer
    | _ => .auto
  newest : ∀ prefer earlier, w.history = .accepted prefer :: earlier →
    w.session.decoding.supports prefer = true

theorem setSupportedDecoding_decoding (s : DecodingSession) (sd : SupportedDecoding) :
    (s.setSupportedDecoding sd).decoding = sd := by
  unfold DecodingSession.setSupportedDecoding
  dsimp only
  split <;> rfl

theorem inv_connect (env : DecodingEnvironment) (now : Int) :
    Inv (connect env now : CodecHost Bytes) where
  codecs codec := by
    simp only [connect, setSupportedDecoding_decoding]
    split
    · next forwards =>
      simp only [Bool.and_eq_true, Bool.not_eq_true'] at forwards
      cases codec <;> simp [probeSupportedDecoding, SupportedDecoding.ability,
        HostVideo.disabledCodecs, forwards]
    · rfl
  probe := rfl
  probed prefer mem := by cases mem
  prefer := by
    simp only [connect, setSupportedDecoding_decoding]
    rfl
  newest prefer earlier is := by cases is

theorem Inv.preferredCodec {w : CodecHost Bytes} (h : Inv w) (prefer : PreferCodec) :
    Inv (w.preferredCodec prefer) := by
  simp only [CodecHost.preferredCodec, DecodingSession.setPreferredCodec]
  by_cases supported : w.session.decoding.supports prefer = true
  · simp only [supported, Bool.not_true, Bool.false_eq_true, if_false]
    refine ⟨fun codec => ?_, h.probe, fun other mem codec of => ?_, ?_, fun other earlier is => ?_⟩
    · simp only [setSupportedDecoding_decoding, ability_prefer]
      exact h.codecs codec
    · rcases List.mem_cons.mp mem with rfl | old
      · have positive := supports_iff.mp supported codec of
        rw [h.codecs] at positive
        split at positive
        · exact absurd positive (Nat.lt_irrefl 0)
        · exact positive
      · exact h.probed other old codec of
    · rw [setSupportedDecoding_decoding]
    · cases is
      rw [setSupportedDecoding_decoding]
      refine supports_iff.mpr fun codec of => ?_
      rw [ability_prefer]
      exact supports_iff.mp supported codec of
  · simp only [supported, Bool.not_false, if_true]
    exact h

theorem Inv.readvertise {w : CodecHost Bytes} (probe : w.probe.prefer = .auto)
    (probed : ∀ prefer ∈ accepted w.history, ∀ codec ∈ prefer.codec, 0 < w.probe.ability codec)
    (codec : EncodedCase) :
    Inv { w.readvertise with history := .disabled codec :: w.history } where
  codecs other := by
    simp only [CodecHost.readvertise, setSupportedDecoding_decoding]
    exact ability_foldl _ _ other
  probe := probe
  probed := probed
  prefer := by
    simp only [CodecHost.readvertise, setSupportedDecoding_decoding, prefer_foldl]
    exact probe
  newest prefer earlier is := by cases is

theorem Inv.failure {w : CodecHost Bytes} (h : Inv w) (codec : EncodedCase) (now : Int) :
    Inv (w.failure codec now) := by
  simp only [CodecHost.failure]
  split
  · exact h
  · next pipeline video =>
    rcases fatal_cases pipeline codec now with ⟨readvertised, disabled⟩ | ⟨readvertised, disabled⟩
    · rw [if_neg (by rw [readvertised]; exact Nat.lt_irrefl _)]
      refine ⟨fun other => ?_, h.probe, h.probed, h.prefer, h.newest⟩
      have before := h.codecs other
      rw [video] at before
      simp only [HostVideo.disabledCodecs, disabled]
      exact before
    · rw [if_pos (by rw [readvertised]; simp)]
      exact Inv.readvertise (w := { w with video := .decoding (pipeline.fatal codec now) }) h.probe
        h.probed codec

theorem Inv.step {w : CodecHost Bytes} (h : Inv w) (event : CodecEvent) : Inv (w.step event) := by
  cases event with
  | preferredCodec prefer => exact h.preferredCodec prefer
  | failure codec now => exact h.failure codec now
  | login => exact ⟨h.codecs, h.probe, h.probed, h.prefer, h.newest⟩

/-- The newest that counts is the automatic choice exactly if none since the last such choice
counts. -/
theorem find?_auto {counts : PreferCodec → Bool} (auto : counts .auto = true)
    (prefers : List PreferCodec) : (prefers.find? counts).getD .auto = .auto ↔
      ∀ prefer ∈ prefers.takeWhile (· ≠ .auto), counts prefer = false := by
  induction prefers with
  | nil => simp
  | cons first prefers ih =>
      by_cases same : first = .auto
      · subst same
        simp [auto]
      · rw [List.takeWhile_cons_of_pos (by simpa using same), List.forall_mem_cons]
        cases counted : counts first with
        | true => simp [counted, same]
        | false => simp only [List.find?_cons, counted, true_and, ih]

/-- A codec that was preferred counts until it is disabled. -/
theorem Inv.unsupported_iff {w : CodecHost Bytes} (h : Inv w) {prefer : PreferCodec}
    (named : prefer ≠ .auto) (mem : prefer ∈ accepted w.history) :
    w.session.decoding.supports prefer = false ↔
      ∀ codec ∈ prefer.codec, codec ∈ w.video.disabledCodecs := by
  obtain ⟨codec, is⟩ : ∃ codec, prefer.codec = some codec := by
    cases prefer with
    | auto => exact absurd rfl named
    | _ => exact ⟨_, rfl⟩
  have probed := h.probed prefer mem codec is
  rw [← Bool.not_eq_true, supports_iff, is]
  simp only [Option.mem_some_iff, forall_eq', h.codecs]
  split
  · next disabled => exact iff_of_true (Nat.lt_irrefl 0) disabled
  · next working => exact iff_of_false (not_not_intro probed) working

theorem Inv.reflects_iff {w : CodecHost Bytes} (h : Inv w) : Reflects w ↔ Stands w := by
  have codecs : Reflects w ↔ w.session.decoding.prefer = chosen w.history w.session.decoding :=
    ⟨Reflects.prefer, fun prefer => ⟨h.codecs, prefer⟩⟩
  rw [codecs, h.prefer, Stands]
  cases history : w.history with
  | nil => simp [chosen, accepted]
  | cons note earlier =>
      cases note with
      | accepted prefer =>
          have counts := h.newest prefer earlier history
          simp [chosen, accepted, counts]
      | disabled codec =>
          have auto : w.session.decoding.supports .auto = true := rfl
          have same : chosen (.disabled codec :: earlier) w.session.decoding =
              ((accepted earlier).find? w.session.decoding.supports).getD .auto := rfl
          rw [same, eq_comm, find?_auto auto]
          refine forall₂_congr fun prefer mem => ?_
          have named : prefer ≠ .auto := by simpa using List.mem_takeWhile_imp mem
          have old : prefer ∈ accepted w.history := by
            rw [history]
            exact (List.takeWhile_sublist _).subset mem
          exact h.unsupported_iff named old

/-- What a session advertises reflects the disabled codecs and the choice of the user exactly if no
disabled codec has come over a preference that counts. -/
theorem reflects_iff_stands (env : DecodingEnvironment) (now : Int) (events : List CodecEvent) :
    Reflects (Runs.run step (connect env now : CodecHost Bytes) events) ↔
      Stands (Runs.run step (connect env now : CodecHost Bytes) events) := by
  have inv : Inv (Runs.run step (connect env now : CodecHost Bytes) events) :=
    Runs.invariant (I := Inv) (fun _ event h => h.step event) _ events (inv_connect env now)
  exact inv.reflects_iff

/-- A preference is forgotten when another codec is disabled. -/
theorem preference_forgotten : ¬ Reflects (Runs.run step
    (connect ⟨true, fun _ => true, false⟩ 0 : CodecHost UInt8)
    [.login, .preferredCodec .vp9, .failure .h264s 10]) :=
  fun reflects => absurd reflects.prefer (by decide)

end
end CodecHost
end WebClient
end CortenDesk
