import CortenDesk.Lib.Runs

/-!
The pipeline that feeds the video decoder: what it submits, and what it drops. The decoder is the
environment: whether it can be configured, how much it has queued, whether `decode` throws, when
it puts out a frame or an error. The statistics of a window are left out.
-/
namespace CortenDesk
namespace WebClient

inductive EncodedCase
  | vp9s
  | vp8s
  | h264s
  | h265s
  | av1s
  deriving DecidableEq

structure EncodedVideoFrame (Bytes : Type) where
  data : Bytes
  key : Bool
  pts : Int

/-- The union of a video frame; raw frames are never sent over a relay. -/
inductive VideoUnion (Bytes : Type)
  | encoded (kase : EncodedCase) (frames : List (EncodedVideoFrame Bytes))
  | raw

structure EncodedVideoChunk (Bytes : Type) where
  key : Bool
  timestamp : Int
  data : Bytes

def EncodedVideoFrame.chunk {Bytes : Type} (f : EncodedVideoFrame Bytes) : EncodedVideoChunk Bytes :=
  ⟨f.key, f.pts * 1000, f.data⟩

inductive DecoderState
  | configured
  | closed
  deriving DecidableEq

/-- What the pipeline finds as it comes to a frame: the time, the decoder's queue, whether `decode`
goes through, and whether the decoder is closed when it throws. -/
structure Attempt where
  now : Int
  decodeQueueSize : Nat := 0
  decodes : Bool := true
  closes : Bool := false

/-- What happened to the frames of the streams. -/
inductive Mark (Bytes : Type)
  | configured (kase : EncodedCase)
  | reset
  | submitted (kase : EncodedCase) (chunk : EncodedVideoChunk Bytes)
  | missed (kase : EncodedCase)

structure VideoPipeline (Bytes : Type) where
  decoder : Option DecoderState := none
  currentCase : Option EncodedCase := none
  awaitingKey : Bool := true
  failStreak : Nat := 0
  disabled : List EncodedCase := []
  lastRefreshMs : Int := 0
  framesDropped : Nat := 0
  closed : Bool := false
  framesOut : Nat := 0
  lastOutputMs : Int
  refreshes : Nat := 0
  readvertised : List EncodedCase := []
  marks : List (Mark Bytes) := []

inductive PipelineEvent (Bytes : Type)
  | pushFrame (union : Option (VideoUnion Bytes)) (now : Int) (configures : Bool)
      (attempts : Nat → Attempt)
  | output (now : Int)
  | error (kase : EncodedCase) (now : Int)
  | decoderCloses
  | reset (now : Int)
  | close

namespace VideoPipeline

def maxDecodeFail : Nat := 3

def refreshDebounceMs : Int := 1000

def maxDecodeQueue : Nat := 30

def stallTimeoutMs : Int := 2500

section
variable {Bytes : Type}

def mark (p : VideoPipeline Bytes) (m : Mark Bytes) : VideoPipeline Bytes :=
  { p with marks := p.marks ++ [m] }

/-- Frames of a stream that are not submitted. -/
def miss (p : VideoPipeline Bytes) (kase : EncodedCase) (frames : List (EncodedVideoFrame Bytes)) :
    VideoPipeline Bytes :=
  { p with marks := p.marks ++ frames.map fun _ => .missed kase }

def requestRefresh (p : VideoPipeline Bytes) (now : Int) : VideoPipeline Bytes :=
  if now - p.lastRefreshMs < refreshDebounceMs then p
  else { p with lastRefreshMs := now, refreshes := p.refreshes + 1 }

def teardownDecoder (p : VideoPipeline Bytes) : VideoPipeline Bytes := { p with decoder := none }

def fatal (p : VideoPipeline Bytes) (kase : EncodedCase) (now : Int) : VideoPipeline Bytes :=
  if p.closed then p
  else
    let p := { p.teardownDecoder with currentCase := none }
    let p :=
      if kase ∈ p.disabled then p
      else { p with disabled := p.disabled ++ [kase], readvertised := p.readvertised ++ [kase] }
    p.requestRefresh now

def configure (p : VideoPipeline Bytes) (kase : EncodedCase) (now : Int) (configures : Bool) :
    VideoPipeline Bytes × Bool :=
  let p := { p.teardownDecoder with awaitingKey := true, failStreak := 0 }.mark (.configured kase)
  if configures then ({ p with decoder := some .configured, currentCase := some kase }, true)
  else (p.fatal kase now, false)

def noteFailure (p : VideoPipeline Bytes) (kase : EncodedCase) (now : Int) : VideoPipeline Bytes :=
  let p :=
    { p with framesDropped := p.framesDropped + 1, awaitingKey := true, failStreak := p.failStreak + 1 }
  if p.failStreak ≥ maxDecodeFail then p.fatal kase now else p.requestRefresh now

def checkStall (p : VideoPipeline Bytes) (now : Int) : VideoPipeline Bytes :=
  if p.closed then p
  else if now - p.lastOutputMs < stallTimeoutMs then p
  else { p with lastOutputMs := now, awaitingKey := true }.requestRefresh now

/-- A frame that the pipeline drops. -/
def drop (p : VideoPipeline Bytes) (kase : EncodedCase) (f : EncodedVideoFrame Bytes) (now : Int) :
    VideoPipeline Bytes :=
  ({ p with framesDropped := p.framesDropped + 1 }.requestRefresh now).miss kase [f]

/-- The catch around `decode`. -/
def caught (p : VideoPipeline Bytes) (kase : EncodedCase) (f : EncodedVideoFrame Bytes) (now : Int) :
    VideoPipeline Bytes :=
  (p.miss kase [f]).noteFailure kase now

/-- The body of the loop, and whether it breaks. -/
def pushOne (p : VideoPipeline Bytes) (kase : EncodedCase) (f : EncodedVideoFrame Bytes)
    (a : Attempt) : VideoPipeline Bytes × Bool :=
  if p.awaitingKey && ! f.key then (p.drop kase f a.now, false)
  else if ! f.key && (p.decoder.elim 0 fun _ => a.decodeQueueSize) > maxDecodeQueue then
    (p.drop kase f a.now, false)
  else
    let failed :=
      match p.decoder with
      | none => p.caught kase f a.now
      | some decoder =>
          { p.mark (.submitted kase f.chunk) with
            decoder := some (if a.closes then .closed else decoder) }.caught kase f a.now
    if p.decoder.isSome && a.decodes then
      ({ p.mark (.submitted kase f.chunk) with awaitingKey := false }.checkStall a.now, false)
    else (failed, kase ∈ failed.disabled || failed.decoder.isNone || failed.decoder = some .closed)

def pushFrames (p : VideoPipeline Bytes) (kase : EncodedCase) (attempts : Nat → Attempt) :
    Nat → List (EncodedVideoFrame Bytes) → VideoPipeline Bytes
  | _, [] => p
  | i, f :: frames =>
      let (p, breaks) := p.pushOne kase f (attempts i)
      if breaks then p.miss kase frames else p.pushFrames kase attempts (i + 1) frames

/-- A decoder for the stream, configured if the one there is not. -/
def ready (p : VideoPipeline Bytes) (kase : EncodedCase) (now : Int) (configures : Bool) :
    VideoPipeline Bytes × Bool :=
  if p.decoder.isNone || p.currentCase ≠ some kase || p.decoder = some .closed then
    p.configure kase now configures
  else (p, true)

def pushFrame (p : VideoPipeline Bytes) (union : Option (VideoUnion Bytes)) (now : Int)
    (configures : Bool) (attempts : Nat → Attempt) : VideoPipeline Bytes :=
  match union with
  | some (.encoded kase frames) =>
      if p.closed then p.miss kase frames
      else if kase ∈ p.disabled then (p.requestRefresh now).miss kase frames
      else
        let (p, ready) := p.ready kase now configures
        if ready then p.pushFrames kase attempts 0 frames else p.miss kase frames
  | _ => p

def reset (p : VideoPipeline Bytes) (now : Int) : VideoPipeline Bytes :=
  { p.teardownDecoder with
    currentCase := none, awaitingKey := true, failStreak := 0, framesOut := 0
    lastOutputMs := now }.mark .reset

def close (p : VideoPipeline Bytes) : VideoPipeline Bytes := { p with closed := true }.teardownDecoder

def handleOutput (p : VideoPipeline Bytes) (now : Int) : VideoPipeline Bytes :=
  { p with failStreak := 0, framesOut := p.framesOut + 1, lastOutputMs := now }

def step (p : VideoPipeline Bytes) : PipelineEvent Bytes → VideoPipeline Bytes
  | .pushFrame union now configures attempts => p.pushFrame union now configures attempts
  | .output now => p.handleOutput now
  | .error kase now => p.fatal kase now
  | .decoderCloses => { p with decoder := p.decoder.map fun _ => .closed }
  | .reset now => p.reset now
  | .close => p.close

end
end VideoPipeline
end WebClient
end CortenDesk
