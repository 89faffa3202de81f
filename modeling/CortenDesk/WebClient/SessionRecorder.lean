import CortenDesk.Lib.Pool
import CortenDesk.Lib.Runs

/-!
The recorder of a session. The browser's recorders are the environment, each of them known by its
number: one that is stopped, or whose tracks end, or that fails, is inactive at once and delivers
its last data and its stop event later. A callback is attached while its recorder is the current one.
-/
namespace CortenDesk
namespace WebClient

structure RecordingFormat where
  mimeType : String
  extension : String
  deriving DecidableEq

def recordingFormats : List RecordingFormat :=
  [⟨"video/webm;codecs=vp9,opus", "webm"⟩, ⟨"video/webm;codecs=vp8,opus", "webm"⟩,
    ⟨"video/webm", "webm"⟩, ⟨"video/mp4", "mp4"⟩]

def chooseRecordingMime (isTypeSupported : String → Bool) : Option RecordingFormat :=
  recordingFormats.find? fun format => isTypeSupported format.mimeType

/-- What `captureStream` gives: there may be no such function, and it may throw. -/
inductive Capture
  | absent
  | throws
  | stream (video audio : Nat)

inductive TapOutcome
  | throws
  | none
  | tap

/-- What a call of `start` finds. -/
structure RecordingEnvironment where
  isTypeSupported : String → Bool
  capture : Capture
  tap : TapOutcome
  assembles : Bool
  creates : Bool
  starts : Bool
  now : Int

/-- What is captured: the tracks of the surface, and the tap with the tracks that go with it. -/
inductive Source
  | video
  | audio
  | tap
  deriving DecidableEq

/-- A recorder of the browser, with the recording that it makes: what was captured for it, the
chunks it has delivered that are not empty, and whether its error and its stop event came. -/
structure MediaRecorder (α : Type) where
  recording : Bool := false
  started : Bool := false
  format : RecordingFormat
  startedAtMs : Int
  captured : List Nat
  tap : Option Nat
  chunks : List (List α) := []
  failed : Bool := false
  errored : Bool := false
  ended : Bool := false

structure Download (α : Type) where
  recording : Nat
  blob : List α
  extension : String
  startedAtMs : Int
  deriving DecidableEq

structure LocalSessionRecorder (α : Type) where
  recorder : Option Nat := none
  combined : Option (List Nat) := none
  audioTap : Option Nat := none
  chunks : List (List α) := []
  format : Option RecordingFormat := none
  startedAtMs : Int := 0
  active : Bool := false
  resources : Pool Source := {}
  recorders : List (MediaRecorder α) := []
  downloads : List (Download α) := []
  states : List Bool := []

inductive RecorderEvent (α : Type)
  | start (env : RecordingEnvironment)
  | stop
  | close
  | tracksEnd (i : Nat)
  | fails (i : Nat)
  | dataAvailable (i : Nat) (chunk : List α)
  | error (i : Nat)
  | stopped (i : Nat)

namespace LocalSessionRecorder
section
variable {α : Type}

def onState (w : LocalSessionRecorder α) (active : Bool) : LocalSessionRecorder α :=
  { w with states := w.states ++ [active] }

def cleanup (w : LocalSessionRecorder α) (notify : Bool) : LocalSessionRecorder α :=
  let cleared :=
    { w with
      active := false
      recorder := none
      resources := (w.resources.closeAll (w.combined.getD [])).release w.audioTap
      audioTap := none
      combined := none
      chunks := []
      format := none }
  if w.active || notify then cleared.onState false else cleared

/-- The tail of `start`, with the recorder created. -/
def startRecorder (w : LocalSessionRecorder α) (starts : Bool) (now : Int) :
    LocalSessionRecorder α × Except String Unit :=
  if ! starts then (w.cleanup false, .error "The browser refused to start session recording.")
  else
    let i := w.recorders.length - 1
    let begun := w.recorders.modify i fun r => { r with recording := true, started := true }
    ({ w with recorders := begun, active := true, startedAtMs := now }.onState true, .ok ())

/-- `start` from the stream that it has assembled. -/
def record (w : LocalSessionRecorder α) (env : RecordingEnvironment) (format : RecordingFormat)
    (captured : List Nat) : LocalSessionRecorder α × Except String Unit :=
  if ! env.creates then
    (w.cleanup false, .error "The browser could not create a session recorder.")
  else
    let recorder : MediaRecorder α := { format, startedAtMs := env.now, captured, tap := w.audioTap }
    { w with
      recorder := some w.recorders.length
      recorders := w.recorders ++ [recorder]
      chunks := []
      format := some format
      startedAtMs := env.now }.startRecorder env.starts env.now

/-- The audio tap of `start`, if there is one. -/
def openTap (w : LocalSessionRecorder α) : TapOutcome → LocalSessionRecorder α
  | .tap =>
      { w with
        audioTap := some w.resources.next
        resources := w.resources.obtain .tap }
  | .none => { w with audioTap := none }
  | .throws => w

/-- `start` from the stream of the surface, of which only the video tracks are taken. -/
def assemble (w : LocalSessionRecorder α) (env : RecordingEnvironment) (format : RecordingFormat)
    (video audio : Nat) : LocalSessionRecorder α × Except String Unit :=
  let first := w.resources.next
  let w := { w with resources := (w.resources.obtainMany .video video).obtainMany .audio audio }
  if video = 0 then (w, .error "The visible remote video has no capturable track.")
  else
    let videoTracks := List.range' first video
    let w := w.openTap env.tap
    let thrown := match env.tap with
      | .throws => true
      | _ => ! env.assembles
    if thrown then
      ({ w with
          resources := (w.resources.closeAll videoTracks).release w.audioTap
          audioTap := none }, .error "The browser could not assemble the recording stream.")
    else
      { w with combined := some videoTracks }.record env format (List.range' first (video + audio))

def start (w : LocalSessionRecorder α) (env : RecordingEnvironment) :
    LocalSessionRecorder α × Except String Unit :=
  if w.active then (w, .error "Recording is already active.")
  else
    match env.capture, chooseRecordingMime env.isTypeSupported with
    | .absent, _ => (w, .error "This browser cannot capture the visible remote video.")
    | _, none => (w, .error "This browser has no supported session-recording format.")
    | .throws, some _ => (w, .error "The visible remote video could not be captured.")
    | .stream video audio, some format => w.assemble env format video audio

/-- Whether the current recorder is not inactive. -/
def running (w : LocalSessionRecorder α) : Bool :=
  (w.recorder.bind fun i => w.recorders[i]?).any MediaRecorder.recording

/-- `stop` of a recorder, the end of its tracks and its failure all make it inactive. -/
def inactivate (w : LocalSessionRecorder α) (i : Nat) : LocalSessionRecorder α :=
  { w with recorders := w.recorders.modify i fun r => { r with recording := false } }

def stop (w : LocalSessionRecorder α) : LocalSessionRecorder α :=
  match w.recorder with
  | none => w
  | some i => if ! w.active then w else if w.running then w.inactivate i else w.cleanup false

def close (w : LocalSessionRecorder α) : LocalSessionRecorder α :=
  match w.recorder with
  | some i => if w.active && w.running then w.inactivate i else w.cleanup false
  | none => w.cleanup false

def ondataavailable (w : LocalSessionRecorder α) (chunk : List α) : LocalSessionRecorder α :=
  if chunk.length > 0 then { w with chunks := w.chunks ++ [chunk] } else w

/-- The blob of the chunks is downloaded, for the recording that the current recorder makes. -/
def onstop (w : LocalSessionRecorder α) (i : Nat) : LocalSessionRecorder α :=
  let saved := match w.format with
    | some format =>
        if w.chunks.length > 0 then
          let download : Download α := ⟨i, w.chunks.flatten, format.extension, w.startedAtMs⟩
          { w with downloads := w.downloads ++ [download] }
        else w
    | none => w
  saved.cleanup true

/-- A recorder that has started and has not delivered its stop event yet. -/
def live (w : LocalSessionRecorder α) (i : Nat) : Option (MediaRecorder α) :=
  w.recorders[i]?.filter fun r => r.started && ! r.ended

def step (w : LocalSessionRecorder α) : RecorderEvent α → LocalSessionRecorder α
  | .start env => (w.start env).1
  | .stop => w.stop
  | .close => w.close
  | .tracksEnd i => if (w.live i).isSome then w.inactivate i else w
  | .fails i =>
      if (w.live i).isSome then
        { w with
          recorders := w.recorders.modify i fun r => { r with recording := false, failed := true } }
      else w
  | .dataAvailable i chunk =>
      if (w.live i).isSome then
        let heard :=
          { w with
            recorders := w.recorders.modify i fun r =>
              if chunk.length > 0 then { r with chunks := r.chunks ++ [chunk] } else r }
        if w.recorder = some i then heard.ondataavailable chunk else heard
      else w
  | .error i =>
      if (w.live i).any MediaRecorder.failed then
        let heard :=
          { w with recorders := w.recorders.modify i fun r => { r with errored := true } }
        if w.recorder = some i then heard.cleanup false else heard
      else w
  | .stopped i =>
      if (w.live i).any fun r => ! r.recording then
        let heard := { w with recorders := w.recorders.modify i fun r => { r with ended := true } }
        if w.recorder = some i then heard.onstop i else heard
      else w

end
end LocalSessionRecorder
end WebClient
end CortenDesk
