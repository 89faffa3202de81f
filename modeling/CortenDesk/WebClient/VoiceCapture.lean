import CortenDesk.Lib.Pool
import CortenDesk.Lib.Runs

/-!
The outgoing capture of a voice call. Every `await` of the controller is a state of the attempt or
the pump that waits there, and its completion is an event; the microphone, the codecs and the
callbacks of the encoders are the environment.
-/
namespace CortenDesk
namespace WebClient

structure VoiceEncoderConfig where
  sampleRate : Int
  channels : Nat

def preferredConfig : VoiceEncoderConfig := ⟨48000, 1⟩

def opusOutputSampleRate (inputRate : Int) : Int :=
  if inputRate ∈ [8000, 12000, 16000, 24000] then inputRate else 48000

/-- The rate is missing where it is not finite. -/
structure VoiceAudioData where
  sampleRate : Option Rat
  numberOfChannels : Nat

/-- What is captured and must be given back: a track by the attempt that acquired it, an encoder by
the pump that created it. -/
inductive VoiceMedia
  | track (attempt : Nat)
  | encoder (pump : Nat)

/-- `tracks` are those of `getTracks`, or the audio tracks where there is no such function. -/
structure VoiceStream where
  attempt : Nat
  audioTracks : List Nat
  tracks : List Nat

/-- Where a call of `prepare` waits, or what it has returned. -/
inductive VoiceAttemptState
  | probing
  | requesting
  | settled (result : Except String Unit)

structure VoiceAttempt where
  epoch : Nat
  state : VoiceAttemptState

/-- Where a pump waits: for its reader, or for a codec probe with the data that it has read. -/
inductive PumpState
  | reading
  | probing (data : Nat) (config : VoiceEncoderConfig)
  | ended

structure Pump where
  epoch : Nat
  state : PumpState := .reading
  encoder : Option Nat := none

inductive VoiceNote
  | start
  | stop
  | sendFormat (sampleRate : Int) (channels : Nat)
  | sendFrame (data : List UInt8)
  | onError (message : String)

structure VoiceCaptureController where
  stream : Option VoiceStream := none
  reader : Option Nat := none
  encoder : Option Nat := none
  epoch : Nat := 0
  active : Bool := false
  resources : Pool VoiceMedia := {}
  attempts : List VoiceAttempt := []
  pumps : List Pump := []
  reads : Nat := 0
  closings : List Nat := []
  log : List VoiceNote := []

inductive ReadResult
  | rejects
  | done
  | empty
  | value (data : VoiceAudioData)

/-- What an encoder does with the data that it is given. -/
structure Encoding where
  encodeQueueSize : Nat
  encodes : Bool

inductive VoiceEvent
  | prepare (available : Bool)
  | start (opens : Bool)
  | stop
  | probed (k : Nat) (supported : Option Bool)
  | media (k : Nat) (stream : Option (Nat × Nat))
  | read (i : Nat) (result : ReadResult) (encoding : Encoding)
  | supported (i : Nat) (supported : Option Bool) (creates : Bool) (encoding : Encoding)
  | output (i : Nat) (chunk : List UInt8)
  | error (i : Nat)

namespace VoiceCaptureController

def note (w : VoiceCaptureController) (entry : VoiceNote) : VoiceCaptureController :=
  { w with log := w.log ++ [entry] }

def stop (w : VoiceCaptureController) : VoiceCaptureController :=
  { w with
    active := false
    epoch := w.epoch + 1
    reader := none
    encoder := none
    stream := none
    resources := (w.resources.release w.encoder).closeAll ((w.stream.map VoiceStream.tracks).getD [])
    log := w.log ++ [.stop] }

def fail (w : VoiceCaptureController) (message : String) : VoiceCaptureController :=
  if w.active || w.stream.isSome then w.stop.note (.onError message) else w.stop

/-- The guard of the pump of an epoch. -/
def live (w : VoiceCaptureController) (epoch : Nat) : Bool := w.active && epoch == w.epoch

section Prepare

def attemptState (w : VoiceCaptureController) (k : Nat) (state : VoiceAttemptState) :
    VoiceCaptureController :=
  { w with attempts := w.attempts.modify k fun attempt => { attempt with state } }

def settle (w : VoiceCaptureController) (k : Nat) (message : String) : VoiceCaptureController :=
  w.attemptState k (.settled (.error message))

def prepare (w : VoiceCaptureController) (available : Bool) : VoiceCaptureController :=
  let w := w.stop
  let state : VoiceAttemptState :=
    if available then .probing
    else .settled (.error
      "Voice calls require Chrome or Edge with secure microphone and Opus support.")
  { w with attempts := w.attempts ++ [⟨w.epoch, state⟩] }

def cancelled : String := "Microphone request was cancelled."

/-- What is thrown while an attempt waits. -/
def denied (w : VoiceCaptureController) (k epoch : Nat) : VoiceCaptureController :=
  if epoch ≠ w.epoch then w.settle k cancelled
  else w.stop.settle k "Microphone access was denied or is unavailable."

/-- An attempt with the answer of its codec probe. -/
def probed (w : VoiceCaptureController) (k epoch : Nat) : Option Bool → VoiceCaptureController
  | none => w.denied k epoch
  | some false => w.settle k "This browser cannot encode Opus voice audio."
  | some true => if epoch ≠ w.epoch then w.settle k cancelled else w.attemptState k .requesting

/-- An attempt with its stream of audio tracks and of other tracks. -/
def media (w : VoiceCaptureController) (k epoch : Nat) : Option (Nat × Nat) → VoiceCaptureController
  | none => w.denied k epoch
  | some (audio, others) =>
      let stream : VoiceStream :=
        ⟨k, List.range' w.resources.next audio, List.range' w.resources.next (audio + others)⟩
      let w := { w with resources := w.resources.obtainMany (.track k) (audio + others) }
      if epoch ≠ w.epoch then
        { w with resources := w.resources.closeAll stream.tracks }.settle k cancelled
      else
        let w := { w with stream := some stream }
        if audio = 0 then w.stop.settle k "No microphone was available."
        else w.attemptState k (.settled (.ok ()))

end Prepare

section Pump

def start (w : VoiceCaptureController) (opens : Bool) : VoiceCaptureController × Bool :=
  match w.stream.bind fun stream => stream.audioTracks.head? with
  | none => (w, false)
  | some _ =>
      if w.active then (w, false)
      else
        let w := { w with epoch := w.epoch + 1 }
        if ! opens then (w.fail "Could not start microphone capture.", false)
        else
          let pump : Pump := { epoch := w.epoch }
          ({ w with
              reader := some w.pumps.length
              active := true
              pumps := w.pumps ++ [pump] }.note .start, true)

def pumpState (w : VoiceCaptureController) (i : Nat) (state : PumpState) : VoiceCaptureController :=
  { w with pumps := w.pumps.modify i fun pump => { pump with state } }

/-- The condition of the loop of a pump. -/
def loop (w : VoiceCaptureController) (i epoch : Nat) : VoiceCaptureController :=
  w.pumpState i (if w.live epoch then .reading else .ended)

def failLive (w : VoiceCaptureController) (epoch : Nat) (message : String) :
    VoiceCaptureController :=
  if w.live epoch then w.fail message else w

def closeData (w : VoiceCaptureController) (data : Nat) : VoiceCaptureController :=
  { w with closings := w.closings ++ [data] }

/-- The end of the body of the loop, with an encoder. -/
def encode (w : VoiceCaptureController) (i epoch data : Nat) (encoding : Encoding) :
    VoiceCaptureController :=
  if encoding.encodeQueueSize < 2 ∧ encoding.encodes = false then
    ((w.failLive epoch "Could not start the Opus microphone encoder.").closeData data).pumpState i
      .ended
  else (w.closeData data).loop i epoch

/-- `config` of the data. -/
def configOf (data : VoiceAudioData) : VoiceEncoderConfig where
  sampleRate := match data.sampleRate with
    | some rate => if 0 < rate then (rate + 1 / 2).floor else preferredConfig.sampleRate
    | none => preferredConfig.sampleRate
  channels := data.numberOfChannels

/-- The body of the loop of a pump with what its reader gives. -/
def read (w : VoiceCaptureController) (i epoch : Nat) (encoding : Encoding) :
    ReadResult → VoiceCaptureController
  | .rejects => (w.failLive epoch "Microphone capture failed.").pumpState i .ended
  | .done => (w.failLive epoch "Microphone capture stopped.").pumpState i .ended
  | .empty => w.loop i epoch
  | .value value =>
      let data := w.reads
      let w := { w with reads := w.reads + 1 }
      if ! w.live epoch then (w.closeData data).loop i epoch
      else
        match w.encoder with
        | some _ => w.encode i epoch data encoding
        | none =>
            if value.numberOfChannels ≠ 1 ∧ value.numberOfChannels ≠ 2 then
              ((w.fail "Only mono or stereo microphone input is supported.").closeData data).pumpState
                i .ended
            else w.pumpState i (.probing data (configOf value))

def createEncoder (w : VoiceCaptureController) (i : Nat) : VoiceCaptureController :=
  { w with
    encoder := some w.resources.next
    resources := w.resources.obtain (.encoder i)
    pumps := w.pumps.modify i fun pump => { pump with encoder := some w.resources.next } }

/-- The body of the loop with the answer of its codec probe. -/
def supported (w : VoiceCaptureController) (i epoch data : Nat) (config : VoiceEncoderConfig)
    (creates : Bool) (encoding : Encoding) : Option Bool → VoiceCaptureController
  | none =>
      ((w.failLive epoch "Could not start the Opus microphone encoder.").closeData data).pumpState i
        .ended
  | some supported =>
      if ! w.live epoch then (w.closeData data).pumpState i .ended
      else if ! supported then
        ((w.fail "This microphone format cannot be encoded as Opus.").closeData data).pumpState i
          .ended
      else if ! creates then
        ((w.failLive epoch "Could not start the Opus microphone encoder.").closeData data).pumpState i
          .ended
      else
        ((w.createEncoder i).note
          (.sendFormat (opusOutputSampleRate config.sampleRate) config.channels)).encode i epoch data
          encoding

/-- The callback `output` of the encoder of a pump. -/
def output (w : VoiceCaptureController) (epoch : Nat) (chunk : List UInt8) :
    VoiceCaptureController :=
  if w.live epoch then w.note (.sendFrame chunk) else w

end Pump

def step (w : VoiceCaptureController) : VoiceEvent → VoiceCaptureController
  | .prepare available => w.prepare available
  | .start opens => (w.start opens).1
  | .stop => w.stop
  | .probed k supported => match w.attempts[k]? with
      | some ⟨epoch, .probing⟩ => w.probed k epoch supported
      | _ => w
  | .media k stream => match w.attempts[k]? with
      | some ⟨epoch, .requesting⟩ => w.media k epoch stream
      | _ => w
  | .read i result encoding => match w.pumps[i]? with
      | some ⟨epoch, .reading, _⟩ => w.read i epoch encoding result
      | _ => w
  | .supported i supported creates encoding => match w.pumps[i]? with
      | some ⟨epoch, .probing data config, _⟩ =>
          w.supported i epoch data config creates encoding supported
      | _ => w
  | .output i chunk => match w.pumps[i]? with
      | some ⟨epoch, _, some _⟩ => w.output epoch chunk
      | _ => w
  | .error i => match w.pumps[i]? with
      | some ⟨epoch, _, some _⟩ => w.failLive epoch "The Opus microphone encoder failed."
      | _ => w

end VoiceCaptureController
end WebClient
end CortenDesk
