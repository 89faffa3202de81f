import CortenDesk.Lib.Runs
import Mathlib.Algebra.GroupWithZero.Nat

/-!
An upload of the file panel. The loop over the files waits at five places, each of them a state of
it; a waiter is resolved once, and the loop goes on later. The session's events, the user and the
reads of the files are the environment.
-/
namespace CortenDesk
namespace WebClient

inductive ConflictAction
  | overwrite
  | skip
  | cancel
  deriving DecidableEq

structure ConflictDecision where
  action : ConflictAction
  applyAll : Bool

inductive ConflictPolicy
  | ask
  | overwrite
  | skip

inductive JobStatus
  | starting
  | running
  | done
  | error
  | cancelled
  deriving DecidableEq

structure UploadFile where
  rel : String
  data : List UInt8
  lastModified : Nat

def UploadFile.size (file : UploadFile) : Nat := file.data.length

/-- What the waiter of a confirmation is resolved with. -/
inductive UploadConfirm
  | confirmed (skip : Bool) (offsetBytes : Nat)
  | cancelled
  deriving DecidableEq

/-- Where the loop waits: for a confirmation, for a part of a file, for the worker to take a block,
or for the socket to drain. -/
inductive UploadLoop
  | confirming (i : Nat) (answer : Option UploadConfirm)
  | reading (i offset stop : Nat)
  | sending (i offset stop : Nat) (answer : Option Nat)
  | draining (i offset : Nat)
  | finished
  deriving DecidableEq

/-- A digest of the peer that waits for a decision; `none` once it was acted on. -/
structure UploadDigest where
  fileNum : Nat
  decision : Option ConflictDecision

/-- What is posted for the upload, and the confirmations that come for it. -/
inductive UploadNote
  | ftReceive (files : List (String × Nat × Nat)) (totalSize fileNum : Nat)
  | ftDigest (fileNum fileSize lastModifiedSec : Nat)
  | confirmation (fileNum : Nat) (skip : Bool) (offsetBytes : Nat)
  | ftBlock (fileNum : Nat) (data : List UInt8)
  | ftDone (fileNum : Nat)
  | ftError (error : String)
  | ftConfirm (fileNum : Nat) (skip : Bool)
  | ftCancel

structure UploadJob where
  files : List UploadFile
  totalSize : Nat
  currentFile : String
  status : JobStatus := .running
  error : Option String := none
  doneBytes : Nat := 0
  policy : Option ConflictPolicy := none
  peerDone : Bool := false
  streaming : Bool := true
  digests : List (Option UploadDigest) := []
  loop : UploadLoop := .finished
  history : List UploadNote := []

inductive UploadEvent
  | sendConfirm (fileNum : Nat) (skip : Bool) (offsetBytes : Nat)
  | digest (fileNum : Nat)
  | decide (k : Nat) (decision : ConflictDecision)
  | decided (k : Nat)
  | cancel
  | confirmed
  | read (failure : Option String)
  | sent (buffered : Nat)
  | taken
  | drained
  | ftDone
  | ftError (error : String)
  | state (streaming : Bool)
  | teardown

namespace UploadJob

def ftBlockSize : Nat := 128 * 1024

def uploadBacklogLimit : Nat := 8 * 1024 * 1024

def post (w : UploadJob) (note : UploadNote) : UploadJob := { w with history := w.history ++ [note] }

def jobStopped (w : UploadJob) : Bool := w.status = .cancelled || w.status = .error || ! w.streaming

section Loop

def finish (w : UploadJob) : UploadJob := { w with loop := .finished }

/-- The head of the loop over the files, and what follows the loop. -/
def head (w : UploadJob) (i : Nat) : UploadJob :=
  match w.files[i]? with
  | some file =>
      if w.jobStopped then w.finish
      else
        { w with currentFile := file.rel, loop := .confirming i none }.post
          (.ftDigest i file.size (file.lastModified / 1000))
  | none => if w.jobStopped then w.finish else w.finish.post (.ftDone w.files.length)

/-- The head of the loop over the blocks of a file, and the empty block after it. -/
def blocks (w : UploadJob) (i : Nat) (file : UploadFile) (offset : Nat) : UploadJob :=
  if offset < file.size then
    if w.jobStopped then w.finish
    else { w with loop := .reading i offset (min (offset + ftBlockSize) file.size) }
  else (w.post (.ftBlock i [])).head (i + 1)

/-- The loop with its confirmation. -/
def confirmed (w : UploadJob) (i : Nat) (file : UploadFile) : UploadConfirm → UploadJob
  | .cancelled => w.finish
  | .confirmed skip offsetBytes =>
      if w.jobStopped then w.finish
      else if skip then { w with doneBytes := w.doneBytes + file.size }.head (i + 1)
      else
        { w with doneBytes := w.doneBytes + min offsetBytes file.size }.blocks i file offsetBytes

/-- The loop with a part of a file, or with what reading it throws. -/
def read (w : UploadJob) (i : Nat) (file : UploadFile) (offset stop : Nat) :
    Option String → UploadJob
  | some message =>
      if w.jobStopped then w.finish
      else { w.finish with status := .error, error := some message }.post (.ftError message)
  | none =>
      { w with loop := .sending i offset stop none }.post
        (.ftBlock i ((file.data.drop offset).take (stop - offset)))

/-- The loop with a block that the worker has taken. -/
def taken (w : UploadJob) (i : Nat) (file : UploadFile) (offset stop buffered : Nat) : UploadJob :=
  let w := { w with doneBytes := w.doneBytes + (stop - offset) }
  if buffered > uploadBacklogLimit then { w with loop := .draining i stop }
  else w.blocks i file stop

end Loop

section Events

def confirmWaiter (w : UploadJob) (answer : UploadConfirm) : UploadJob :=
  match w.loop with
  | .confirming i none => { w with loop := .confirming i (some answer) }
  | _ => w

def sentWaiter (w : UploadJob) (buffered : Nat) : UploadJob :=
  match w.loop with
  | .sending i offset stop none => { w with loop := .sending i offset stop (some buffered) }
  | _ => w

def cancelJob (w : UploadJob) : UploadJob :=
  if w.status = .done ∨ w.status = .cancelled then w
  else (({ w with status := .cancelled }.post .ftCancel).confirmWaiter .cancelled).sentWaiter 0

/-- A confirmation comes: from the peer, or from the decision on its digest. -/
def confirmation (w : UploadJob) (fileNum : Nat) (skip : Bool) (offsetBytes : Nat) : UploadJob :=
  (w.post (.confirmation fileNum skip offsetBytes)).confirmWaiter (.confirmed skip offsetBytes)

/-- `onFtDigest`, as far as its question. -/
def onFtDigest (w : UploadJob) (fileNum : Nat) : UploadJob :=
  let decision : Option ConflictDecision := match w.policy with
    | some .overwrite => some ⟨.overwrite, false⟩
    | some .skip => some ⟨.skip, false⟩
    | _ => none
  { w with digests := w.digests ++ [some ⟨fileNum, decision⟩] }

def decide (w : UploadJob) (k : Nat) (decision : ConflictDecision) : UploadJob :=
  { w with
    digests := w.digests.modify k <| Option.map fun digest =>
      { digest with decision := digest.decision.or (some decision) } }

/-- `onFtDigest` from its decision. -/
def decided (w : UploadJob) (k fileNum : Nat) (decision : ConflictDecision) : UploadJob :=
  let w := { w with digests := w.digests.set k none }
  match decision.action with
  | .cancel => w.cancelJob.confirmWaiter .cancelled
  | .overwrite =>
      let w := { w with policy := if decision.applyAll then some .overwrite else w.policy }
      (w.post (.ftConfirm fileNum false)).confirmation fileNum false 0
  | .skip =>
      let w := { w with policy := if decision.applyAll then some .skip else w.policy }
      (w.post (.ftConfirm fileNum true)).confirmation fileNum true 0

def onFtDone (w : UploadJob) : UploadJob :=
  { w with
    peerDone := true
    status := if w.status = .running ∨ w.status = .starting then .done else w.status }

def onFtError (w : UploadJob) (error : String) : UploadJob :=
  if error.toLower = "skipped" then { w with status := .done }
  else
    ({ w with status := .error, error := some error }.confirmWaiter .cancelled).sentWaiter 0

def teardown (w : UploadJob) : UploadJob :=
  let w := { w with streaming := false }
  if w.status = .running ∨ w.status = .starting then
    ({ w with status := .error, error := some "connection closed" }.confirmWaiter
      .cancelled).sentWaiter 0
  else w

end Events

/-- `uploadFiles` of some files, with the session streaming. -/
def uploadFiles (first : UploadFile) (others : List UploadFile) : UploadJob :=
  let files := first :: others
  let totalSize := (files.map UploadFile.size).sum
  let job : UploadJob := { files, totalSize, currentFile := first.rel }
  (job.post (.ftReceive (files.map fun f => (f.rel, f.size, f.lastModified / 1000)) totalSize 0)).head
    0

def step (w : UploadJob) : UploadEvent → UploadJob
  | .sendConfirm fileNum skip offsetBytes => w.confirmation fileNum skip offsetBytes
  | .digest fileNum => w.onFtDigest fileNum
  | .decide k decision => w.decide k decision
  | .decided k => match w.digests[k]? with
      | some (some ⟨fileNum, some decision⟩) => w.decided k fileNum decision
      | _ => w
  | .cancel => w.cancelJob
  | .confirmed => match w.loop with
      | .confirming i (some answer) => match w.files[i]? with
          | some file => w.confirmed i file answer
          | none => w
      | _ => w
  | .read failure => match w.loop with
      | .reading i offset stop => match w.files[i]? with
          | some file => w.read i file offset stop failure
          | none => w
      | _ => w
  | .sent buffered => w.sentWaiter buffered
  | .taken => match w.loop with
      | .sending i offset stop (some buffered) => match w.files[i]? with
          | some file => w.taken i file offset stop buffered
          | none => w
      | _ => w
  | .drained => match w.loop with
      | .draining i offset => match w.files[i]? with
          | some file => w.blocks i file offset
          | none => w
      | _ => w
  | .ftDone => w.onFtDone
  | .ftError error => w.onFtError error
  | .state streaming => { w with streaming }
  | .teardown => w.teardown

end UploadJob
end WebClient
end CortenDesk
