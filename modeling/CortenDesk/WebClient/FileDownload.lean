import CortenDesk.WebClient.FileUpload

/-!
A download of the file panel. Its blocks are written one after another by a chain of closures, of
which the first may wait for the browser. Digests are decided on beside the chain, and a
cancellation or an error closes the file that is open without waiting for the chain.
-/
namespace CortenDesk
namespace WebClient

inductive FtEntryKind
  | dir
  | dirLink
  | drive
  | file
  | fileLink

structure FtEntry where
  kind : FtEntryKind
  name : String
  size : Nat

def isDirKind : FtEntryKind → Bool
  | .dir | .dirLink | .drive => true
  | .file | .fileLink => false

def joinRemote (dir name sep : String) : String :=
  if dir = "" then name else if dir.endsWith sep then dir ++ name else dir ++ sep ++ name

/-- A file that is open for writing: its number, where it is made, and what was written so far. -/
structure LocalWritable where
  fileNum : Int
  path : List String
  chunks : List (List UInt8)

/-- A closure of the write chain. -/
inductive DownloadTask
  | block (fileNum : Int) (data : List UInt8)
  | done

/-- Where the first closure of the chain waits: while a file is closed, with `closing` when there
is one, while the next is opened, or for a write. -/
inductive DownloadWait
  | idle
  | leaving (fileNum : Int) (data : List UInt8) (closing : Bool)
  | opening (fileNum : Int) (path : List String) (data : List UInt8)
  | writing (fileNum : Int) (data : List UInt8)
  | ending (closing : Bool)
  | finishing (closing : Bool)

/-- Where a digest waits: for a look at the target, for the user, or to be acted on. -/
inductive DigestWait
  | locating
  | asking
  | decided (decision : ConflictDecision)

structure DownloadDigest where
  fileNum : Int
  wait : DigestWait

/-- What happens to a download: the blocks that come, the statuses that it takes, what becomes of
its files, and what is posted for it. -/
inductive DownloadNote
  | ftSend (path : String) (includeHidden : Bool)
  | received (fileNum : Int) (data : List UInt8)
  | status (status : JobStatus)
  | closed (fileNum : Int) (chunks : List (List UInt8))
  | saved (fileNum : Int) (name : String) (chunks : List (List UInt8))
  | aborted (fileNum : Int)
  | ftConfirm (fileNum : Int) (skip : Bool)
  | ftCancel

structure DownloadJob where
  label : String
  status : JobStatus := .starting
  error : Option String := none
  totalSize : Nat
  doneBytes : Nat := 0
  fileCount : Nat
  currentFile : String
  policy : Option ConflictPolicy := none
  remoteFiles : Option (List FtEntry) := none
  destDir : Bool
  curFileNum : Int := -1
  writable : Option LocalWritable := none
  memBuf : List (List UInt8) := []
  chain : List DownloadTask := []
  wait : DownloadWait := .idle
  aborts : Nat := 0
  digests : List (Option DownloadDigest) := []
  worker : Bool := true
  history : List DownloadNote := []

inductive DownloadEvent
  | ftDir (sep : String) (entries : List FtEntry)
  | ftDigest (fileNum : Int)
  | located (k : Nat) (found : Bool)
  | decide (k : Nat) (decision : ConflictDecision)
  | decided (k : Nat)
  | ftBlock (fileNum : Int) (data : List UInt8)
  | next
  | settled (failure : Option String)
  | ftDone
  | ftError (error : String)
  | cancel
  | aborted
  | teardown
  | connect

namespace DownloadJob

def note (w : DownloadJob) (note : DownloadNote) : DownloadJob :=
  { w with history := w.history ++ [note] }

/-- Without a worker nothing is posted. -/
def post (w : DownloadJob) (note : DownloadNote) : DownloadJob :=
  if w.worker then w.note note else w

def setStatus (w : DownloadJob) (status : JobStatus) : DownloadJob :=
  { w with status }.note (.status status)

def stopped (w : DownloadJob) : Bool := w.status = .cancelled || w.status = .error

/-- The name that a file has in the listing of the peer, if there is one for it. -/
def nameOf (w : DownloadJob) (fileNum : Int) : String :=
  let entry : Option FtEntry :=
    if fileNum < 0 then none else w.remoteFiles.bind fun files => files[fileNum.toNat]?
  (entry.map FtEntry.name).getD w.label

/-- `startDownloadOf` for one entry, with the session streaming. -/
def startDownload (remotePath sep : String) (showHidden : Bool) (entry : FtEntry)
    (destDir : Bool) : DownloadJob :=
  let job : DownloadJob :=
    { label := entry.name
      totalSize := if isDirKind entry.kind then 0 else entry.size
      fileCount := if isDirKind entry.kind then 0 else 1
      currentFile := entry.name
      destDir }
  job.post (.ftSend (joinRemote remotePath entry.name sep) showHidden)

section Files

def saveBlobToDownloads (w : DownloadJob) (fileNum : Int) : DownloadJob :=
  w.note (.saved fileNum ("_".intercalate ((w.nameOf fileNum).splitOn "/")) w.memBuf)

/-- `closeJobFile` once no file is open for writing. -/
def emptied (w : DownloadJob) (commit : Bool) : DownloadJob :=
  let w := if ! w.destDir && commit && 0 ≤ w.curFileNum then w.saveBlobToDownloads w.curFileNum
    else w
  { w with memBuf := [] }

/-- `closeJobFile`, and whether it waits for a file that is closed. -/
def closeJobFile (w : DownloadJob) (commit : Bool) : DownloadJob × Bool :=
  match w.writable with
  | some file =>
      let outcome : DownloadNote :=
        if commit then .closed file.fileNum file.chunks else .aborted file.fileNum
      ({ w with writable := none }.note outcome, true)
  | none => (w.emptied commit, false)

/-- `closeJobFile` with nobody that waits for it. -/
def abandon (w : DownloadJob) : DownloadJob :=
  let (w, closing) := w.closeJobFile false
  if closing then { w with aborts := w.aborts + 1 } else w

end Files

section Chain

def failed (w : DownloadJob) (message : String) : DownloadJob :=
  let w := { w with wait := .idle, error := some ("write failed: " ++ message) }
  (w.setStatus .error).post .ftCancel

/-- The closure of a block, with its file open: the empty block marks the end of the file. -/
def take (w : DownloadJob) (fileNum : Int) (data : List UInt8) : DownloadJob :=
  if data.length = 0 then
    let (w, closing) := w.closeJobFile true
    { w with wait := .ending closing }
  else if w.writable.isSome then { w with wait := .writing fileNum data }
  else
    { w with
      memBuf := w.memBuf ++ [data]
      doneBytes := w.doneBytes + data.length
      wait := .idle }

/-- The closure of a block, once the file before it is closed. -/
def enter (w : DownloadJob) (fileNum : Int) (data : List UInt8) : DownloadJob :=
  let rel := w.nameOf fileNum
  let w := { w with curFileNum := fileNum, currentFile := rel }
  if w.destDir then { w with wait := .opening fileNum ((rel.splitOn "/").filter (· ≠ "")) data }
  else { w with memBuf := [] }.take fileNum data

def block (w : DownloadJob) (fileNum : Int) (data : List UInt8) : DownloadJob :=
  if w.curFileNum ≠ fileNum then
    let (w, closing) := w.closeJobFile true
    { w with wait := .leaving fileNum data closing }
  else w.take fileNum data

/-- The closure of `onFtDone`. -/
def done (w : DownloadJob) : DownloadJob :=
  let (w, closing) := w.closeJobFile true
  { w with wait := .finishing closing }

def finished (w : DownloadJob) : DownloadJob :=
  let w := { w with curFileNum := -1, wait := .idle }
  if w.status ≠ .error ∧ w.status ≠ .cancelled then
    { w.setStatus .done with doneBytes := max w.doneBytes w.totalSize }
  else w

/-- The chain goes on with its next closure. -/
def next (w : DownloadJob) : DownloadJob :=
  match w.wait, w.chain with
  | .idle, .block fileNum data :: chain => { w with chain }.block fileNum data
  | .idle, .done :: chain => { w with chain }.done
  | _, _ => w

/-- What the first closure waits for is there, or has failed. A file that cannot be closed is as
good as one that is closed already. -/
def settled (w : DownloadJob) (failure : Option String) : DownloadJob :=
  match w.wait with
  | .idle => w
  | .leaving fileNum data closing =>
      (if closing then w.emptied true else w).enter fileNum data
  | .opening fileNum path data => match failure with
      | none => { w with writable := some ⟨fileNum, path, []⟩ }.take fileNum data
      | some message => w.failed message
  | .writing _ data => match failure with
      | none =>
          { w with
            writable := w.writable.map fun file => { file with chunks := file.chunks ++ [data] }
            doneBytes := w.doneBytes + data.length
            wait := .idle }
      | some message => w.failed message
  | .ending closing =>
      { (if closing then w.emptied true else w) with curFileNum := -1, wait := .idle }
  | .finishing closing => (if closing then w.emptied true else w).finished

end Chain

section Events

def cancelJob (w : DownloadJob) : DownloadJob :=
  if w.status = .done ∨ w.status = .cancelled then w
  else ((w.setStatus .cancelled).post .ftCancel).abandon

/-- `onFtDir` with the names of the files in the panel's form. -/
def listed (w : DownloadJob) (remoteFiles : List FtEntry) : DownloadJob :=
  let w :=
    { w with
      remoteFiles := some remoteFiles
      fileCount := remoteFiles.length
      totalSize := (remoteFiles.map FtEntry.size).sum }
  if w.fileCount = 0 then w else w.setStatus .running

def onFtDir (w : DownloadJob) (sep : String) (entries : List FtEntry) : DownloadJob :=
  w.listed <| entries.map fun e =>
    if sep = "\\" then { e with name := e.name.replace "\\" "/" } else e

/-- `onFtDigest` from its decision. -/
def answer (w : DownloadJob) (fileNum : Int) : ConflictAction → DownloadJob
  | .cancel => w.cancelJob
  | .overwrite => w.post (.ftConfirm fileNum false)
  | .skip => w.post (.ftConfirm fileNum true)

/-- `onFtDigest`, as far as its look at the target. -/
def onFtDigest (w : DownloadJob) (fileNum : Int) : DownloadJob :=
  let w := { w.setStatus .running with currentFile := w.nameOf fileNum }
  if w.destDir then { w with digests := w.digests ++ [some ⟨fileNum, .locating⟩] }
  else w.answer fileNum .overwrite

/-- `onFtDigest` from its look at the target, as far as the question of `resolveConflict`. -/
def located (w : DownloadJob) (k : Nat) (fileNum : Int) (found : Bool) : DownloadJob :=
  let wait : DigestWait := match w.policy with
    | some .overwrite => .decided ⟨.overwrite, false⟩
    | some .skip => .decided ⟨.skip, false⟩
    | _ => .asking
  if found then { w with digests := w.digests.set k (some ⟨fileNum, wait⟩) }
  else { w with digests := w.digests.set k none }.answer fileNum .overwrite

def decide (w : DownloadJob) (k : Nat) (decision : ConflictDecision) : DownloadJob :=
  { w with
    digests := w.digests.modify k <| Option.map fun digest =>
      match digest.wait with
      | .asking => { digest with wait := .decided decision }
      | _ => digest }

/-- `onFtDigest` from the end of `resolveConflict`. -/
def decided (w : DownloadJob) (k : Nat) (fileNum : Int) (decision : ConflictDecision) :
    DownloadJob :=
  let policy := match decision.applyAll, decision.action with
    | true, .overwrite => some .overwrite
    | true, .skip => some .skip
    | _, _ => w.policy
  { w with digests := w.digests.set k none, policy }.answer fileNum decision.action

def onFtBlock (w : DownloadJob) (fileNum : Int) (data : List UInt8) : DownloadJob :=
  let w := w.note (.received fileNum data)
  if w.status = .cancelled ∨ w.status = .error then w
  else { w with chain := w.chain ++ [.block fileNum data] }

def onFtDone (w : DownloadJob) : DownloadJob := { w with chain := w.chain ++ [.done] }

def onFtError (w : DownloadJob) (error : String) : DownloadJob :=
  if error.toLower = "skipped" then w.setStatus .done
  else ({ w with error := some error }.setStatus .error).abandon

def teardown (w : DownloadJob) : DownloadJob :=
  let w := { w with worker := false }
  if w.status = .running ∨ w.status = .starting then
    ({ w with error := some "connection closed" }.setStatus .error).abandon
  else w

/-- `connectIfNeeded` where it makes a worker. -/
def connect (w : DownloadJob) : DownloadJob := { w.teardown with worker := true }

end Events

def step (w : DownloadJob) : DownloadEvent → DownloadJob
  | .ftDir sep entries => w.onFtDir sep entries
  | .ftDigest fileNum => w.onFtDigest fileNum
  | .located k found => match w.digests[k]? with
      | some (some ⟨fileNum, .locating⟩) => w.located k fileNum found
      | _ => w
  | .decide k decision => w.decide k decision
  | .decided k => match w.digests[k]? with
      | some (some ⟨fileNum, .decided decision⟩) => w.decided k fileNum decision
      | _ => w
  | .ftBlock fileNum data => w.onFtBlock fileNum data
  | .next => w.next
  | .settled failure => w.settled failure
  | .ftDone => w.onFtDone
  | .ftError error => w.onFtError error
  | .cancel => w.cancelJob
  | .aborted => if w.aborts = 0 then w else { w with aborts := w.aborts - 1 }.emptied false
  | .teardown => w.teardown
  | .connect => w.connect

end DownloadJob
end WebClient
end CortenDesk
