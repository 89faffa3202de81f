import CortenDesk.Lib.Streaming
import CortenDesk.WebClient.FileDownload
import Mathlib.Data.List.Basic

/-!
A download commits the files whose end was marked and no others, and nothing after it was cancelled
or has failed, as long as the peer ends each file before it goes on, and what is still on its way
when the job stops does not reach it.
-/
namespace CortenDesk
namespace WebClient
namespace DownloadJob

section Purpose

def arrivalOf : DownloadNote → Option (Int × List UInt8)
  | .received fileNum data => some (fileNum, data)
  | _ => none

def commitOf (i : Int) : DownloadNote → Option (List (List UInt8))
  | .closed fileNum chunks | .saved fileNum _ chunks => if fileNum = i then some chunks else none
  | _ => none

/-- The job is cancelled, or has failed. -/
def isStop : DownloadNote → Bool
  | .status .cancelled | .status .error => true
  | _ => false

/-- A commit, a confirmation, or a status that says that the job goes on or is done. -/
def resumes : DownloadNote → Bool
  | .closed _ _ | .saved _ _ _ | .ftConfirm _ _ | .status .running | .status .done => true
  | _ => false

def arrivals (history : List DownloadNote) : List (Int × List UInt8) := history.filterMap arrivalOf

/-- What is committed for a file, one list of blocks for each commit. -/
def commits (history : List DownloadNote) (i : Int) : List (List (List UInt8)) :=
  history.filterMap (commitOf i)

/-- The empty block ends a file, any other continues it. -/
def cut (begun : List (List UInt8)) (data : List UInt8) :
    List (List UInt8) × List (List (List UInt8)) :=
  if data.length = 0 then ([], [begun]) else (begun ++ [data], [])

/-- What the blocks for a file have begun and not ended, and each time that they ended it the blocks
that came for it before. -/
def parts (arrivals : List (Int × List UInt8)) (i : Int) :
    List (List UInt8) × List (List (List UInt8)) :=
  Streaming.push cut [] (arrivals.filterMap fun block => if block.1 = i then some block.2 else none)

/-- Each commit of a file is made of all the blocks up to an end of it, in their order, and nothing
is committed, confirmed or resumed once the job is cancelled or has failed. -/
structure Sound (w : DownloadJob) : Prop where
  complete : ∀ i, commits w.history i <+: (parts (arrivals w.history) i).2
  after : ∀ before note, before ++ [note] <+: w.history → before.any isStop → resumes note = false

end Purpose

section Orderly

/-- A file is open for writing, or collected in memory, so that `closeJobFile` would commit it. -/
def Holds (w : DownloadJob) : Prop :=
  w.writable.isSome ∨ (w.destDir = false ∧ 0 ≤ w.curFileNum)

/-- A file is left, and the transfer is done, when no file is held. Once the job has stopped, no end
is marked for a file that is held or opened, the peer starts nothing, and no digest is confirmed. -/
def Orderly (w : DownloadJob) : DownloadEvent → Prop
  | .ftDir _ entries => w.stopped → entries = []
  | .ftDigest _ => w.stopped = false
  | .ftError error => w.stopped → error.toLower ≠ "skipped"
  | .located k found => w.stopped → w.worker →
      ∀ fileNum, w.digests[k]? = some (some ⟨fileNum, .locating⟩) → found = true
  | .decided k => w.stopped → w.worker → ∀ fileNum decision,
      w.digests[k]? = some (some ⟨fileNum, .decided decision⟩) → decision.action = .cancel
  | .next => match w.wait, w.chain with
      | .idle, .block fileNum data :: _ =>
          if w.curFileNum = fileNum then w.stopped → data = [] → ¬ w.Holds else ¬ w.Holds
      | .idle, .done :: _ => ¬ w.Holds
      | _, _ => True
  | .settled failure => match w.wait with
      | .leaving fileNum data _ => w.stopped → data = [] → w.destDir = false → fileNum < 0
      | .opening _ _ data => w.stopped → data = [] → failure ≠ none
      | _ => True
  | _ => True

end Orderly

section Parts
variable {handled : List (Int × List UInt8)} {i j : Int} {data : List UInt8}

theorem parts_append (handled later : List (Int × List UInt8)) (i : Int) :
    (parts handled i).2 <+: (parts (handled ++ later) i).2 := by
  rw [parts, parts, List.filterMap_append, (Streaming.splits_push cut).append]
  exact List.prefix_append _ _

theorem parts_other (other : i ≠ j) : parts (handled ++ [(i, data)]) j = parts handled j := by
  rw [parts, parts, List.filterMap_append]
  simp [other]

theorem parts_concat : parts (handled ++ [(i, data)]) i =
    ((cut (parts handled i).1 data).1, (parts handled i).2 ++ (cut (parts handled i).1 data).2) := by
  rw [parts, parts, List.filterMap_append, (Streaming.splits_push cut).append]
  simp [Streaming.push]

/-- The blocks that have an end. -/
theorem parts_end : parts (handled ++ [(i, [])]) i = ([], (parts handled i).2 ++ [(parts handled i).1]) := by
  rw [parts_concat]
  rfl

theorem parts_more (more : data.length ≠ 0) :
    parts (handled ++ [(i, data)]) i = ((parts handled i).1 ++ [data], (parts handled i).2) := by
  rw [parts_concat, cut, if_neg more, List.append_nil]

end Parts

section History
variable {history : List DownloadNote} {note : DownloadNote} {i : Int}

theorem commits_apart (apart : commitOf i note = none) :
    commits (history ++ [note]) i = commits history i := by
  rw [commits, List.filterMap_append, commits]
  simp [apart]

theorem arrivals_other (other : arrivalOf note = none) :
    arrivals (history ++ [note]) = arrivals history := by
  rw [arrivals, List.filterMap_append, arrivals]
  simp [other]

end History

section Invariant

/-- The blocks that the first closure of the chain has not written yet. -/
def inFlight : DownloadWait → List (Int × List UInt8)
  | .leaving fileNum data _ | .opening fileNum _ data | .writing fileNum data => [(fileNum, data)]
  | .idle | .ending _ | .finishing _ => []

def queued : DownloadTask → Option (Int × List UInt8)
  | .block fileNum data => some (fileNum, data)
  | .done => none

/-- Whether the chain waits for a file of a folder to be opened or closed. -/
def inFolder : DownloadWait → Bool
  | .opening _ _ _ => true
  | .leaving _ _ closing | .ending closing | .finishing closing => closing
  | .idle | .writing _ _ => false

/-- What the chain writes to. -/
structure Target where
  destDir : Bool
  curFileNum : Int
  writable : Option LocalWritable
  memBuf : List (List UInt8)

def target (w : DownloadJob) : Target := ⟨w.destDir, w.curFileNum, w.writable, w.memBuf⟩

/-- The numbers under which files can be committed. -/
def Takes (destDir : Bool) (i : Int) : Prop := if destDir then i ≠ -1 else 0 ≤ i

/-- What was written of the file that is open, or is collected of it. -/
def Target.content (t : Target) : List (List UInt8) :=
  match t.writable with
  | some file => file.chunks
  | none => if t.destDir then [] else t.memBuf

/-- Of the blocks that are handled, the ones that have no end yet are in the file that is open. -/
structure Target.Open (t : Target) (handled : List (Int × List UInt8)) : Prop where
  begun : ∀ j, Takes t.destDir j → (parts handled j).1 = if j = t.curFileNum then t.content else []
  idle : t.destDir = true → t.writable = none → t.curFileNum = -1
  named : ∀ file, t.writable = some file → file.fileNum = t.curFileNum ∧ t.curFileNum ≠ -1

/-- All the blocks that are handled have an end. -/
structure Target.Ended (t : Target) (handled : List (Int × List UInt8)) : Prop where
  begun : ∀ j, Takes t.destDir j → (parts handled j).1 = []
  writable : t.writable = none

/-- Only a folder has files that are open for writing. -/
structure Placed (w : DownloadJob) : Prop where
  writable : w.destDir = false → w.writable = none
  wait : w.destDir = false → inFolder w.wait = false

/-- Where the chain stands. -/
def Here (w : DownloadJob) (handled : List (Int × List UInt8)) : Prop :=
  match w.wait with
  | .idle => w.target.Open handled
  | .leaving fileNum _ closing =>
      w.target.Ended handled ∧ closing = false ∧ (w.target.destDir → fileNum ≠ -1)
  | .opening fileNum _ _ =>
      w.target.Ended handled ∧ w.target.destDir ∧ w.target.curFileNum = fileNum ∧ fileNum ≠ -1
  | .writing fileNum data =>
      w.target.Open handled ∧ w.target.writable.isSome ∧ w.target.curFileNum = fileNum ∧
        data.length ≠ 0
  | .ending _ | .finishing _ => w.target.Ended handled

/-- What is committed is what the handled blocks complete. -/
structure Kept (destDir : Bool) (history : List DownloadNote) (handled : List (Int × List UInt8)) :
    Prop where
  committed : ∀ i, Takes destDir i → commits history i = (parts handled i).2
  others : ∀ i, ¬ Takes destDir i → commits history i = []

/-- Each block that has come is handled, or is still in the chain. -/
structure Going (w : DownloadJob) (handled : List (Int × List UInt8)) : Prop where
  aborts : w.aborts = 0
  kept : Kept w.destDir w.history handled
  received : arrivals w.history = handled ++ (inFlight w.wait ++ w.chain.filterMap queued)
  here : w.Here handled

/-- A job that has not stopped. -/
structure Running (w : DownloadJob) : Prop where
  stopped : w.stopped = false
  silent : w.history.any isStop = false
  going : ∃ handled, w.Going handled

/-- A job that has stopped, and of which nothing goes on. -/
structure Halted (w : DownloadJob) : Prop where
  stopped : w.stopped = true
  stop : w.history.any isStop = true
  sound : w.Sound

inductive Inv (w : DownloadJob) : Prop
  | running (running : w.Running)
  | halted (halted : w.Halted)

end Invariant

section Sound
variable {w w' : DownloadJob} {handled : List (Int × List UInt8)}

theorem Going.complete (h : w.Going handled) (i : Int) :
    commits w.history i <+: (parts (arrivals w.history) i).2 := by
  by_cases takes : Takes w.destDir i
  · rw [h.kept.committed i takes, h.received]
    exact parts_append handled _ i
  · rw [h.kept.others i takes]
    exact List.nil_prefix

theorem Inv.sound (h : Inv w) : w.Sound := by
  cases h with
  | running running =>
      obtain ⟨-, silent, handled, going⟩ := running
      refine ⟨going.complete, fun before note here stops => ?_⟩
      obtain ⟨later, split⟩ := here
      rw [← split, List.append_assoc, List.any_append, stops] at silent
      cases silent
  | halted halted => exact halted.sound

theorem commitOf_quiet {note : DownloadNote} (quiet : resumes note = false) (i : Int) :
    commitOf i note = none := by
  cases note with
  | closed fileNum chunks => cases quiet
  | saved fileNum name chunks => cases quiet
  | _ => rfl

theorem Sound.note (h : w.Sound) {note : DownloadNote} (quiet : resumes note = false) :
    (w.note note).Sound := by
  refine ⟨fun i => ?_, fun before last here stops => ?_⟩
  · rw [DownloadJob.note, commits_apart (commitOf_quiet quiet i), arrivals, List.filterMap_append]
    exact (h.complete i).trans (parts_append _ _ i)
  · cases List.prefix_concat_iff.mp here with
    | inl all =>
        obtain ⟨-, last⟩ := List.append_inj' all rfl
        obtain rfl := List.singleton_inj.mp last
        exact quiet
    | inr earlier => exact h.after before last earlier stops

theorem Sound.same (h : w.Sound) (history : w'.history = w.history) : w'.Sound :=
  ⟨fun i => by rw [history]; exact h.complete i, by rw [history]; exact h.after⟩

theorem Halted.same (h : w.Halted) (history : w'.history = w.history) (status : w'.status = w.status) :
    w'.Halted :=
  ⟨by rw [DownloadJob.stopped, status]; exact h.stopped, by rw [history]; exact h.stop,
    h.sound.same history⟩

theorem Halted.note (h : w.Halted) {note : DownloadNote} (quiet : resumes note = false) :
    (w.note note).Halted :=
  ⟨h.stopped, by rw [DownloadJob.note, List.any_append, h.stop]; rfl, h.sound.note quiet⟩

theorem Halted.post (h : w.Halted) {note : DownloadNote} (quiet : w.worker → resumes note = false) :
    (w.post note).Halted := by
  unfold DownloadJob.post
  split
  · next worker => exact h.note (quiet worker)
  · exact h

theorem Inv.halt (h : Inv w) {status : JobStatus} (stop : isStop (.status status))
    (history : w'.history = w.history) : (w'.setStatus status).Halted := by
  have quiet : resumes (.status status) = false := by
    cases status with
    | running => cases stop
    | done => cases stop
    | _ => rfl
  have sound : Sound { w' with status } := h.sound.same history
  refine ⟨?_, ?_, sound.note quiet⟩
  · cases status with
    | cancelled => rfl
    | error => rfl
    | _ => cases stop
  · rw [setStatus, DownloadJob.note, List.any_append]
    simp [stop]

end Sound

section Running
variable {w w' : DownloadJob} {handled : List (Int × List UInt8)}

theorem Kept.note {destDir : Bool} {history : List DownloadNote} (h : Kept destDir history handled)
    {note : DownloadNote} (apart : ∀ i, commitOf i note = none) :
    Kept destDir (history ++ [note]) handled :=
  ⟨fun i takes => (commits_apart (apart i)).trans (h.committed i takes),
    fun i takes => (commits_apart (apart i)).trans (h.others i takes)⟩

theorem Going.same (h : w.Going handled) (target : w'.target = w.target) (chain : w'.chain = w.chain)
    (wait : w'.wait = w.wait) (aborts : w'.aborts = w.aborts) (history : w'.history = w.history) :
    w'.Going handled := by
  have destDir : w'.destDir = w.destDir := congrArg Target.destDir target
  refine ⟨by rw [aborts, h.aborts], by rw [destDir, history]; exact h.kept,
    by rw [history, wait, chain, h.received], ?_⟩
  unfold Here
  rw [wait, target]
  exact h.here

theorem Running.same (h : w.Running) (target : w'.target = w.target) (chain : w'.chain = w.chain)
    (wait : w'.wait = w.wait) (aborts : w'.aborts = w.aborts) (history : w'.history = w.history)
    (status : w'.status = w.status) : w'.Running := by
  obtain ⟨handled, going⟩ := h.going
  exact ⟨by rw [DownloadJob.stopped, status]; exact h.stopped, by rw [history]; exact h.silent,
    handled, going.same target chain wait aborts history⟩

theorem Running.note (h : w.Running) {note : DownloadNote} (silent : isStop note = false)
    (apart : ∀ i, commitOf i note = none) (other : arrivalOf note = none) :
    (w.note note).Running := by
  obtain ⟨handled, going⟩ := h.going
  refine ⟨h.stopped, ?_, handled, going.aborts, going.kept.note apart,
    (arrivals_other other).trans going.received, going.here⟩
  rw [DownloadJob.note, List.any_append, h.silent]
  simp [silent]

theorem Running.post (h : w.Running) {note : DownloadNote} (silent : isStop note = false)
    (apart : ∀ i, commitOf i note = none) (other : arrivalOf note = none) :
    (w.post note).Running := by
  unfold DownloadJob.post
  split
  · exact h.note silent apart other
  · exact h

theorem Running.setStatus (h : w.Running) {status : JobStatus}
    (silent : isStop (.status status) = false) : (w.setStatus status).Running := by
  obtain ⟨-, before, handled, going⟩ := h
  refine ⟨?_, ?_, handled, going.aborts, going.kept.note fun _ => rfl,
    (arrivals_other rfl).trans going.received, going.here⟩
  · cases status with
    | cancelled => cases silent
    | error => cases silent
    | _ => rfl
  · rw [DownloadJob.setStatus, DownloadJob.note, List.any_append, before]
    simp [silent]

end Running

section Closing
variable {w w' : DownloadJob}

/-- Where nothing is collected in memory, `closeJobFile` saves nothing. -/
theorem emptied_free {commit : Bool}
    (free : ¬ (w.destDir = false ∧ commit = true ∧ 0 ≤ w.curFileNum)) :
    w.emptied commit = { w with memBuf := [] } := by
  unfold emptied
  rw [if_neg]
  intro saves
  simp only [Bool.and_eq_true, Bool.not_eq_true', decide_eq_true_eq] at saves
  exact free ⟨saves.1.1, saves.1.2, saves.2⟩

/-- A file that is not held is not committed. -/
theorem closeJobFile_of_not_holds (free : ¬ w.Holds) :
    w.closeJobFile true = ({ w with memBuf := [] }, false) := by
  obtain ⟨shut, apart⟩ := not_or.mp free
  unfold closeJobFile
  split
  · next file found =>
    exact absurd (by rw [found]; rfl) shut
  · exact congrArg (·, false) (emptied_free fun saves => apart ⟨saves.1, saves.2.2⟩)

theorem closeJobFile_open {file : LocalWritable} (found : w.writable = some file) :
    w.closeJobFile true =
      ({ w with writable := none }.note (.closed file.fileNum file.chunks), true) := by
  simp [closeJobFile, found]

theorem closeJobFile_shut (shut : w.writable = none) {commit : Bool} :
    w.closeJobFile commit = (w.emptied commit, false) := by
  simp [closeJobFile, shut]

theorem Halted.abandon (h : w.Halted) : w.abandon.Halted := by
  unfold DownloadJob.abandon closeJobFile
  cases w.writable with
  | none =>
      have shut : w.emptied false = { w with memBuf := [] } :=
        emptied_free fun saves => Bool.noConfusion saves.2.1
      simp only [shut]
      exact h.same rfl rfl
  | some file =>
      have shut : Halted { w with writable := none } := h.same rfl rfl
      have aborted : Halted ({ w with writable := none }.note (.aborted file.fileNum)) := shut.note rfl
      exact aborted.same rfl rfl

end Closing

section Chain
variable {w w' : DownloadJob} {handled : List (Int × List UInt8)} {destDir : Bool}
  {history : List DownloadNote} {note : DownloadNote} {t t' : Target} {i : Int} {data : List UInt8}

theorem Kept.commit (h : Kept destDir history handled) (takes : Takes destDir i)
    (whole : commitOf i note = some (parts handled i).1)
    (apart : ∀ j, j ≠ i → commitOf j note = none) :
    Kept destDir (history ++ [note]) (handled ++ [(i, [])]) := by
  refine ⟨fun j takes => ?_, fun j free => ?_⟩
  · by_cases same : j = i
    · subst same
      rw [parts_end, commits, List.filterMap_append, ← h.committed j takes, commits]
      simp [whole]
    · rw [commits_apart (apart j same), parts_other (Ne.symm same)]
      exact h.committed j takes
  · have other : j ≠ i := by
      rintro rfl
      exact free takes
    exact (commits_apart (apart j other)).trans (h.others j free)

/-- A block that does not end a file that can be committed. -/
theorem Kept.more (h : Kept destDir history handled) (more : Takes destDir i → data.length ≠ 0) :
    Kept destDir history (handled ++ [(i, data)]) := by
  refine ⟨fun j takes => ?_, h.others⟩
  by_cases same : i = j
  · subst same
    rw [parts_more (more takes)]
    exact h.committed i takes
  · rw [parts_other same]
    exact h.committed j takes

theorem content_open {file : LocalWritable} (found : t.writable = some file) :
    t.content = file.chunks := by
  simp [Target.content, found]

theorem content_memory (shut : t.writable = none) (memory : t.destDir = false) :
    t.content = t.memBuf := by
  simp [Target.content, shut, memory]

theorem Target.Open.current (h : t.Open handled) (takes : Takes t.destDir t.curFileNum) :
    (parts handled t.curFileNum).1 = t.content :=
  (h.begun _ takes).trans (if_pos rfl)

theorem Target.Open.ended (h : t.Open handled) (folder : t'.destDir = t.destDir)
    (shut : t'.writable = none) : t'.Ended (handled ++ [(t.curFileNum, [])]) := by
  refine ⟨fun j takes => ?_, shut⟩
  by_cases same : t.curFileNum = j
  · rw [same, parts_end]
  · rw [folder] at takes
    rw [parts_other same, h.begun j takes, if_neg (Ne.symm same)]

theorem Target.Open.collects (h : t.Open handled) (shut : t.writable = none)
    (more : data.length ≠ 0) : Target.Open { t with memBuf := t.memBuf ++ [data] }
      (handled ++ [(t.curFileNum, data)]) := by
  refine ⟨fun j takes => ?_, h.idle, h.named⟩
  by_cases same : t.curFileNum = j
  · subst same
    have memory : t.destDir = false := by
      cases folder : t.destDir with
      | false => rfl
      | true =>
          rw [Takes, folder, if_pos rfl] at takes
          exact absurd (h.idle folder shut) takes
    have collected : Target.content { t with memBuf := t.memBuf ++ [data] } = t.memBuf ++ [data] :=
      content_memory shut memory
    rw [parts_more more, h.current takes, content_memory shut memory, collected]
    exact (if_pos rfl).symm
  · rw [parts_other same, h.begun j takes, if_neg (Ne.symm same), if_neg (Ne.symm same)]

/-- Where the closure of a block has its file open. -/
structure Entered (w : DownloadJob) (i : Int) (data : List UInt8)
    (handled : List (Int × List UInt8)) : Prop where
  aborts : w.aborts = 0
  memory : w.destDir = false → w.writable = none
  kept : Kept w.destDir w.history handled
  received : arrivals w.history = handled ++ (i, data) :: w.chain.filterMap queued
  target : w.target.Open handled
  at_file : w.curFileNum = i

theorem emptied_saves (memory : w.destDir = false) (named : 0 ≤ w.curFileNum) :
    w.emptied true = { w.saveBlobToDownloads w.curFileNum with memBuf := [] } := by
  unfold emptied
  rw [if_pos]
  simp [memory, named]

theorem Entered.take (h : Entered w i data handled) (stopped : w.stopped = false)
    (silent : w.history.any isStop = false) : (w.take i data).Running := by
  obtain ⟨aborts, memory, kept, received, target, rfl⟩ := h
  unfold DownloadJob.take
  split
  · next last =>
    obtain rfl : data = [] := List.length_eq_zero_iff.mp last
    have received : arrivals w.history =
        handled ++ [(w.curFileNum, [])] ++ ([] ++ w.chain.filterMap queued) := by
      rw [received, List.append_assoc]
      rfl
    cases found : w.writable with
    | some file =>
      rw [closeJobFile_open found]
      obtain ⟨number, named⟩ := target.named file found
      have folder : w.destDir = true := by
        cases folder : w.destDir with
        | true => rfl
        | false => rw [memory folder] at found; cases found
      have takes : Takes w.destDir w.curFileNum := by
        rw [Takes, folder, if_pos rfl]
        exact named
      refine ⟨stopped, ?_, _, aborts, kept.commit takes ?_ fun j other => ?_,
        (arrivals_other rfl).trans received, target.ended rfl rfl⟩
      · rw [DownloadJob.note, List.any_append, silent]
        rfl
      · have whole : (parts handled w.curFileNum).1 = file.chunks :=
          (target.current takes).trans (content_open found)
        rw [whole]
        exact if_pos number
      · exact if_neg fun same => other (same.symm.trans number)
    | none =>
      rw [closeJobFile_shut found]
      by_cases saves : w.destDir = false ∧ 0 ≤ w.curFileNum
      · obtain ⟨folder, named⟩ := saves
        have takes : Takes w.destDir w.curFileNum := by
          rw [Takes, folder]
          exact named
        rw [emptied_saves folder named]
        refine ⟨stopped, ?_, _, aborts, kept.commit takes ?_ fun j other => ?_,
          (arrivals_other rfl).trans received, target.ended rfl found⟩
        · rw [saveBlobToDownloads, DownloadJob.note, List.any_append, silent]
          rfl
        · have whole : (parts handled w.curFileNum).1 = w.memBuf :=
            (target.current takes).trans (content_memory found folder)
          rw [whole]
          exact if_pos rfl
        · exact if_neg (Ne.symm other)
      · have free : w.emptied true = { w with memBuf := [] } :=
          emptied_free fun both => saves ⟨both.1, both.2.2⟩
        rw [free]
        refine ⟨stopped, silent, _, aborts, kept.more fun takes => ?_, received,
          target.ended rfl found⟩
        cases folder : w.destDir with
        | true =>
            rw [Takes, folder, if_pos rfl] at takes
            exact absurd (target.idle folder found) takes
        | false =>
            rw [Takes, folder] at takes
            exact absurd ⟨folder, takes⟩ saves
  · next more =>
    split
    · next opened => exact ⟨stopped, silent, handled, aborts, kept, received, target, opened, rfl, more⟩
    · next shut =>
      have shut : w.writable = none := by simpa using shut
      refine ⟨stopped, silent, handled ++ [(w.curFileNum, data)], aborts, kept.more fun _ => more, ?_,
        target.collects shut more⟩
      rw [received, List.append_assoc]
      rfl


theorem Target.Open.free (h : w.target.Open handled) (free : ¬ w.Holds) : w.target.Ended handled := by
  obtain ⟨shut, apart⟩ := not_or.mp free
  have shut : w.writable = none := by simpa using shut
  refine ⟨fun j takes => (h.begun j takes).trans (if_neg ?_), shut⟩
  rintro rfl
  cases folder : w.destDir with
  | true =>
      rw [Takes, target, folder, if_pos rfl] at takes
      exact takes (h.idle folder shut)
  | false =>
      rw [Takes, target, folder] at takes
      exact apart ⟨folder, takes⟩

theorem Running.next (h : w.Running) (placed : w.Placed) (orderly : w.Orderly .next) :
    w.next.Running := by
  obtain ⟨stopped, silent, handled, aborts, kept, received, here⟩ := h
  unfold DownloadJob.next
  split
  · next fileNum data chain idle queue =>
    rw [Here, idle] at here
    rw [idle, queue] at received
    simp only [Orderly, idle, queue] at orderly
    unfold DownloadJob.block
    split
    · next other =>
      rw [if_neg other] at orderly
      have free : ¬ Holds { w with chain } := orderly
      have ended := here.free orderly
      rw [closeJobFile_of_not_holds free]
      refine ⟨stopped, silent, handled, aborts, kept, received, ⟨ended.begun, ended.writable⟩, rfl, ?_⟩
      rintro folder rfl
      exact other (here.idle folder ended.writable)
    · next same =>
      have entered : Entered { w with chain } fileNum data handled :=
        ⟨aborts, placed.writable, kept, received, here, not_not.mp same⟩
      exact entered.take stopped silent
  · next chain idle queue =>
    rw [Here, idle] at here
    rw [idle, queue] at received
    simp only [Orderly, idle, queue] at orderly
    have free : ¬ Holds { w with chain } := orderly
    have ended := here.free orderly
    unfold DownloadJob.done
    rw [closeJobFile_of_not_holds free]
    exact ⟨stopped, silent, handled, aborts, kept, received, ended.begun, ended.writable⟩
  · exact ⟨stopped, silent, handled, aborts, kept, received, here⟩

/-- Where a file is closed the tail of `closeJobFile` saves nothing more. -/
theorem Placed.tail (placed : w.Placed) {waits : Bool} (waiting : inFolder w.wait = waits) :
    ∃ memBuf, (if waits then w.emptied true else w) = { w with memBuf } := by
  cases waits with
  | false => exact ⟨w.memBuf, rfl⟩
  | true =>
      refine ⟨[], emptied_free fun saves => ?_⟩
      rw [placed.wait saves.1] at waiting
      cases waiting

theorem Inv.failed (h : Inv w) (message : String) : (w.failed message).Halted := by
  have halted : Halted (setStatus
      { w with wait := .idle, error := some ("write failed: " ++ message) } .error) :=
    h.halt rfl rfl
  exact halted.post fun _ => rfl

theorem not_takes_none : ¬ Takes destDir (-1) := by
  cases destDir with
  | true => exact fun takes => takes rfl
  | false => exact Int.not_le.mpr (Int.negSucc_lt_zero 0)

theorem Target.Ended.idle (h : t.Ended handled) (memBuf : List (List UInt8)) :
    Target.Open ⟨t.destDir, -1, t.writable, memBuf⟩ handled := by
  refine ⟨fun j takes => (h.begun j takes).trans (if_neg ?_).symm, fun _ _ => rfl, fun file found => ?_⟩
  · rintro rfl
    exact not_takes_none takes
  · cases h.writable.symm.trans found

/-- The next file is collected in memory. -/
theorem Target.Ended.collects (h : t.Ended handled) (memory : t.destDir = false) (i : Int) :
    Target.Open ⟨t.destDir, i, t.writable, []⟩ handled := by
  have empty : Target.content ⟨t.destDir, i, t.writable, []⟩ = [] := content_memory h.writable memory
  refine ⟨fun j takes => ?_, fun folder => ?_, fun file found => ?_⟩
  · exact (h.begun j takes).trans (ite_eq_right_iff.mpr fun _ => empty).symm
  · cases memory.symm.trans folder
  · cases h.writable.symm.trans found

/-- The next file is opened. -/
theorem Target.Ended.opens (h : t.Ended handled) (named : i ≠ -1) (path : List String) :
    Target.Open { t with curFileNum := i, writable := some ⟨i, path, []⟩ } handled := by
  refine ⟨fun j takes => ?_, fun _ shut => ?_, fun file found => ?_⟩
  · exact (h.begun j takes).trans (ite_eq_right_iff.mpr fun _ => rfl).symm
  · cases shut
  · obtain rfl := Option.some.inj found
    exact ⟨rfl, named⟩

theorem Target.Open.writes (h : t.Open handled) {file : LocalWritable} (found : t.writable = some file)
    (more : data.length ≠ 0) :
    Target.Open { t with writable := some { file with chunks := file.chunks ++ [data] } }
      (handled ++ [(t.curFileNum, data)]) := by
  refine ⟨fun j takes => ?_, fun _ shut => ?_, fun file' found' => ?_⟩
  · by_cases same : t.curFileNum = j
    · subst same
      rw [parts_more more, h.current takes, content_open found]
      exact (if_pos rfl).symm
    · rw [parts_other same, h.begun j takes, if_neg (Ne.symm same), if_neg (Ne.symm same)]
  · cases shut
  · obtain rfl := Option.some.inj found'
    exact h.named file found

theorem Running.settled (h : w.Running) (placed : w.Placed) (failure : Option String) :
    Inv (w.settled failure) := by
  have inv : Inv w := .running h
  obtain ⟨stopped, silent, handled, aborts, kept, received, here⟩ := h
  unfold DownloadJob.settled
  split
  · exact inv
  · next fileNum data waits wait =>
    rw [Here, wait] at here
    rw [wait] at received
    obtain ⟨ended, -, apart⟩ := here
    have waiting : inFolder w.wait = waits := congrArg inFolder wait
    obtain ⟨memBuf, tail⟩ := placed.tail waiting
    rw [tail]
    refine .running ?_
    unfold DownloadJob.enter
    simp only
    split
    · next folder =>
      exact ⟨stopped, silent, handled, aborts, kept, received, ⟨ended.begun, ended.writable⟩, folder, rfl,
        apart folder⟩
    · next memory =>
      have entered : Entered
          { w with curFileNum := fileNum, currentFile := nameOf { w with memBuf } fileNum, memBuf := [] }
          fileNum data handled :=
        ⟨aborts, placed.writable, kept, received,
          ended.collects (Bool.eq_false_iff.mpr memory) fileNum, rfl⟩
      exact entered.take stopped silent
  · next fileNum path data wait =>
    rw [Here, wait] at here
    rw [wait] at received
    obtain ⟨ended, folder, named, apart⟩ := here
    cases failure with
    | none =>
        obtain rfl := named
        have memory (memory : w.destDir = false) : some (LocalWritable.mk w.curFileNum path []) = none := by
          cases memory.symm.trans folder
        have entered : Entered { w with writable := some ⟨w.curFileNum, path, []⟩ } w.curFileNum data
            handled :=
          ⟨aborts, memory, kept, received, ended.opens apart path, rfl⟩
        exact .running (entered.take stopped silent)
    | some message => exact .halted (inv.failed message)
  · next fileNum data wait =>
    rw [Here, wait] at here
    rw [wait] at received
    obtain ⟨opened, isOpen, named, more⟩ := here
    cases failure with
    | none =>
        obtain rfl := named
        obtain ⟨file, found⟩ := Option.isSome_iff_exists.mp isOpen
        have found : w.writable = some file := found
        simp only [found, Option.map_some]
        refine .running ⟨stopped, silent, handled ++ [(w.curFileNum, data)], aborts,
          kept.more fun _ => more, ?_, opened.writes found more⟩
        rw [received, List.append_assoc]
        rfl
    | some message => exact .halted (inv.failed message)
  · next waits wait =>
    rw [Here, wait] at here
    rw [wait] at received
    have waiting : inFolder w.wait = waits := congrArg inFolder wait
    obtain ⟨memBuf, tail⟩ := placed.tail waiting
    simp only [tail]
    exact .running ⟨stopped, silent, handled, aborts, kept, received, here.idle memBuf⟩
  · next waits wait =>
    rw [Here, wait] at here
    rw [wait] at received
    have waiting : inFolder w.wait = waits := congrArg inFolder wait
    obtain ⟨memBuf, tail⟩ := placed.tail waiting
    rw [tail]
    have idle : Running { w with memBuf, curFileNum := -1, wait := .idle } :=
      ⟨stopped, silent, handled, aborts, kept, received, here.idle memBuf⟩
    unfold DownloadJob.finished
    simp only
    split
    · exact .running ((idle.setStatus rfl).same rfl rfl rfl rfl rfl rfl)
    · exact .running idle

theorem Halted.take (h : w.Halted) (free : data = [] → ¬ w.Holds) : (w.take i data).Halted := by
  unfold DownloadJob.take
  split
  · next last =>
    rw [closeJobFile_of_not_holds (free (List.length_eq_zero_iff.mp last))]
    exact h.same rfl rfl
  · split
    · exact h.same rfl rfl
    · exact h.same rfl rfl

theorem Halted.next (h : w.Halted) (orderly : w.Orderly .next) : w.next.Halted := by
  unfold DownloadJob.next
  split
  · next fileNum data chain idle queue =>
    simp only [Orderly, idle, queue] at orderly
    have dequeued : Halted { w with chain } := h.same rfl rfl
    unfold DownloadJob.block
    split
    · next other =>
      rw [if_neg other] at orderly
      have free : ¬ Holds { w with chain } := orderly
      rw [closeJobFile_of_not_holds free]
      exact dequeued.same rfl rfl
    · next same =>
      rw [if_pos (not_not.mp same)] at orderly
      exact dequeued.take (orderly h.stopped)
  · next chain idle queue =>
    simp only [Orderly, idle, queue] at orderly
    have free : ¬ Holds { w with chain } := orderly
    unfold DownloadJob.done
    rw [closeJobFile_of_not_holds free]
    exact h.same rfl rfl
  · exact h

theorem Halted.settled (h : w.Halted) (placed : w.Placed) {failure : Option String}
    (orderly : w.Orderly (.settled failure)) : (w.settled failure).Halted := by
  unfold DownloadJob.settled
  split
  · exact h
  · next fileNum data waits wait =>
    have waiting : inFolder w.wait = waits := congrArg inFolder wait
    obtain ⟨memBuf, tail⟩ := placed.tail waiting
    simp only [Orderly, wait] at orderly
    rw [tail]
    unfold DownloadJob.enter
    simp only
    split
    · exact h.same rfl rfl
    · next memory =>
      have memory : w.destDir = false := Bool.eq_false_iff.mpr memory
      have entered : Halted
          { w with curFileNum := fileNum, currentFile := nameOf { w with memBuf } fileNum, memBuf := [] } :=
        h.same rfl rfl
      refine entered.take fun last holds => ?_
      cases holds with
      | inl opened =>
          rw [placed.writable memory] at opened
          cases opened
      | inr collects => exact absurd collects.2 (Int.not_le.mpr (orderly h.stopped last memory))
  · next fileNum path data wait =>
    simp only [Orderly, wait] at orderly
    cases failure with
    | none =>
        have opened : Halted { w with writable := some ⟨fileNum, path, []⟩ } := h.same rfl rfl
        exact opened.take fun last => absurd rfl (orderly h.stopped last)
    | some message => exact Inv.failed (.halted h) message
  · cases failure with
    | none => exact h.same rfl rfl
    | some message => exact Inv.failed (.halted h) message
  · next waits wait =>
    have waiting : inFolder w.wait = waits := congrArg inFolder wait
    obtain ⟨memBuf, tail⟩ := placed.tail waiting
    simp only [tail]
    exact h.same rfl rfl
  · next waits wait =>
    have waiting : inFolder w.wait = waits := congrArg inFolder wait
    obtain ⟨memBuf, tail⟩ := placed.tail waiting
    rw [tail]
    unfold DownloadJob.finished
    simp only
    split
    · next active =>
      have stopped := h.stopped
      rw [DownloadJob.stopped, Bool.or_eq_true, decide_eq_true_eq, decide_eq_true_eq] at stopped
      exact (stopped.elim active.2 active.1).elim
    · exact h.same rfl rfl

end Chain

section Placed
variable {w w' : DownloadJob}

theorem Placed.same (h : w.Placed) (destDir : w'.destDir = w.destDir)
    (writable : w'.writable = w.writable) (wait : w'.wait = w.wait) : w'.Placed :=
  ⟨by rw [destDir, writable]; exact h.writable, by rw [destDir, wait]; exact h.wait⟩

theorem emptied_same (w : DownloadJob) (commit : Bool) : (w.emptied commit).destDir = w.destDir ∧
    (w.emptied commit).writable = w.writable ∧ (w.emptied commit).wait = w.wait := by
  unfold emptied
  simp only
  split
  · exact ⟨rfl, rfl, rfl⟩
  · exact ⟨rfl, rfl, rfl⟩

theorem Placed.emptied (h : w.Placed) (commit : Bool) : (w.emptied commit).Placed := by
  obtain ⟨destDir, writable, wait⟩ := emptied_same w commit
  exact h.same destDir writable wait

theorem Placed.note (h : w.Placed) (note : DownloadNote) : (w.note note).Placed := h.same rfl rfl rfl

theorem Placed.post (h : w.Placed) (note : DownloadNote) : (w.post note).Placed := by
  unfold DownloadJob.post
  split
  · exact h.note note
  · exact h

theorem Placed.closeJobFile (h : w.Placed) (commit : Bool) : (w.closeJobFile commit).1.Placed ∧
    ((w.closeJobFile commit).1.destDir = false → (w.closeJobFile commit).2 = false) := by
  unfold DownloadJob.closeJobFile
  split
  · next file found =>
    refine ⟨⟨fun _ => rfl, h.wait⟩, fun memory => ?_⟩
    cases found.symm.trans (h.writable memory)
  · exact ⟨h.emptied commit, fun _ => rfl⟩

/-- The chain waits for a file that it has closed. -/
theorem Placed.closes (h : w.Placed) (waiting : Bool → DownloadWait)
    (same : ∀ closing, inFolder (waiting closing) = closing) :
    Placed { (w.closeJobFile true).1 with wait := waiting (w.closeJobFile true).2 } := by
  obtain ⟨placed, memory⟩ := h.closeJobFile true
  exact ⟨placed.writable, fun apart => (same _).trans (memory apart)⟩

theorem Placed.waits (h : w.Placed) {wait : DownloadWait} (apart : inFolder wait = false) :
    Placed { w with wait } :=
  ⟨h.writable, fun _ => apart⟩

theorem Placed.abandon (h : w.Placed) : w.abandon.Placed := by
  unfold DownloadJob.abandon
  obtain ⟨placed, -⟩ := h.closeJobFile false
  simp only
  split
  · exact placed.same rfl rfl rfl
  · exact placed

theorem Placed.take (h : w.Placed) (i : Int) (data : List UInt8) : (w.take i data).Placed := by
  unfold DownloadJob.take
  split
  · exact h.closes .ending fun _ => rfl
  · split
    · exact h.waits rfl
    · exact ⟨h.writable, fun _ => rfl⟩

theorem Placed.enter (h : w.Placed) (i : Int) (data : List UInt8) : (w.enter i data).Placed := by
  unfold DownloadJob.enter
  simp only
  split
  · next folder =>
    refine ⟨h.writable, fun memory => ?_⟩
    cases folder.symm.trans memory
  · have entered : Placed { w with curFileNum := i, currentFile := w.nameOf i, memBuf := [] } :=
      h.same rfl rfl rfl
    exact entered.take i data

theorem Placed.failed (h : w.Placed) (message : String) : (w.failed message).Placed := by
  have idle : Placed (setStatus
      { w with wait := .idle, error := some ("write failed: " ++ message) } .error) :=
    ⟨h.writable, fun _ => rfl⟩
  exact idle.post .ftCancel

theorem Placed.next (h : w.Placed) : w.next.Placed := by
  unfold DownloadJob.next
  split
  · next fileNum data chain idle queue =>
    have dequeued : Placed { w with chain } := h.same rfl rfl rfl
    unfold DownloadJob.block
    split
    · exact dequeued.closes (.leaving fileNum data) fun _ => rfl
    · exact dequeued.take fileNum data
  · next chain idle queue =>
    have dequeued : Placed { w with chain } := h.same rfl rfl rfl
    exact dequeued.closes .finishing fun _ => rfl
  · exact h

theorem Placed.finished (h : w.Placed) : w.finished.Placed := by
  unfold DownloadJob.finished
  simp only
  split
  · exact ⟨h.writable, fun _ => rfl⟩
  · exact ⟨h.writable, fun _ => rfl⟩

theorem Placed.settled (h : w.Placed) (failure : Option String) : (w.settled failure).Placed := by
  have tailed (waits : Bool) : Placed (if waits then w.emptied true else w) := by
    split
    · exact h.emptied true
    · exact h
  unfold DownloadJob.settled
  split
  · exact h
  · next fileNum data waits wait => exact (tailed waits).enter fileNum data
  · next fileNum path data wait =>
    have folder : w.destDir ≠ false := by
      intro memory
      have apart := h.wait memory
      rw [wait] at apart
      cases apart
    cases failure with
    | none =>
        have opened : Placed { w with writable := some ⟨fileNum, path, []⟩ } :=
          ⟨fun memory => absurd memory folder, h.wait⟩
        exact opened.take fileNum data
    | some message => exact h.failed message
  · cases failure with
    | none => exact ⟨fun memory => by simp [h.writable memory], fun _ => rfl⟩
    | some message => exact h.failed message
  · next waits wait => exact ⟨(tailed waits).writable, fun _ => rfl⟩
  · next waits wait => exact (tailed waits).finished

end Placed

section Step
variable {w : DownloadJob}

theorem Placed.cancelJob (h : w.Placed) : w.cancelJob.Placed := by
  unfold DownloadJob.cancelJob
  split
  · exact h
  · have cancelled : (w.setStatus .cancelled).Placed := h.same rfl rfl rfl
    exact (cancelled.post .ftCancel).abandon

theorem Placed.answer (h : w.Placed) (fileNum : Int) (action : ConflictAction) :
    (w.answer fileNum action).Placed := by
  cases action with
  | cancel => exact h.cancelJob
  | overwrite => exact h.post _
  | skip => exact h.post _

theorem Placed.listed (h : w.Placed) (remoteFiles : List FtEntry) : (w.listed remoteFiles).Placed := by
  unfold DownloadJob.listed
  simp only
  split
  · exact h.same rfl rfl rfl
  · exact h.same rfl rfl rfl

theorem Placed.teardown (h : w.Placed) : w.teardown.Placed := by
  unfold DownloadJob.teardown
  simp only
  split
  · have failed : Placed (setStatus
        { w with worker := false, error := some "connection closed" } .error) := h.same rfl rfl rfl
    exact failed.abandon
  · exact h.same rfl rfl rfl

theorem Placed.step (h : w.Placed) (event : DownloadEvent) : (w.step event).Placed := by
  cases event with
  | ftDir sep entries => exact h.listed _
  | ftDigest fileNum =>
      simp only [DownloadJob.step, onFtDigest]
      split
      · exact h.same rfl rfl rfl
      · have running : Placed { w.setStatus .running with
            currentFile := (w.setStatus .running).nameOf fileNum } := h.same rfl rfl rfl
        exact running.answer fileNum .overwrite
  | located k found =>
      simp only [DownloadJob.step]
      split
      · next fileNum _ =>
        unfold DownloadJob.located
        simp only
        split
        · exact h.same rfl rfl rfl
        · have acted : Placed { w with digests := w.digests.set k none } := h.same rfl rfl rfl
          exact acted.answer fileNum .overwrite
      · exact h
  | decide k decision => exact h.same rfl rfl rfl
  | decided k =>
      simp only [DownloadJob.step]
      split
      · next fileNum decision _ =>
        have acted (policy : Option ConflictPolicy) :
            Placed { w with digests := w.digests.set k none, policy } := h.same rfl rfl rfl
        exact (acted _).answer fileNum decision.action
      · exact h
  | ftBlock fileNum data =>
      simp only [DownloadJob.step, onFtBlock]
      split
      · exact h.note _
      · exact h.same rfl rfl rfl
  | next => exact h.next
  | settled failure => exact h.settled failure
  | ftDone => exact h.same rfl rfl rfl
  | ftError error =>
      simp only [DownloadJob.step, onFtError]
      split
      · exact h.same rfl rfl rfl
      · have failed : Placed (setStatus { w with error := some error } .error) := h.same rfl rfl rfl
        exact failed.abandon
  | cancel => exact h.cancelJob
  | aborted =>
      simp only [DownloadJob.step]
      split
      · exact h
      · have counted : Placed { w with aborts := w.aborts - 1 } := h.same rfl rfl rfl
        exact counted.emptied false
  | teardown => exact h.teardown
  | connect => exact h.teardown.same rfl rfl rfl

theorem Inv.cancelJob (h : Inv w) : Inv w.cancelJob := by
  unfold DownloadJob.cancelJob
  split
  · exact h
  · have cancelled : Halted (w.setStatus .cancelled) := h.halt rfl rfl
    exact .halted (cancelled.post fun _ => rfl).abandon

/-- A decision is acted on, and posted only when the job goes on. -/
theorem Inv.answer (h : Inv w) {fileNum : Int} {action : ConflictAction}
    (orderly : w.stopped → w.worker → action = .cancel) : Inv (w.answer fileNum action) := by
  have posts (skip : Bool) (goes : w.stopped → w.worker = false) :
      Inv (w.post (.ftConfirm fileNum skip)) := by
    cases h with
    | running running => exact .running (running.post rfl (fun _ => rfl) rfl)
    | halted halted =>
        refine .halted (halted.post fun worker => ?_)
        cases worker.symm.trans (goes halted.stopped)
  cases action with
  | cancel => exact h.cancelJob
  | overwrite => exact posts false fun stopped => Bool.eq_false_iff.mpr fun worker => nomatch orderly stopped worker
  | skip => exact posts true fun stopped => Bool.eq_false_iff.mpr fun worker => nomatch orderly stopped worker

theorem Inv.same {w' : DownloadJob} (h : Inv w) (target : w'.target = w.target)
    (chain : w'.chain = w.chain) (wait : w'.wait = w.wait) (aborts : w'.aborts = w.aborts)
    (history : w'.history = w.history) (status : w'.status = w.status) : Inv w' := by
  cases h with
  | running running => exact .running (running.same target chain wait aborts history status)
  | halted halted => exact .halted (halted.same history status)

theorem Inv.onFtBlock (h : Inv w) (fileNum : Int) (data : List UInt8) :
    Inv (w.onFtBlock fileNum data) := by
  unfold DownloadJob.onFtBlock
  cases h with
  | halted halted =>
      have heard : (w.note (.received fileNum data)).Halted := halted.note rfl
      simp only
      split
      · exact .halted heard
      · exact .halted (heard.same rfl rfl)
  | running running =>
      obtain ⟨stopped, silent, handled, aborts, kept, received, here⟩ := running
      have active : ¬ (w.status = .cancelled ∨ w.status = .error) := by
        simpa [DownloadJob.stopped] using stopped
      have heard : ¬ ((w.note (.received fileNum data)).status = .cancelled ∨
          (w.note (.received fileNum data)).status = .error) := active
      simp only [if_neg heard]
      refine .running ⟨stopped, ?_, handled, aborts, kept.note fun _ => rfl, ?_, here⟩
      · rw [DownloadJob.note, List.any_append, silent]
        rfl
      · have grown : arrivals (w.history ++ [.received fileNum data]) =
            arrivals w.history ++ [(fileNum, data)] := List.filterMap_append
        rw [DownloadJob.note, grown, received, List.filterMap_append, List.append_assoc,
          List.append_assoc]
        rfl

theorem Inv.teardown (h : Inv w) : Inv w.teardown := by
  unfold DownloadJob.teardown
  simp only
  split
  · have failed : Halted (setStatus
        { w with worker := false, error := some "connection closed" } .error) := h.halt rfl rfl
    exact .halted failed.abandon
  · exact h.same rfl rfl rfl rfl rfl rfl

theorem Inv.resume (h : Inv w) {status : JobStatus} (silent : isStop (.status status) = false)
    (active : w.stopped = false) : Inv (w.setStatus status) := by
  cases h with
  | running running => exact .running (running.setStatus silent)
  | halted halted => cases active.symm.trans halted.stopped

theorem Inv.listed (h : Inv w) {remoteFiles : List FtEntry}
    (orderly : w.stopped → remoteFiles = []) : Inv (w.listed remoteFiles) := by
  have counted : Inv
      { w with
        remoteFiles := some remoteFiles
        fileCount := remoteFiles.length
        totalSize := (remoteFiles.map FtEntry.size).sum } :=
    h.same rfl rfl rfl rfl rfl rfl
  unfold DownloadJob.listed
  simp only
  split
  · exact counted
  · next filled =>
    refine counted.resume rfl (Bool.eq_false_iff.mpr fun stopped => filled ?_)
    rw [orderly stopped, List.length_nil]

theorem Inv.step (h : Inv w) (placed : w.Placed) {event : DownloadEvent} (orderly : w.Orderly event) :
    Inv (w.step event) := by
  cases event with
  | ftDir sep entries =>
      refine h.listed fun stopped => ?_
      rw [orderly stopped]
      rfl
  | ftDigest fileNum =>
      have running : Inv (w.setStatus .running) := h.resume rfl orderly
      have named (rel : String) : Inv { w.setStatus .running with currentFile := rel } :=
        running.same rfl rfl rfl rfl rfl rfl
      simp only [DownloadJob.step, onFtDigest]
      split
      · exact running.same rfl rfl rfl rfl rfl rfl
      · exact (named _).answer nofun
  | located k found =>
      simp only [DownloadJob.step]
      split
      · next fileNum here =>
        unfold DownloadJob.located
        simp only
        split
        · exact h.same rfl rfl rfl rfl rfl rfl
        · next missing =>
          have acted : Inv { w with digests := w.digests.set k none } :=
            h.same rfl rfl rfl rfl rfl rfl
          exact acted.answer fun stopped worker =>
            absurd (orderly stopped worker fileNum here) missing
      · exact h
  | decide k decision => exact h.same rfl rfl rfl rfl rfl rfl
  | decided k =>
      simp only [DownloadJob.step]
      split
      · next fileNum decision here =>
        have acted (policy : Option ConflictPolicy) :
            Inv { w with digests := w.digests.set k none, policy } :=
          h.same rfl rfl rfl rfl rfl rfl
        exact (acted _).answer fun stopped worker => orderly stopped worker fileNum decision here
      · exact h
  | ftBlock fileNum data => exact h.onFtBlock fileNum data
  | next =>
      cases h with
      | running running => exact .running (running.next placed orderly)
      | halted halted => exact .halted (halted.next orderly)
  | settled failure =>
      cases h with
      | running running => exact running.settled placed failure
      | halted halted => exact .halted (halted.settled placed orderly)
  | ftDone =>
      cases h with
      | running running =>
          obtain ⟨stopped, silent, handled, aborts, kept, received, here⟩ := running
          refine .running ⟨stopped, silent, handled, aborts, kept, ?_, here⟩
          have unread : [DownloadTask.done].filterMap queued = [] := rfl
          rw [DownloadJob.step, onFtDone, List.filterMap_append, unread, List.append_nil]
          exact received
      | halted halted => exact .halted (halted.same rfl rfl)
  | ftError error =>
      simp only [DownloadJob.step, onFtError]
      split
      · next skipped =>
        refine h.resume rfl (Bool.eq_false_iff.mpr fun stopped => orderly stopped skipped)
      · have failed : Halted (setStatus { w with error := some error } .error) := h.halt rfl rfl
        exact .halted failed.abandon
  | cancel => exact h.cancelJob
  | aborted =>
      simp only [DownloadJob.step]
      split
      · exact h
      · next pending =>
        cases h with
        | running running =>
            obtain ⟨handled, going⟩ := running.going
            exact absurd going.aborts pending
        | halted halted =>
            have shut : emptied { w with aborts := w.aborts - 1 } false =
                { w with aborts := w.aborts - 1, memBuf := [] } :=
              emptied_free fun saves => Bool.noConfusion saves.2.1
            rw [shut]
            exact .halted (halted.same rfl rfl)
  | teardown => exact h.teardown
  | connect => exact h.teardown.same rfl rfl rfl rfl rfl rfl

theorem placed_startDownload (remotePath sep : String) (showHidden : Bool) (entry : FtEntry)
    (destDir : Bool) : (startDownload remotePath sep showHidden entry destDir).Placed :=
  ⟨fun _ => rfl, fun _ => rfl⟩

theorem inv_startDownload (remotePath sep : String) (showHidden : Bool) (entry : FtEntry)
    (destDir : Bool) : (startDownload remotePath sep showHidden entry destDir).Inv := by
  refine .running ⟨rfl, rfl, [], rfl, ⟨fun _ _ => rfl, fun _ _ => rfl⟩, rfl, fun j _ => ?_,
    fun _ _ => rfl, nofun⟩
  have empty : (startDownload remotePath sep showHidden entry destDir).target.content = [] := by
    cases destDir <;> rfl
  rw [empty]
  exact (ite_self _).symm

end Step

/-- A download commits whole files only and nothing after it has stopped, as long as each file is
ended before the next and nothing that is on its way when it stops goes on. -/
theorem sound_of_orderly (remotePath sep : String) (showHidden : Bool) (entry : FtEntry)
    (destDir : Bool) (events : List DownloadEvent)
    (orderly : Runs.Along step Orderly (startDownload remotePath sep showHidden entry destDir)
      events) :
    Sound (Runs.run step (startDownload remotePath sep showHidden entry destDir) events) := by
  have preserved (w : DownloadJob) (event : DownloadEvent) (h : w.Placed ∧ w.Inv)
      (orderly : w.Orderly event) : (w.step event).Placed ∧ (w.step event).Inv :=
    ⟨h.1.step event, h.2.step h.1 orderly⟩
  have kept := Runs.invariant_along preserved events _
    ⟨placed_startDownload remotePath sep showHidden entry destDir,
      inv_startDownload remotePath sep showHidden entry destDir⟩ orderly
  exact kept.2.sound

def plan : FtEntry := ⟨.file, "plan.txt", 2⟩

/-- A file that replaces one of the folder. -/
theorem replaced_sound : Sound (Runs.run step (startDownload "" "/" false plan true)
    [.ftDigest 0, .located 0 true, .decide 0 ⟨.overwrite, false⟩, .decided 0, .ftBlock 0 [1, 2],
      .next, .settled none, .settled none, .settled none, .ftBlock 0 [], .next, .settled none, .ftDone,
      .next, .settled none]) := by
  refine sound_of_orderly "" "/" false plan true _ ⟨rfl, nofun, trivial, nofun, trivial, ?_, nofun,
    nofun, trivial, trivial, nofun, trivial, trivial, ?_, trivial, trivial⟩
  · exact fun holds => holds.elim nofun fun memory => nomatch memory.1
  · exact fun holds => holds.elim nofun fun memory => nomatch memory.1

/-- The peer's end of a transfer that was cancelled saves an empty file. -/
theorem cancelled_saved : ¬ Sound (Runs.run step (startDownload "" "/" false plan false)
    [.ftBlock 0 [1, 2], .next, .settled none, .cancel, .ftDone, .next]) := by
  intro sound
  have whole := sound.complete 0
  exact absurd whole (by decide)

end DownloadJob
end WebClient
end CortenDesk
