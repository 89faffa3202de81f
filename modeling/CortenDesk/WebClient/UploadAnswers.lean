import CortenDesk.WebClient.FileUpload
import Mathlib.Data.List.Basic

/-!
What an upload sends follows what the peer has answered for each file, as long as the answers that
the upload waits for are about the file that it waits with.
-/
namespace CortenDesk
namespace WebClient
namespace UploadJob

section Purpose

def isDigest (i : Nat) : UploadNote → Bool
  | .ftDigest fileNum _ _ => fileNum == i
  | _ => false

def answerOf : UploadNote → Option (Nat × Bool × Nat)
  | .confirmation fileNum skip offsetBytes => some (fileNum, skip, offsetBytes)
  | _ => none

def blockOf (i : Nat) : UploadNote → Option (List UInt8)
  | .ftBlock fileNum data => if fileNum = i then some data else none
  | _ => none

def isDone : UploadNote → Bool
  | .ftDone _ => true
  | _ => false

/-- The first confirmation that comes once a file was announced. -/
def answer : List UploadNote → Nat → Option (Nat × Bool × Nat)
  | [], _ => none
  | note :: later, i => if isDigest i note then later.findSome? answerOf else answer later i

/-- The blocks that are posted for a file. -/
def blocksOf (history : List UploadNote) (i : Nat) : List (List UInt8) :=
  history.filterMap (blockOf i)

/-- The bytes from an offset to the end, in blocks that are not empty, and then an empty one. -/
def Whole (data : List UInt8) (offset : Nat) (blocks : List (List UInt8)) : Prop :=
  ∃ chunks, blocks = chunks ++ [[]] ∧ [] ∉ chunks ∧ chunks.flatten = data.drop offset

/-- The bytes from an offset as far as they were read, in blocks that are not empty. -/
def Begun (data : List UInt8) (offset cur : Nat) (blocks : List (List UInt8)) : Prop :=
  [] ∉ blocks ∧ offset ≤ cur ∧ blocks.flatten = (data.take cur).drop offset

/-- Blocks are posted for a file only once it was confirmed and not skipped, and from the offset that
was named; they are all there when the upload has gone on, and all that was to be sent is accounted
for when it says that it is done. -/
structure Answers (w : UploadJob) : Prop where
  known : ∀ i, w.files.length ≤ i → blocksOf w.history i = []
  blocks : ∀ i file, w.files[i]? = some file → blocksOf w.history i ≠ [] →
    ∃ offset, answer w.history i = some (i, false, offset) ∧
      (Whole file.data offset (blocksOf w.history i) ∨
        ∃ cur, Begun file.data offset cur (blocksOf w.history i))
  whole : ∀ i file, w.files[i]? = some file →
    w.history.any (isDigest (i + 1)) ∨ w.history.any isDone →
      ∃ skip offset, answer w.history i = some (i, skip, offset) ∧
        if skip then blocksOf w.history i = [] else Whole file.data offset (blocksOf w.history i)
  total : w.history.any isDone → w.doneBytes = w.totalSize

/-- A confirmation that the upload waits for is about the file that it waits with. -/
def Orderly (w : UploadJob) : UploadEvent → Prop
  | .sendConfirm fileNum _ _ => ∀ i, w.loop = .confirming i none → fileNum = i
  | .decided k => ∀ fileNum decision, w.digests[k]? = some (some ⟨fileNum, some decision⟩) →
      decision.action ≠ .cancel → ∀ i, w.loop = .confirming i none → fileNum = i
  | _ => True

end Purpose

section History
variable {history : List UploadNote} {note : UploadNote} {i : Nat}

theorem blocksOf_concat : blocksOf (history ++ [note]) i =
    blocksOf history i ++ (blockOf i note).toList := by
  rw [blocksOf, List.filterMap_append]
  cases block : blockOf i note <;> simp [blocksOf, block]

/-- A file that was announced is answered by the first confirmation. -/
theorem answer_concat (announced : history.any (isDigest i) = true) :
    answer (history ++ [note]) i = (answer history i).or (answerOf note) := by
  induction history with
  | nil => cases announced
  | cons first later ih =>
      rw [List.cons_append, answer, answer]
      by_cases here : isDigest i first = true
      · have one : [note].findSome? answerOf = answerOf note := by
          rw [List.findSome?_cons]
          cases answerOf note <;> rfl
        rw [if_pos here, if_pos here, List.findSome?_append, one]
      · rw [if_neg here, if_neg here]
        refine ih ?_
        simpa [here] using announced

theorem answer_eq_none (silent : history.any (isDigest i) = false) : answer history i = none := by
  induction history with
  | nil => rfl
  | cons first later ih =>
      rw [List.any_cons, Bool.or_eq_false_iff] at silent
      rw [answer, if_neg (by simp [silent.1]), ih silent.2]

/-- A file that is only now announced has no answer. -/
theorem answer_silent (silent : history.any (isDigest i) = false) :
    answer (history ++ [note]) i = none := by
  induction history with
  | nil =>
      rw [List.nil_append, answer]
      split <;> rfl
  | cons first later ih =>
      rw [List.any_cons, Bool.or_eq_false_iff] at silent
      rw [List.cons_append, answer, if_neg (by simp [silent.1]), ih silent.2]

/-- An answer stands. -/
theorem answer_kept {a : Nat × Bool × Nat} (is : answer history i = some a) :
    answer (history ++ [note]) i = some a := by
  by_cases announced : history.any (isDigest i) = true
  · rw [answer_concat announced, is]
    rfl
  · rw [Bool.not_eq_true] at announced
    rw [answer_eq_none announced] at is
    cases is

/-- A history that goes on with what is no announcement, no block and not the end. -/
structure Extends (history history' : List UploadNote) : Prop where
  blocks : ∀ i, blocksOf history' i = blocksOf history i
  announced : ∀ i, history'.any (isDigest i) = history.any (isDigest i)
  done : history'.any isDone = history.any isDone
  kept : ∀ i a, answer history i = some a → answer history' i = some a

theorem extends_concat (block : ∀ i, blockOf i note = none) (digest : ∀ i, isDigest i note = false)
    (done : isDone note = false) : Extends history (history ++ [note]) where
  blocks i := by rw [blocksOf_concat, block, Option.toList_none, List.append_nil]
  announced i := by simp [digest]
  done := by simp [done]
  kept _ _ := answer_kept

end History

section Invariant
variable {w : UploadJob} {i : Nat} {file : UploadFile} {offset cur : Nat}

/-- The sizes of the first files. -/
def sizes (files : List UploadFile) (i : Nat) : Nat := ((files.take i).map UploadFile.size).sum

/-- A file that the upload is done with. -/
def Past (history : List UploadNote) (i : Nat) (file : UploadFile) : Prop :=
  ∃ skip offset, answer history i = some (i, skip, offset) ∧
    if skip then blocksOf history i = [] else Whole file.data offset (blocksOf history i)

/-- A file that is being sent. -/
structure Sending (history : List UploadNote) (i : Nat) (file : UploadFile) (offset cur : Nat) :
    Prop where
  announced : history.any (isDigest i) = true
  answered : answer history i = some (i, false, offset)
  begun : Begun file.data offset cur (blocksOf history i)

/-- The file that the loop is at. -/
def Here (w : UploadJob) (i : Nat) : UploadLoop → Prop
  | .confirming j answered => j = i ∧ w.history.any isDone = false ∧ w.doneBytes = sizes w.files i ∧
      w.history.any (isDigest i) = true ∧ blocksOf w.history i = [] ∧
        match answered with
        | none => answer w.history i = none
        | some (.confirmed skip offset) => answer w.history i = some (i, skip, offset)
        | some .cancelled => True
  | .reading j cur stop => j = i ∧ w.history.any isDone = false ∧
      w.doneBytes = sizes w.files i + cur ∧ ∃ file offset, w.files[i]? = some file ∧
        Sending w.history i file offset cur ∧ cur < stop ∧ stop ≤ file.size
  | .sending j cur stop _ => j = i ∧ w.history.any isDone = false ∧
      w.doneBytes = sizes w.files i + cur ∧ ∃ file offset, w.files[i]? = some file ∧
        Sending w.history i file offset stop ∧ cur < stop ∧ stop ≤ file.size
  | .draining j cur => j = i ∧ w.history.any isDone = false ∧
      w.doneBytes = sizes w.files i + cur ∧ ∃ file offset, w.files[i]? = some file ∧
        Sending w.history i file offset cur ∧ cur ≤ file.size
  | .finished =>
      (w.history.any isDone = false ∧ (blocksOf w.history i = [] ∨
        ∃ file offset cur, w.files[i]? = some file ∧ Sending w.history i file offset cur)) ∨
      (i = w.files.length ∧ blocksOf w.history i = [] ∧ w.doneBytes = w.totalSize)

/-- The upload is at a file: what is before it is past, and nothing was done after it. -/
structure At (i : Nat) (w : UploadJob) : Prop where
  bound : i ≤ w.files.length
  total : w.totalSize = sizes w.files w.files.length
  past : ∀ j, j < i → ∀ file, w.files[j]? = some file → Past w.history j file
  fresh : ∀ j, i < j → blocksOf w.history j = [] ∧ w.history.any (isDigest j) = false
  here : Here w i w.loop

/-- The upload comes to a file. -/
structure Ready (i : Nat) (w : UploadJob) : Prop where
  bound : i ≤ w.files.length
  total : w.totalSize = sizes w.files w.files.length
  past : ∀ j, j < i → ∀ file, w.files[j]? = some file → Past w.history j file
  fresh : ∀ j, i ≤ j → blocksOf w.history j = [] ∧ w.history.any (isDigest j) = false
  done : w.history.any isDone = false
  doneBytes : w.doneBytes = sizes w.files i

theorem Sending.weak {history : List UploadNote} (h : Sending history i file offset cur) :
    ∃ offset, answer history i = some (i, false, offset) ∧
      (Whole file.data offset (blocksOf history i) ∨
        ∃ cur, Begun file.data offset cur (blocksOf history i)) :=
  ⟨offset, h.answered, .inr ⟨cur, h.begun⟩⟩

theorem Past.weak {history : List UploadNote} (h : Past history i file)
    (posted : blocksOf history i ≠ []) : ∃ offset, answer history i = some (i, false, offset) ∧
      (Whole file.data offset (blocksOf history i) ∨
        ∃ cur, Begun file.data offset cur (blocksOf history i)) := by
  obtain ⟨skip, offset, answered, sent⟩ := h
  cases skip with
  | true => exact absurd sent posted
  | false => exact ⟨offset, answered, .inl sent⟩

/-- What is posted for the file that the loop is at. -/
theorem here_blocks {loop : UploadLoop} (h : Here w i loop) : blocksOf w.history i = [] ∨
    ∃ file offset cur, w.files[i]? = some file ∧ Sending w.history i file offset cur := by
  cases loop with
  | confirming j answered => exact .inl h.2.2.2.2.1
  | reading j cur stop =>
      obtain ⟨-, -, -, file, offset, found, sending, -⟩ := h
      exact .inr ⟨file, offset, cur, found, sending⟩
  | sending j cur stop taken =>
      obtain ⟨-, -, -, file, offset, found, sending, -⟩ := h
      exact .inr ⟨file, offset, stop, found, sending⟩
  | draining j cur =>
      obtain ⟨-, -, -, file, offset, found, sending, -⟩ := h
      exact .inr ⟨file, offset, cur, found, sending⟩
  | finished =>
      rcases h with ⟨-, h⟩ | ⟨-, empty, -⟩
      · exact h
      · exact .inl empty

theorem here_done {loop : UploadLoop} (h : Here w i loop) (done : w.history.any isDone = true) :
    i = w.files.length ∧ w.doneBytes = w.totalSize := by
  have not (none : w.history.any isDone = false) : False := by
    rw [done] at none
    cases none
  cases loop with
  | confirming j answered => exact (not h.2.1).elim
  | reading j cur stop => exact (not h.2.1).elim
  | sending j cur stop taken => exact (not h.2.1).elim
  | draining j cur => exact (not h.2.1).elim
  | finished =>
      rcases h with ⟨none, -⟩ | ⟨last, -, total⟩
      · exact (not none).elim
      · exact ⟨last, total⟩

theorem At.answers (h : At i w) : Answers w where
  known j outside := by
    rcases Nat.lt_or_ge i j with later | before
    · exact (h.fresh j later).1
    · obtain rfl : j = i := Nat.le_antisymm before (Nat.le_trans h.bound outside)
      rcases here_blocks h.here with empty | ⟨file, offset, cur, found, -⟩
      · exact empty
      · rw [List.getElem?_eq_none outside] at found
        cases found
  blocks j file found some := by
    rcases Nat.lt_trichotomy j i with before | rfl | later
    · exact (h.past j before file found).weak some
    · rcases here_blocks h.here with empty | ⟨file', offset, cur, found', sending⟩
      · exact absurd empty some
      · obtain rfl := Option.some.inj (found.symm.trans found')
        exact sending.weak
    · exact absurd (h.fresh j later).1 some
  whole j file found past := by
    refine h.past j ?_ file found
    rcases past with announced | done
    · by_contra after
      have silent := (h.fresh (j + 1) (by omega)).2
      rw [announced] at silent
      cases silent
    · rw [(here_done h.here done).1]
      exact (List.getElem?_eq_some_iff.mp found).1
  total done := (here_done h.here done).2

/-- The invariant is about the loop, and what it has sent. -/
theorem At.same {w' : UploadJob} (h : At i w) (files : w'.files = w.files)
    (totalSize : w'.totalSize = w.totalSize) (history : w'.history = w.history)
    (loop : w'.loop = w.loop) (doneBytes : w'.doneBytes = w.doneBytes) : At i w' := by
  have here (loop : UploadLoop) : Here w' i loop ↔ Here w i loop := by
    cases loop <;> simp only [Here, files, totalSize, history, doneBytes]
  refine ⟨files ▸ h.bound, ?_, ?_, history ▸ h.fresh, ?_⟩
  · rw [totalSize, files, h.total]
  · rw [history, files]
    exact h.past
  · rw [loop, here]
    exact h.here

theorem Past.extends {history history' : List UploadNote} (h : Past history i file)
    (goes : Extends history history') : Past history' i file := by
  obtain ⟨skip, offset, answered, sent⟩ := h
  refine ⟨skip, offset, goes.kept i _ answered, ?_⟩
  rw [goes.blocks]
  exact sent

theorem Past.concat {history : List UploadNote} {note : UploadNote} (h : Past history i file)
    (block : blockOf i note = none) : Past (history ++ [note]) i file := by
  obtain ⟨skip, offset, answered, sent⟩ := h
  refine ⟨skip, offset, answer_kept answered, ?_⟩
  rw [blocksOf_concat, block, Option.toList_none, List.append_nil]
  exact sent

theorem Sending.extends {history history' : List UploadNote}
    (h : Sending history i file offset cur) (goes : Extends history history') :
    Sending history' i file offset cur := by
  refine ⟨(goes.announced i).trans h.announced, goes.kept i _ h.answered, ?_⟩
  rw [goes.blocks]
  exact h.begun

/-- What comes beside the loop; the answer that it waits for is told apart. -/
theorem At.extends (h : At i w) {history' : List UploadNote} (goes : Extends w.history history')
    (waits : w.loop = .confirming i none → answer history' i = none) :
    At i { w with history := history' } := by
  refine ⟨h.bound, h.total, fun j before file found => (h.past j before file found).extends goes,
    fun j later => ?_, ?_⟩
  · rw [goes.blocks, goes.announced]
    exact h.fresh j later
  · have here := h.here
    show Here _ i w.loop
    cases loop : w.loop with
    | confirming j answered =>
        rw [loop] at here
        obtain ⟨rfl, done, doneBytes, announced, empty, is⟩ := here
        refine ⟨rfl, goes.done.trans done, doneBytes, (goes.announced j).trans announced,
          (goes.blocks j).trans empty, ?_⟩
        match answered with
        | none => exact waits loop
        | some (.confirmed skip offset) => exact goes.kept j _ is
        | some .cancelled => trivial
    | reading j cur stop =>
        rw [loop] at here
        obtain ⟨rfl, done, doneBytes, file, offset, found, sending, bounds⟩ := here
        exact ⟨rfl, goes.done.trans done, doneBytes, file, offset, found, sending.extends goes, bounds⟩
    | sending j cur stop taken =>
        rw [loop] at here
        obtain ⟨rfl, done, doneBytes, file, offset, found, sending, bounds⟩ := here
        exact ⟨rfl, goes.done.trans done, doneBytes, file, offset, found, sending.extends goes, bounds⟩
    | draining j cur =>
        rw [loop] at here
        obtain ⟨rfl, done, doneBytes, file, offset, found, sending, bounds⟩ := here
        exact ⟨rfl, goes.done.trans done, doneBytes, file, offset, found, sending.extends goes, bounds⟩
    | finished =>
        rw [loop] at here
        rcases here with ⟨done, empty | ⟨file, offset, cur, found, sending⟩⟩ | ⟨last, empty, total⟩
        · exact .inl ⟨goes.done.trans done, .inl ((goes.blocks i).trans empty)⟩
        · exact .inl ⟨goes.done.trans done, .inr ⟨file, offset, cur, found, sending.extends goes⟩⟩
        · exact .inr ⟨last, (goes.blocks i).trans empty, total⟩

/-- A note that is none of the loop's and no answer. -/
theorem At.post (h : At i w) {note : UploadNote} (block : ∀ i, blockOf i note = none)
    (digest : ∀ i, isDigest i note = false) (done : isDone note = false)
    (silent : answerOf note = none) : At i (w.post note) := by
  refine h.extends (extends_concat block digest done) fun loop => ?_
  have here := h.here
  rw [loop] at here
  obtain ⟨-, -, -, announced, -, none⟩ := here
  rw [answer_concat announced, none, silent]
  rfl

/-- A confirmation, of the file that is waited with if one is. -/
theorem At.confirmation (h : At i w) {fileNum offsetBytes : Nat} {skip : Bool}
    (right : ∀ j, w.loop = .confirming j none → fileNum = j) :
    At i (w.confirmation fileNum skip offsetBytes) := by
  have goes : Extends w.history (w.history ++ [.confirmation fileNum skip offsetBytes]) :=
    extends_concat (fun _ => rfl) (fun _ => rfl) rfl
  unfold UploadJob.confirmation confirmWaiter
  split
  · next j waits =>
    have waits : w.loop = .confirming j none := waits
    have here := h.here
    rw [waits] at here
    obtain ⟨rfl, done, doneBytes, announced, empty, none⟩ := here
    obtain rfl := right j waits
    refine ⟨h.bound, h.total, fun l before file found => (h.past l before file found).extends goes,
      fun l later => ?_, rfl, goes.done.trans done, doneBytes, (goes.announced _).trans announced,
      (goes.blocks _).trans empty, ?_⟩
    · rw [UploadJob.post, goes.blocks, goes.announced]
      exact h.fresh l later
    · rw [UploadJob.post, answer_concat announced, none]
      rfl
  · next settled => exact h.extends goes fun waits => absurd waits (settled i)

theorem At.cancelled (h : At i w) : At i (w.confirmWaiter .cancelled) := by
  unfold confirmWaiter
  split
  · next j waits =>
    have here := h.here
    rw [waits] at here
    obtain ⟨rfl, done, doneBytes, announced, empty, -⟩ := here
    exact ⟨h.bound, h.total, h.past, h.fresh, rfl, done, doneBytes, announced, empty, trivial⟩
  · exact h

theorem At.sentWaiter (h : At i w) (buffered : Nat) : At i (w.sentWaiter buffered) := by
  unfold UploadJob.sentWaiter
  split
  · next waits =>
    have here := h.here
    rw [waits] at here
    exact ⟨h.bound, h.total, h.past, h.fresh, here⟩
  · exact h

/-- The loop is left. -/
theorem At.finish (h : At i w) (done : w.history.any isDone = false) : At i w.finish :=
  ⟨h.bound, h.total, h.past, h.fresh, .inl ⟨done, here_blocks h.here⟩⟩

/-- The next file is announced, or the end. -/
theorem Ready.head (h : Ready i w) : At i (w.head i) := by
  have stopped : At i w.finish :=
    ⟨h.bound, h.total, h.past, fun j later => h.fresh j (Nat.le_of_lt later),
      .inl ⟨h.done, .inl (h.fresh i (Nat.le_refl i)).1⟩⟩
  unfold UploadJob.head
  cases found : w.files[i]? with
  | some file =>
      simp only
      split
      · exact stopped
      · refine ⟨h.bound, h.total, fun j before file found => ?_, fun j later => ?_, rfl, ?_,
          h.doneBytes, ?_, ?_, ?_⟩
        · exact (h.past j before file found).concat rfl
        · obtain ⟨empty, silent⟩ := h.fresh j (Nat.le_of_lt later)
          refine ⟨blocksOf_concat.trans (by rw [empty]; rfl), ?_⟩
          simp [UploadJob.post, silent, isDigest, Nat.ne_of_lt later]
        · simp [UploadJob.post, h.done, isDone]
        · simp [UploadJob.post, isDigest]
        · exact blocksOf_concat.trans (by rw [(h.fresh i (Nat.le_refl i)).1]; rfl)
        · exact answer_silent (h.fresh i (Nat.le_refl i)).2
  | none =>
      have last : i = w.files.length := Nat.le_antisymm h.bound (List.getElem?_eq_none_iff.mp found)
      simp only
      split
      · exact stopped
      · refine ⟨h.bound, h.total, fun j before file found => ?_, fun j later => ?_, .inr ⟨last, ?_, ?_⟩⟩
        · exact (h.past j before file found).concat rfl
        · obtain ⟨empty, silent⟩ := h.fresh j (Nat.le_of_lt later)
          refine ⟨blocksOf_concat.trans (by rw [finish, empty]; rfl), ?_⟩
          simp [UploadJob.post, finish, silent, isDigest]
        · exact blocksOf_concat.trans (by rw [finish, (h.fresh i (Nat.le_refl i)).1]; rfl)
        · rw [UploadJob.post, finish, h.total, h.doneBytes, last]

/-- The next part of a file is posted. -/
theorem Sending.concat {history : List UploadNote} (h : Sending history i file offset cur)
    {stop : Nat} (more : cur < stop) (bound : stop ≤ file.size) :
    Sending (history ++ [.ftBlock i ((file.data.drop cur).take (stop - cur))]) i file offset stop := by
  obtain ⟨full, after, sent⟩ := h.begun
  rw [UploadFile.size] at bound
  have length : ((file.data.drop cur).take (stop - cur)).length = stop - cur := by
    rw [List.length_take, List.length_drop]
    omega
  refine ⟨?_, answer_kept h.answered, ?_, Nat.le_trans after (Nat.le_of_lt more), ?_⟩
  · rw [List.any_append, h.announced]
    rfl
  · rw [blocksOf_concat, blockOf, if_pos rfl, Option.toList_some, List.mem_append, not_or]
    refine ⟨full, fun mem => ?_⟩
    rw [← List.mem_singleton.mp mem, List.length_nil] at length
    omega
  · have parts : file.data.take stop = file.data.take cur ++ (file.data.drop cur).take (stop - cur) := by
      rw [← List.take_add, Nat.add_sub_cancel' (Nat.le_of_lt more)]
    have short : offset ≤ (file.data.take cur).length := by
      rw [List.length_take]
      omega
    rw [blocksOf_concat, blockOf, if_pos rfl, Option.toList_some, List.flatten_append, sent, parts,
      List.drop_append_of_le_length short, List.flatten_singleton]

theorem sizes_succ {files : List UploadFile} (found : files[i]? = some file) :
    sizes files (i + 1) = sizes files i + file.size := by
  rw [sizes, List.take_add_one, found, Option.toList_some, List.map_append, List.sum_append]
  simp [sizes]

/-- The loop over the blocks of a file. -/
structure Sends (i : Nat) (file : UploadFile) (offset cur : Nat) (w : UploadJob) : Prop where
  total : w.totalSize = sizes w.files w.files.length
  past : ∀ j, j < i → ∀ file, w.files[j]? = some file → Past w.history j file
  fresh : ∀ j, i < j → blocksOf w.history j = [] ∧ w.history.any (isDigest j) = false
  done : w.history.any isDone = false
  found : w.files[i]? = some file
  sending : Sending w.history i file offset cur
  doneBytes : w.doneBytes = sizes w.files i + min cur file.size

/-- What is left of the file is read, or its end is marked and the next file comes. -/
theorem Sends.blocks (h : Sends i file offset cur w) : ∃ j, At j (w.blocks i file cur) := by
  have bound : i < w.files.length := (List.getElem?_eq_some_iff.mp h.found).1
  unfold UploadJob.blocks
  split
  · next more =>
    have doneBytes : w.doneBytes = sizes w.files i + cur := by
      rw [h.doneBytes, Nat.min_eq_left (Nat.le_of_lt more)]
    refine ⟨i, ?_⟩
    split
    · exact ⟨Nat.le_of_lt bound, h.total, h.past, h.fresh,
        .inl ⟨h.done, .inr ⟨file, offset, cur, h.found, h.sending⟩⟩⟩
    · refine ⟨Nat.le_of_lt bound, h.total, h.past, h.fresh, rfl, h.done, doneBytes, file, offset,
        h.found, h.sending, ?_, Nat.min_le_right _ _⟩
      rw [ftBlockSize]
      omega
  · next all =>
    have all : file.size ≤ cur := Nat.le_of_not_lt all
    refine ⟨i + 1, Ready.head ⟨bound, h.total, fun j before file' found => ?_, fun j later => ?_, ?_, ?_⟩⟩
    · rcases Nat.lt_succ_iff_lt_or_eq.mp before with before | rfl
      · exact (h.past j before file' found).concat (if_neg (Nat.ne_of_gt before))
      · obtain rfl := Option.some.inj (h.found.symm.trans found)
        obtain ⟨full, -, sent⟩ := h.sending.begun
        refine ⟨false, offset, answer_kept h.sending.answered, ?_⟩
        rw [UploadJob.post, blocksOf_concat, blockOf, if_pos rfl]
        refine ⟨_, rfl, full, ?_⟩
        rw [sent, List.take_of_length_le all]
    · obtain ⟨empty, silent⟩ := h.fresh j later
      refine ⟨blocksOf_concat.trans ?_, ?_⟩
      · rw [empty, blockOf, if_neg (Nat.ne_of_lt later)]
        rfl
      · simp [UploadJob.post, silent, isDigest]
    · simp [UploadJob.post, h.done, isDone]
    · rw [UploadJob.post, h.doneBytes, sizes_succ h.found, Nat.min_eq_right all]

theorem At.confirmed (h : At i w) {answered : UploadConfirm}
    (loop : w.loop = .confirming i (some answered)) (found : w.files[i]? = some file) :
    ∃ j, At j (w.confirmed i file answered) := by
  have here := h.here
  rw [loop] at here
  obtain ⟨-, done, doneBytes, announced, empty, is⟩ := here
  cases answered with
  | cancelled => exact ⟨i, h.finish done⟩
  | confirmed skip offset =>
      simp only [UploadJob.confirmed]
      split
      · exact ⟨i, h.finish done⟩
      · split
        · next skipped =>
          subst skipped
          refine ⟨i + 1, Ready.head ⟨(List.getElem?_eq_some_iff.mp found).1, h.total,
            fun j before file' found' => ?_, fun j later => h.fresh j later, done, ?_⟩⟩
          · rcases Nat.lt_succ_iff_lt_or_eq.mp before with before | rfl
            · exact h.past j before file' found'
            · exact ⟨true, offset, is, empty⟩
          · simp only [doneBytes, sizes_succ found]
        · next sends =>
          rw [Bool.not_eq_true] at sends
          subst sends
          refine Sends.blocks ⟨h.total, h.past, h.fresh, done, found, ⟨announced, is, ?_⟩, ?_⟩
          · rw [empty]
            refine ⟨List.not_mem_nil, Nat.le_refl _, ?_⟩
            rw [List.drop_take, Nat.sub_self, List.take_zero]
            rfl
          · simp only [doneBytes]

/-- A part of a file is posted, or what reading it throws. -/
theorem At.read (h : At i w) {cur stop : Nat} {failure : Option String}
    (loop : w.loop = .reading i cur stop) (found : w.files[i]? = some file) :
    At i (w.read i file cur stop failure) := by
  have here := h.here
  rw [loop] at here
  obtain ⟨-, done, doneBytes, file', offset, found', sending, more, bound⟩ := here
  obtain rfl := Option.some.inj (found.symm.trans found')
  cases failure with
  | some message =>
      simp only [UploadJob.read]
      split
      · exact h.finish done
      · have finished : At i { w.finish with status := .error, error := some message } :=
          (h.finish done).same rfl rfl rfl rfl rfl
        exact finished.post (fun _ => rfl) (fun _ => rfl) rfl rfl
  | none =>
      refine ⟨h.bound, h.total, fun j before file' found' => ?_, fun j later => ?_, rfl, ?_, doneBytes,
        file, offset, found, sending.concat more bound, more, bound⟩
      · exact (h.past j before file' found').concat (if_neg (Nat.ne_of_gt before))
      · obtain ⟨empty, silent⟩ := h.fresh j later
        refine ⟨blocksOf_concat.trans ?_, ?_⟩
        · rw [empty, blockOf, if_neg (Nat.ne_of_lt later)]
          rfl
        · exact List.any_append.trans (by rw [silent]; rfl)
      · exact List.any_append.trans (by rw [done]; rfl)

theorem At.taken (h : At i w) {cur stop buffered : Nat}
    (loop : w.loop = .sending i cur stop (some buffered)) (found : w.files[i]? = some file) :
    ∃ j, At j (w.taken i file cur stop buffered) := by
  have here := h.here
  rw [loop] at here
  obtain ⟨-, done, doneBytes, file', offset, found', sending, more, bound⟩ := here
  obtain rfl := Option.some.inj (found.symm.trans found')
  have doneBytes : w.doneBytes + (stop - cur) = sizes w.files i + stop := by omega
  simp only [UploadJob.taken]
  split
  · exact ⟨i, h.bound, h.total, h.past, h.fresh, rfl, done, doneBytes, file, offset, found, sending,
      bound⟩
  · refine Sends.blocks ⟨h.total, h.past, h.fresh, done, found, sending, ?_⟩
    simp only [doneBytes, Nat.min_eq_left bound]

theorem At.drained (h : At i w) {cur : Nat} (loop : w.loop = .draining i cur)
    (found : w.files[i]? = some file) : ∃ j, At j (w.blocks i file cur) := by
  have here := h.here
  rw [loop] at here
  obtain ⟨-, done, doneBytes, file', offset, found', sending, bound⟩ := here
  obtain rfl := Option.some.inj (found.symm.trans found')
  refine Sends.blocks ⟨h.total, h.past, h.fresh, done, found, sending, ?_⟩
  rw [doneBytes, Nat.min_eq_left bound]

theorem At.cancelJob (h : At i w) : At i w.cancelJob := by
  unfold UploadJob.cancelJob
  split
  · exact h
  · have cancelled : At i { w with status := .cancelled } := h.same rfl rfl rfl rfl rfl
    exact ((cancelled.post (fun _ => rfl) (fun _ => rfl) rfl rfl).cancelled).sentWaiter 0

theorem At.decided (h : At i w) {k fileNum : Nat} {decision : ConflictDecision}
    (right : decision.action ≠ .cancel → ∀ j, w.loop = .confirming j none → fileNum = j) :
    At i (w.decided k fileNum decision) := by
  have acted : At i { w with digests := w.digests.set k none } := h.same rfl rfl rfl rfl rfl
  have confirms (skip : Bool) (policy : Option ConflictPolicy)
      (right : ∀ j, w.loop = .confirming j none → fileNum = j) :
      At i (({ w with digests := w.digests.set k none, policy }.post
        (.ftConfirm fileNum skip)).confirmation fileNum skip 0) := by
    have sticky : At i { w with digests := w.digests.set k none, policy } :=
      h.same rfl rfl rfl rfl rfl
    exact (sticky.post (fun _ => rfl) (fun _ => rfl) rfl rfl).confirmation right
  unfold UploadJob.decided
  cases action : decision.action with
  | cancel => exact acted.cancelJob.cancelled
  | overwrite => exact confirms false _ (right (by rw [action]; decide))
  | skip => exact confirms true _ (right (by rw [action]; decide))

theorem At.step (h : At i w) {event : UploadEvent} (orderly : w.Orderly event) :
    ∃ j, At j (w.step event) := by
  cases event with
  | sendConfirm fileNum skip offsetBytes => exact ⟨i, h.confirmation orderly⟩
  | digest fileNum => exact ⟨i, h.same rfl rfl rfl rfl rfl⟩
  | decide k decision => exact ⟨i, h.same rfl rfl rfl rfl rfl⟩
  | decided k =>
      simp only [UploadJob.step]
      split
      · next fileNum decision found => exact ⟨i, h.decided (orderly fileNum decision found)⟩
      · exact ⟨i, h⟩
  | cancel => exact ⟨i, h.cancelJob⟩
  | confirmed =>
      simp only [UploadJob.step]
      split
      · next j answered loop =>
        have here := h.here
        rw [loop] at here
        obtain rfl := here.1
        split
        · next found => exact h.confirmed loop found
        · exact ⟨j, h⟩
      · exact ⟨i, h⟩
  | read failure =>
      simp only [UploadJob.step]
      split
      · next j cur stop loop =>
        have here := h.here
        rw [loop] at here
        obtain rfl := here.1
        split
        · next found => exact ⟨j, h.read loop found⟩
        · exact ⟨j, h⟩
      · exact ⟨i, h⟩
  | sent buffered => exact ⟨i, h.sentWaiter buffered⟩
  | taken =>
      simp only [UploadJob.step]
      split
      · next j cur stop buffered loop =>
        have here := h.here
        rw [loop] at here
        obtain rfl := here.1
        split
        · next found => exact h.taken loop found
        · exact ⟨j, h⟩
      · exact ⟨i, h⟩
  | drained =>
      simp only [UploadJob.step]
      split
      · next j cur loop =>
        have here := h.here
        rw [loop] at here
        obtain rfl := here.1
        split
        · next found => exact h.drained loop found
        · exact ⟨j, h⟩
      · exact ⟨i, h⟩
  | ftDone => exact ⟨i, h.same rfl rfl rfl rfl rfl⟩
  | ftError error =>
      simp only [UploadJob.step, onFtError]
      split
      · exact ⟨i, h.same rfl rfl rfl rfl rfl⟩
      · have failed : At i { w with status := .error, error := some error } :=
          h.same rfl rfl rfl rfl rfl
        exact ⟨i, failed.cancelled.sentWaiter 0⟩
  | state streaming => exact ⟨i, h.same rfl rfl rfl rfl rfl⟩
  | teardown =>
      simp only [UploadJob.step, UploadJob.teardown]
      split
      · have failed : At i
            { w with streaming := false, status := .error, error := some "connection closed" } :=
          h.same rfl rfl rfl rfl rfl
        exact ⟨i, failed.cancelled.sentWaiter 0⟩
      · exact ⟨i, h.same rfl rfl rfl rfl rfl⟩

theorem at_uploadFiles (first : UploadFile) (others : List UploadFile) :
    At 0 (uploadFiles first others) := by
  unfold uploadFiles
  refine Ready.head ⟨Nat.zero_le _, ?_, fun j before => absurd before (Nat.not_lt_zero j),
    fun j _ => ⟨rfl, rfl⟩, rfl, rfl⟩
  simp [sizes, UploadJob.post]

end Invariant

/-- An upload follows the peer's answers, as long as each answer that it waits for is about the file
that it waits with. -/
theorem answers_of_orderly (first : UploadFile) (others : List UploadFile)
    (events : List UploadEvent)
    (orderly : Runs.Along step Orderly (uploadFiles first others) events) :
    Answers (Runs.run step (uploadFiles first others) events) := by
  have preserved (w : UploadJob) (event : UploadEvent) (h : ∃ i, At i w)
      (orderly : w.Orderly event) : ∃ i, At i (w.step event) := by
    obtain ⟨i, h⟩ := h
    exact h.step orderly
  obtain ⟨i, h⟩ := Runs.invariant_along (I := fun w => ∃ i, At i w) preserved events _
    ⟨0, at_uploadFiles first others⟩ orderly
  exact h.answers

def notes : UploadFile := ⟨"notes.txt", [1, 2, 3], 0⟩

def todo : UploadFile := ⟨"todo.txt", [9], 0⟩

/-- A file that is sent from an offset, and one that is skipped. -/
theorem resumed_answers : Answers (Runs.run step (uploadFiles notes [todo])
    [.sendConfirm 0 false 1, .confirmed, .read none, .sent 0, .taken, .sendConfirm 1 true 0,
      .confirmed]) := by
  refine answers_of_orderly notes [todo] _ ⟨?_, trivial, trivial, trivial, trivial, ?_, trivial,
    trivial⟩
  · intro i waits
    cases waits
    rfl
  · intro i waits
    cases waits
    rfl

/-- A second confirmation of the first file is taken for the second. -/
theorem repeated_confirmation_taken : ¬ Answers (Runs.run step (uploadFiles notes [todo])
    [.sendConfirm 0 false 0, .confirmed, .read none, .sent 0, .taken, .sendConfirm 0 false 0,
      .confirmed, .read none]) := by
  intro answers
  obtain ⟨offset, answered, -⟩ := answers.blocks 1 todo rfl (by decide)
  cases answered

end UploadJob
end WebClient
end CortenDesk
