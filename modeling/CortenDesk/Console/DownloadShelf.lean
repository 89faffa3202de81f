import CortenDesk.Console.ClientDownloads

/-!
The rows and the disk go together: every row has its file, as long as the row says and with the hash
the row says, and every file has its row. And the rows stand in a list of their own, in which a new
one comes last and two neighbours change places.
-/
namespace CortenDesk
open Php Table

namespace ClientDownloadManager

section Order

private instance : Std.Total fun a b : ClientDownload => sortKey a ≤ sortKey b :=
  ⟨fun a b => le_total (sortKey a) (sortKey b)⟩

private instance : IsTrans ClientDownload fun a b => sortKey a ≤ sortKey b :=
  ⟨fun _ _ _ => le_trans⟩

theorem sortKey_le_of_lt {a b : ClientDownload} (before : a.sortOrder < b.sortOrder) :
    sortKey a ≤ sortKey b :=
  Prod.Lex.toLex_le_toLex.mpr (.inl before)

theorem id_eq_of_sortKey {a b : ClientDownload} (same : sortKey a = sortKey b) : a.id = b.id :=
  congrArg (fun key : ℕ ×ₗ String ×ₗ ℕᵒᵈ => OrderDual.ofDual (ofLex (ofLex key).2).2) same

variable {t : Table ClientDownload}

theorem mem_ordered {row : ClientDownload} : row ∈ ordered t ↔ row ∈ t.rows :=
  List.mem_insertionSort _

theorem perm_ordered (t : Table ClientDownload) : (ordered t).Perm t.rows :=
  List.perm_insertionSort _ _

/-- The rows in a list, with sort orders that rise. -/
structure Shelved (t : Table ClientDownload) (l : List ClientDownload) : Prop where
  perm : l.Perm t.rows
  rising : l.Pairwise fun a b => a.sortOrder < b.sortOrder

theorem Shelved.ordered {l : List ClientDownload} (shelved : Shelved t l) : ordered t = l := by
  have sorted : l.Pairwise fun a b => sortKey a ≤ sortKey b := shelved.rising.imp sortKey_le_of_lt
  refine ((perm_ordered t).trans shelved.perm.symm).eq_of_pairwise ?_
    (List.pairwise_insertionSort _ _) sorted
  intro a b listed listed' le ge
  exact t.eq_of_id_eq (mem_ordered.mp listed) (shelved.perm.mem_iff.mp listed')
    (id_eq_of_sortKey (le_antisymm le ge))

end Order

section Shelf
variable {t : Table ClientDownload} {l : List ClientDownload}

theorem Shelved.empty : Shelved Table.empty [] := ⟨.refl _, .nil⟩

/-- A change that leaves the column alone. -/
theorem Shelved.update (shelved : Shelved t l) {p : ClientDownload → Bool}
    {f : ClientDownload → ClientDownload} {keeps : ∀ row, Row.id (f row) = Row.id row}
    (same : ∀ row, (f row).sortOrder = row.sortOrder) :
    Shelved (t.update p f keeps) (l.map fun row => if p row then f row else row) := by
  have column (row : ClientDownload) : (if p row then f row else row).sortOrder = row.sortOrder := by
    split
    · exact same row
    · rfl
  refine ⟨shelved.perm.map _, List.pairwise_map.mpr (shelved.rising.imp fun less => ?_)⟩
  rw [column, column]
  exact less

theorem Shelved.delete (shelved : Shelved t l) (p : ClientDownload → Bool) :
    Shelved (t.delete p) (l.filter fun row => ! p row) :=
  ⟨shelved.perm.filter _, shelved.rising.filter _⟩

theorem le_maxSortOrder {row : ClientDownload} (listed : row ∈ t.rows) :
    row.sortOrder ≤ maxSortOrder t := by
  have bound : ∀ (orders : List Nat) (start n : Nat), n ∈ orders ∨ n ≤ start → n ≤ orders.foldl max start := by
    intro orders
    induction orders with
    | nil => exact fun start n within => within.resolve_left List.not_mem_nil
    | cons first orders ih =>
        intro start n within
        refine ih (max start first) n ?_
        rcases within with listed | below
        · rcases List.mem_cons.mp listed with rfl | later
          · exact .inr (Nat.le_max_right _ _)
          · exact .inl later
        · exact .inr (Nat.le_trans below (Nat.le_max_left _ _))
  exact bound _ 0 _ (.inl (List.mem_map_of_mem listed))

theorem Shelved.insert (shelved : Shelved t l) {make : Nat → ClientDownload}
    {given : ∀ n, Row.id (make n) = n} (last : (make t.nextId).sortOrder = maxSortOrder t + 1) :
    Shelved (t.insert make given) (l ++ [make t.nextId]) := by
  refine ⟨shelved.perm.append_right _, List.pairwise_append.mpr ⟨shelved.rising, List.pairwise_singleton _ _, ?_⟩⟩
  intro row listed new made
  rw [List.mem_singleton.mp made, last]
  exact Nat.lt_succ_of_le (le_maxSortOrder (shelved.perm.mem_iff.mp listed))

def numbered (start : Nat) (l : List ClientDownload) : List ClientDownload :=
  (l.zipIdx start).map fun (download, position) => withOrder (position + 1) download

theorem numbered_cons (start : Nat) (download : ClientDownload) (l : List ClientDownload) :
    numbered start (download :: l) = withOrder (start + 1) download :: numbered (start + 1) l := rfl

theorem rising_numbered (start : Nat) (l : List ClientDownload) :
    (∀ row ∈ numbered start l, start < row.sortOrder) ∧
      (numbered start l).Pairwise fun a b => a.sortOrder < b.sortOrder := by
  induction l generalizing start with
  | nil => exact ⟨fun _ none => absurd none List.not_mem_nil, .nil⟩
  | cons download l ih =>
      obtain ⟨above, rising⟩ := ih (start + 1)
      rw [numbered_cons]
      refine ⟨?_, List.pairwise_cons.mpr ⟨fun row listed => above row listed, rising⟩⟩
      intro row listed
      rcases List.mem_cons.mp listed with rfl | later
      · exact Nat.lt_succ_self _
      · exact Nat.lt_of_succ_lt (above row later)

theorem ids_numbered (start : Nat) (l : List ClientDownload) :
    (numbered start l).map ClientDownload.id = l.map ClientDownload.id := by
  induction l generalizing start with
  | nil => rfl
  | cons download l ih =>
      rw [numbered_cons, List.map_cons, List.map_cons, ih]
      rfl

theorem others_at {done : List ClientDownload} {download : ClientDownload}
    (distinct : ((done ++ download :: l).map ClientDownload.id).Nodup) :
    (∀ row ∈ done, row.id ≠ download.id) ∧ ∀ row ∈ l, row.id ≠ download.id := by
  rw [List.map_append, List.map_cons, List.nodup_append, List.nodup_cons] at distinct
  obtain ⟨-, ⟨later, -⟩, earlier⟩ := distinct
  refine ⟨fun row listed => ?_, fun row listed same => ?_⟩
  · exact earlier _ (List.mem_map_of_mem listed) _ List.mem_cons_self
  · exact later (same ▸ List.mem_map_of_mem listed)

/-- An update by key, in a list of the rows. -/
theorem map_at {done : List ClientDownload} {download : ClientDownload}
    (distinct : ((done ++ download :: l).map ClientDownload.id).Nodup)
    (f : ClientDownload → ClientDownload) :
    ((done ++ download :: l).map fun row => if decide (row.id = download.id) then f row else row) =
      done ++ f download :: l := by
  obtain ⟨before, behind⟩ := others_at distinct
  rw [List.map_append, List.map_cons]
  congr 1
  · refine (List.map_congr_left fun row listed => ?_).trans (List.map_id done)
    rw [if_neg (by simpa using before row listed)]
    rfl
  · congr 1
    · exact if_pos (decide_eq_true rfl)
    · refine (List.map_congr_left fun row listed => ?_).trans (List.map_id l)
      rw [if_neg (by simpa using behind row listed)]
      rfl

theorem filter_at {done : List ClientDownload} {download : ClientDownload}
    (distinct : ((done ++ download :: l).map ClientDownload.id).Nodup) :
    ((done ++ download :: l).filter fun row => ! decide (row.id = download.id)) = done ++ l := by
  obtain ⟨before, behind⟩ := others_at distinct
  rw [List.filter_append, List.filter_cons_of_neg (by simp)]
  congr 1
  · exact List.filter_eq_self.mpr fun row listed => by simpa using before row listed
  · exact List.filter_eq_self.mpr fun row listed => by simpa using behind row listed

/-- Row after row gets the number of its place. -/
theorem perm_renumber (start : Nat) {done : List ClientDownload} (perm : (done ++ l).Perm t.rows) :
    (done ++ numbered start l).Perm
      ((l.zipIdx start).foldl (fun downloads (download, position) =>
        downloads.update (fun row => row.id = download.id) (withOrder (position + 1))) t).rows := by
  induction l generalizing start done t with
  | nil => exact perm
  | cons download l ih =>
      have distinct : ((done ++ download :: l).map ClientDownload.id).Nodup :=
        ((perm.map ClientDownload.id).nodup_iff).mpr t.nodup
      have next : ((done ++ [withOrder (start + 1) download]) ++ l).Perm
          (t.update (fun row => row.id = download.id) (withOrder (start + 1))).rows := by
        rw [List.append_assoc, List.singleton_append, ← map_at distinct (withOrder (start + 1))]
        exact perm.map _
      have rest := ih (start + 1) next
      rw [List.append_assoc] at rest
      exact rest

theorem Shelved.renumber {l' : List ClientDownload} (shelved : Shelved t l) (perm : l'.Perm l) :
    Shelved (renumber t l') (numbered 0 l') := by
  have all : ([] ++ l').Perm t.rows := perm.trans shelved.perm
  exact ⟨perm_renumber 0 all, (rising_numbered 0 l').2⟩

theorem nextId_renumber (t : Table ClientDownload) (l : List ClientDownload) :
    (renumber t l).nextId = t.nextId := by
  have kept : ∀ (numbers : List (ClientDownload × Nat)) (t : Table ClientDownload),
      (numbers.foldl (fun downloads (download, position) =>
        downloads.update (fun row => row.id = download.id) (withOrder (position + 1))) t).nextId =
        t.nextId := by
    intro numbers
    induction numbers with
    | nil => exact fun t => rfl
    | cons first numbers ih => exact fun t => ih _
  exact kept _ t

theorem perm_swapNext {α : Type} (n : Nat) (l : List α) : (swapNext n l).Perm l := by
  induction n generalizing l with
  | zero =>
      cases l with
      | nil => exact .refl _
      | cons a l =>
          cases l with
          | nil => exact .refl _
          | cons b l => exact .swap a b l
  | succ n ih =>
      cases l with
      | nil => exact .refl _
      | cons a l => exact (ih l).cons a

theorem map_swapNext {α β : Type} (f : α → β) (n : Nat) (l : List α) :
    (swapNext n l).map f = swapNext n (l.map f) := by
  induction n generalizing l with
  | zero =>
      cases l with
      | nil => rfl
      | cons a l => cases l <;> rfl
  | succ n ih =>
      cases l with
      | nil => rfl
      | cons a l => exact congrArg (f a :: ·) (ih l)

end Shelf

/-- The list of the operators, and the id that the next build gets. -/
structure Shelf where
  ids : List Nat := []
  next : Nat := 1

def Shelf.moved (shelf : Shelf) (id : Nat) (up : Bool) : List Nat :=
  match shelf.ids.findIdx? (· = id) with
  | none => shelf.ids
  | some index =>
      match upperOf up index shelf.ids.length with
      | none => shelf.ids
      | some upper => swapNext upper shelf.ids

def Shelf.handle (maxKb : Nat) (shelf : Shelf) (call : Call) : Shelf :=
  if call.actor.consoleAllows call.db .setting .rw then
    match call.request with
    | .save form _ =>
        if form.valid maxKb && form.edited.isNone then
          { ids := shelf.ids ++ [shelf.next], next := shelf.next + 1 }
        else shelf
    | .move id up => { shelf with ids := shelf.moved id up }
    | .deleteDownload id => { shelf with ids := shelf.ids.filter (· ≠ id) }
    | _ => shelf
  else shelf

section Refinement
variable (slug : String → String) (hash : List UInt8 → String) (maxKb : Nat)

section Save
variable {slug hash} {form : Form} {s : State} {random : String} {actor : User}

theorem save_new (editing : form.edited = none) {file : Upload} (given : form.file = some file) :
    save slug hash form random actor s =
      { downloads := s.downloads.insert (newDownload hash form file (storedName slug file.name random)
          (maxSortOrder s.downloads + 1) actor) (id_newDownload hash form file _ _ actor)
        disk := put s.disk (storedName slug file.name random) file.bytes } := by
  rw [save, editing, given]

theorem save_nothing (editing : form.edited = none) (absent : form.file = none) :
    save slug hash form random actor s = s := by
  rw [save, editing, absent]

theorem save_edit {id : Nat} (editing : form.edited = some id) (absent : form.file = none) :
    save slug hash form random actor s =
      { s with downloads := s.downloads.update (fun row => row.id = id) form.fill form.keeps_fill } := by
  rw [save, editing, absent]

theorem save_missing {id : Nat} (editing : form.edited = some id) {file : Upload}
    (given : form.file = some file) (missing : s.downloads.find? id = none) :
    save slug hash form random actor s = s := by
  rw [save, editing, given]
  dsimp only
  rw [missing]

theorem save_replace {id : Nat} (editing : form.edited = some id) {file : Upload}
    (given : form.file = some file) {download : ClientDownload}
    (found : s.downloads.find? id = some download) :
    save slug hash form random actor s =
      { downloads := s.downloads.update (fun row => row.id = id)
          (replaced hash form file (storedName slug file.name random)) (keeps_replaced hash form file _)
        disk :=
          if truthy download.filename && decide (download.filename ≠ storedName slug file.name random) then
            drop (put s.disk (storedName slug file.name random) file.bytes) download.filename
          else put s.disk (storedName slug file.name random) file.bytes } := by
  rw [save, editing, given]
  dsimp only
  rw [found]

end Save

theorem sortOrder_fill (form : Form) (row : ClientDownload) :
    (form.fill row).sortOrder = row.sortOrder := by
  simp only [Form.fill]

theorem sortOrder_replaced (form : Form) (file : Upload) (stored : String) (row : ClientDownload) :
    (replaced hash form file stored row).sortOrder = row.sortOrder := by
  simp only [replaced, Form.fill, Upload.fill]

theorem sortOrder_newDownload (form : Form) (file : Upload) (stored : String) (sortOrder : Nat)
    (actor : User) (id : Nat) :
    (newDownload hash form file stored sortOrder actor id).sortOrder = sortOrder :=
  sortOrder_replaced hash form file stored _

/-- What a list of the operators stands for. -/
structure Refines (s : State) (shelf : Shelf) : Prop where
  shelved : ∃ l, Shelved s.downloads l ∧ l.map ClientDownload.id = shelf.ids
  next : s.downloads.nextId = shelf.next

theorem Refines.ids {s : State} {shelf : Shelf} (refines : Refines s shelf) :
    (ordered s.downloads).map ClientDownload.id = shelf.ids := by
  obtain ⟨l, shelved, ids⟩ := refines.shelved
  rw [shelved.ordered, ids]

/-- Rows that change in place. -/
theorem Refines.update {s : State} {shelf : Shelf} (refines : Refines s shelf)
    {p : ClientDownload → Bool} {f : ClientDownload → ClientDownload}
    {keeps : ∀ row, Row.id (f row) = Row.id row} (same : ∀ row, (f row).sortOrder = row.sortOrder)
    (disk : String → Option (List UInt8)) :
    Refines { downloads := s.downloads.update p f keeps, disk } shelf := by
  obtain ⟨⟨l, shelved, ids⟩, next⟩ := refines
  have updated : Shelved (s.downloads.update p f keeps) (l.map fun row => if p row then f row else row) :=
    shelved.update same
  refine ⟨⟨_, updated, ?_⟩, next⟩
  rw [← ids, List.map_map]
  refine List.map_congr_left fun row _ => ?_
  rw [Function.comp_apply]
  split
  · exact keeps row
  · rfl

theorem Refines.save {s : State} {shelf : Shelf} (refines : Refines s shelf) (form : Form)
    (random : String) (actor : User) (valid : form.valid maxKb = true) :
    Refines (save slug hash form random actor s)
      (if form.edited.isNone then { ids := shelf.ids ++ [shelf.next], next := shelf.next + 1 }
        else shelf) := by
  obtain editing | ⟨id, editing⟩ := Option.eq_none_or_eq_some form.edited
  · obtain absent | ⟨file, given⟩ := Option.eq_none_or_eq_some form.file
    · simp [Form.valid, editing, absent] at valid
    · obtain ⟨⟨l, shelved, ids⟩, next⟩ := refines
      have added := @Shelved.insert _ _ shelved
        (newDownload hash form file (storedName slug file.name random)
          (maxSortOrder s.downloads + 1) actor) (id_newDownload hash form file _ _ actor)
        (sortOrder_newDownload hash form file _ _ actor _)
      rw [save_new editing given, editing]
      refine ⟨⟨_, added, ?_⟩, congrArg (· + 1) next⟩
      rw [List.map_append, ids, next]
      rfl
  · obtain absent | ⟨file, given⟩ := Option.eq_none_or_eq_some form.file
    · rw [save_edit editing absent, editing]
      exact refines.update (sortOrder_fill form) s.disk
    · cases found : s.downloads.find? id with
      | none =>
          rw [save_missing editing given found, editing]
          exact refines
      | some download =>
          rw [save_replace editing given found, editing]
          exact refines.update (sortOrder_replaced hash form file _) _

theorem Refines.move {s : State} {shelf : Shelf} (refines : Refines s shelf) (id : Nat) (up : Bool) :
    Refines (move id up s) { shelf with ids := shelf.moved id up } := by
  obtain ⟨⟨l, shelved, ids⟩, next⟩ := refines
  have found : (ordered s.downloads).findIdx? (fun download => download.id = id) =
      shelf.ids.findIdx? (· = id) := by
    rw [shelved.ordered, ← ids, List.findIdx?_map]
    rfl
  have length : (ordered s.downloads).length = shelf.ids.length := by
    rw [shelved.ordered, ← ids, List.length_map]
  rw [ClientDownloadManager.move, Shelf.moved, found, length]
  cases shelf.ids.findIdx? (· = id) with
  | none => exact ⟨⟨l, shelved, ids⟩, next⟩
  | some index =>
      dsimp only
      cases upperOf up index shelf.ids.length with
      | none => exact ⟨⟨l, shelved, ids⟩, next⟩
      | some upper =>
          dsimp only
          rw [shelved.ordered]
          refine ⟨⟨_, shelved.renumber (perm_swapNext upper l), ?_⟩, ?_⟩
          · rw [ids_numbered, map_swapNext, ids]
          · rw [nextId_renumber, next]

theorem Refines.deleteDownload {s : State} {shelf : Shelf} (refines : Refines s shelf) (id : Nat) :
    Refines (deleteDownload id s) { shelf with ids := shelf.ids.filter (· ≠ id) } := by
  obtain ⟨⟨l, shelved, ids⟩, next⟩ := refines
  have column : (l.filter fun row => ! decide (row.id = id)).map ClientDownload.id =
      shelf.ids.filter (· ≠ id) := by
    rw [← ids, List.filter_map]
    refine congrArg _ (List.filter_congr fun row _ => ?_)
    simp
  rw [ClientDownloadManager.deleteDownload]
  cases found : s.downloads.find? id with
  | none =>
      refine ⟨⟨l, shelved, ?_⟩, next⟩
      rw [ids, List.filter_eq_self.mpr]
      intro listed mem
      rw [← ids] at mem
      obtain ⟨row, held, rfl⟩ := List.mem_map.mp mem
      exact decide_eq_true (s.downloads.find?_eq_none_iff.mp found row (shelved.perm.mem_iff.mp held))
  | some download => exact ⟨⟨_, shelved.delete _, column⟩, next⟩

theorem Refines.handle {s : State} {shelf : Shelf} (refines : Refines s shelf) (call : Call) :
    Refines (handle slug hash maxKb s call) (shelf.handle maxKb call) := by
  rw [ClientDownloadManager.handle, Shelf.handle]
  cases call.request with
  | «show» id =>
      rw [ite_self]
      dsimp only
      rw [count]
      split
      · exact refines.update (f := fun row => { row with downloadCount := row.downloadCount + 1 })
          (fun _ => rfl) s.disk
      · exact refines
  | save form random =>
      dsimp only
      split
      · by_cases valid : form.valid maxKb = true
        · have saved := refines.save slug hash maxKb form random call.actor valid
          rw [if_pos valid]
          simpa [valid] using saved
        · rw [if_neg valid, if_neg (by simp [valid])]
          exact refines
      · exact refines
  | togglePublished id =>
      dsimp only
      split
      · exact refines.update (f := fun row => { row with isPublished := ! row.isPublished })
          (fun _ => rfl) s.disk
      · exact refines
  | move id up =>
      dsimp only
      split
      · exact refines.move id up
      · exact refines
  | deleteDownload id =>
      dsimp only
      split
      · exact refines.deleteDownload id
      · exact refines

end Refinement

section Files
variable {hash : List UInt8 → String}

/-- What a row says of its file. -/
def fileOf (row : ClientDownload) : String × Nat × String := (row.filename, row.size, row.sha256)

/-- The files that the rows name are the files on the disk. -/
structure Kept (hash : List UInt8 → String) (files : List (String × Nat × String))
    (disk : String → Option (List UInt8)) : Prop where
  backed : ∀ file ∈ files, ∃ bytes, disk file.1 = some bytes ∧ file.2 = (bytes.length, hash bytes)
  owned : ∀ name bytes, disk name = some bytes → ∃ file ∈ files, file.1 = name
  distinct : (files.map Prod.fst).Nodup
  named : ∀ file ∈ files, truthy file.1 = true

variable {files files' : List (String × Nat × String)} {disk : String → Option (List UInt8)}

theorem Kept.perm (kept : Kept hash files disk) (perm : files.Perm files') : Kept hash files' disk where
  backed file listed := kept.backed file (perm.mem_iff.mpr listed)
  owned name bytes there := by
    obtain ⟨file, listed, same⟩ := kept.owned name bytes there
    exact ⟨file, perm.mem_iff.mp listed, same⟩
  distinct := ((perm.map Prod.fst).nodup_iff).mp kept.distinct
  named file listed := kept.named file (perm.mem_iff.mpr listed)

theorem Kept.put (kept : Kept hash files disk) {name : String} (bytes : List UInt8)
    (fresh : disk name = none) (given : truthy name = true) :
    Kept hash ((name, bytes.length, hash bytes) :: files) (put disk name bytes) where
  backed file listed := by
    rcases List.mem_cons.mp listed with rfl | old
    · exact ⟨bytes, if_pos rfl, rfl⟩
    · obtain ⟨content, there, told⟩ := kept.backed file old
      refine ⟨content, ?_, told⟩
      rw [ClientDownloadManager.put, if_neg, there]
      intro same
      rw [same, fresh] at there
      cases there
  owned other content there := by
    rw [ClientDownloadManager.put] at there
    split at there
    · next same => exact ⟨_, List.mem_cons_self, same.symm⟩
    · obtain ⟨file, listed, same⟩ := kept.owned other content there
      exact ⟨file, List.mem_cons_of_mem _ listed, same⟩
  distinct := by
    rw [List.map_cons, List.nodup_cons]
    refine ⟨fun listed => ?_, kept.distinct⟩
    obtain ⟨file, old, same⟩ := List.mem_map.mp listed
    obtain ⟨content, there, -⟩ := kept.backed file old
    rw [same, fresh] at there
    cases there
  named file listed := by
    rcases List.mem_cons.mp listed with rfl | old
    · exact given
    · exact kept.named file old

theorem Kept.drop {file : String × Nat × String} (kept : Kept hash (file :: files) disk) :
    Kept hash files (drop disk file.1) where
  backed other listed := by
    have distinct := kept.distinct
    rw [List.map_cons, List.nodup_cons] at distinct
    obtain ⟨content, there, told⟩ := kept.backed other (List.mem_cons_of_mem _ listed)
    refine ⟨content, ?_, told⟩
    rw [ClientDownloadManager.drop, if_neg, there]
    exact fun same => distinct.1 (same ▸ List.mem_map_of_mem listed)
  owned name content there := by
    rw [ClientDownloadManager.drop] at there
    split at there
    · cases there
    · next other =>
      obtain ⟨found, listed, same⟩ := kept.owned name content there
      rcases List.mem_cons.mp listed with rfl | later
      · exact absurd same.symm other
      · exact ⟨found, later, same⟩
  distinct := (List.nodup_cons.mp kept.distinct).2
  named other listed := kept.named other (List.mem_cons_of_mem _ listed)

theorem fileOf_fill (form : Form) (row : ClientDownload) : fileOf (form.fill row) = fileOf row := by
  simp only [fileOf, Form.fill]

theorem fileOf_replaced (form : Form) (file : Upload) (stored : String) (row : ClientDownload) :
    fileOf (replaced hash form file stored row) = (stored, file.bytes.length, hash file.bytes) := by
  simp only [fileOf, replaced, Form.fill, Upload.fill]

theorem truthy_storedName (slug : String → String) (original random : String) :
    truthy (storedName slug original random) = true := by
  have dash : '-' ∈ (storedName slug original random).toList := by
    simp [storedName, String.toList_append]
  simp only [truthy, Bool.and_eq_true, decide_eq_true_eq]
  refine ⟨fun same => ?_, fun same => ?_⟩
  · rw [same] at dash
    exact absurd dash (by decide)
  · rw [same] at dash
    exact absurd dash (by decide)

/-- What the disk and the table are to each other. -/
def Sound (hash : List UInt8 → String) (s : State) : Prop :=
  Kept hash (s.downloads.rows.map fileOf) s.disk

variable {s : State}

/-- Rows that change, but not in what they say of their files. -/
theorem Sound.update (sound : Sound hash s) {p : ClientDownload → Bool}
    {f : ClientDownload → ClientDownload} {keeps : ∀ row, Row.id (f row) = Row.id row}
    (same : ∀ row, fileOf (f row) = fileOf row) :
    Sound hash { s with downloads := s.downloads.update p f keeps } := by
  have columns : (s.downloads.update p f keeps).rows.map fileOf = s.downloads.rows.map fileOf := by
    rw [Table.update, List.map_map]
    refine List.map_congr_left fun row _ => ?_
    rw [Function.comp_apply]
    split
    · exact same row
    · rfl
  rw [Sound, columns]
  exact sound

theorem files_renumber (t : Table ClientDownload) (l : List ClientDownload) :
    (renumber t l).rows.map fileOf = t.rows.map fileOf := by
  have kept : ∀ (numbers : List (ClientDownload × Nat)) (t : Table ClientDownload),
      (numbers.foldl (fun downloads (download, position) =>
        downloads.update (fun row => row.id = download.id) (withOrder (position + 1))) t).rows.map fileOf =
        t.rows.map fileOf := by
    intro numbers
    induction numbers with
    | nil => exact fun t => rfl
    | cons first numbers ih =>
        intro t
        rw [List.foldl_cons, ih]
        change (t.rows.map _).map fileOf = _
        rw [List.map_map]
        refine List.map_congr_left fun row _ => ?_
        rw [Function.comp_apply]
        split <;> rfl
  exact kept _ t

theorem Sound.move (sound : Sound hash s) (id : Nat) (up : Bool) : Sound hash (move id up s) := by
  unfold ClientDownloadManager.move
  split
  · exact sound
  · split
    · exact sound
    · rw [Sound, files_renumber]
      exact sound

/-- The row of a key among the others. -/
theorem rows_at {id : Nat} {download : ClientDownload} (found : s.downloads.find? id = some download) :
    ∃ before later, s.downloads.rows = before ++ download :: later ∧ download.id = id ∧
      ((before ++ download :: later).map ClientDownload.id).Nodup := by
  obtain ⟨listed, same⟩ := (s.downloads.find?_eq_some_iff).mp found
  obtain ⟨before, later, rows⟩ := List.append_of_mem listed
  exact ⟨before, later, rows, same, rows ▸ s.downloads.nodup⟩

theorem Sound.deleteDownload (sound : Sound hash s) (id : Nat) : Sound hash (deleteDownload id s) := by
  rw [ClientDownloadManager.deleteDownload]
  cases found : s.downloads.find? id with
  | none => exact sound
  | some download =>
      obtain ⟨before, later, rows, rfl, distinct⟩ := rows_at found
      have others : (s.downloads.delete fun row => row.id = download.id).rows = before ++ later := by
        change s.downloads.rows.filter _ = _
        rw [rows]
        exact filter_at distinct
      have first : ((before ++ download :: later).map fileOf).Perm
          (fileOf download :: (before ++ later).map fileOf) :=
        List.perm_middle.map fileOf
      rw [Sound, rows] at sound
      rw [Sound, others]
      exact (sound.perm first).drop

theorem Sound.save (sound : Sound hash s) {slug : String → String} {form : Form} {random : String}
    (fresh : ∀ file, form.file = some file → s.disk (storedName slug file.name random) = none)
    (actor : User) : Sound hash (save slug hash form random actor s) := by
  obtain editing | ⟨id, editing⟩ := Option.eq_none_or_eq_some form.edited
  · obtain absent | ⟨file, given⟩ := Option.eq_none_or_eq_some form.file
    · rw [save_nothing editing absent]
      exact sound
    · have added := Kept.put sound file.bytes (fresh file given) (truthy_storedName slug file.name random)
      have files : ((s.downloads.insert (newDownload hash form file (storedName slug file.name random)
          (maxSortOrder s.downloads + 1) actor) (id_newDownload hash form file _ _ actor)).rows.map fileOf) =
          s.downloads.rows.map fileOf ++
            [(storedName slug file.name random, file.bytes.length, hash file.bytes)] := by
        change (s.downloads.rows ++ [_]).map fileOf = _
        rw [List.map_append, List.map_singleton, newDownload, fileOf_replaced]
      rw [save_new editing given, Sound, files]
      exact added.perm (List.perm_append_singleton _ _).symm
  · obtain absent | ⟨file, given⟩ := Option.eq_none_or_eq_some form.file
    · rw [save_edit editing absent]
      exact sound.update (fileOf_fill form)
    · cases found : s.downloads.find? id with
      | none =>
          rw [save_missing editing given found]
          exact sound
      | some download =>
          obtain ⟨before, later, rows, rfl, distinct⟩ := rows_at found
          have old : fileOf download ∈ s.downloads.rows.map fileOf := by
            rw [rows]
            exact List.mem_map_of_mem (List.mem_append_right _ List.mem_cons_self)
          have other : download.filename ≠ storedName slug file.name random := by
            intro same
            obtain ⟨content, there, -⟩ := sound.backed _ old
            rw [show (fileOf download).1 = _ from same, fresh file given] at there
            cases there
          have files : ((s.downloads.update (fun row => row.id = download.id)
              (replaced hash form file (storedName slug file.name random))
              (keeps_replaced hash form file _)).rows.map fileOf) =
              before.map fileOf ++ (storedName slug file.name random, file.bytes.length, hash file.bytes) ::
                later.map fileOf := by
            change (s.downloads.rows.map _).map fileOf = _
            rw [rows, map_at distinct, List.map_append, List.map_cons, fileOf_replaced]
          have added := Kept.put sound file.bytes (fresh file given) (truthy_storedName slug file.name random)
          rw [rows, List.map_append, List.map_cons] at added
          -- the old file in front goes, and the new one takes its place
          have first := (added.perm ((List.perm_middle.cons _).trans (.swap _ _ _))).drop
          rw [save_replace editing given found, Sound, files,
            if_pos (by rw [show truthy download.filename = true from sound.named _ old]; simpa using other)]
          exact first.perm List.perm_middle.symm

/-- The random part of a name was never drawn before. -/
def Fresh (slug : String → String) (s : State) (call : Call) : Prop :=
  ∀ form random file, call.request = .save form random → form.file = some file →
    s.disk (storedName slug file.name random) = none

theorem Sound.handle (sound : Sound hash s) {slug : String → String} (maxKb : Nat) {call : Call}
    (fresh : Fresh slug s call) : Sound hash (handle slug hash maxKb s call) := by
  rw [ClientDownloadManager.handle]
  cases asked : call.request with
  | «show» id =>
      dsimp only
      rw [count]
      split
      · exact sound.update (f := fun row => { row with downloadCount := row.downloadCount + 1 })
          fun _ => rfl
      · exact sound
  | save form random =>
      dsimp only
      split
      · split
        · exact sound.save (fun file given => fresh form random file asked given) call.actor
        · exact sound
      · exact sound
  | togglePublished id =>
      dsimp only
      split
      · exact sound.update (f := fun row => { row with isPublished := ! row.isPublished }) fun _ => rfl
      · exact sound
  | move id up =>
      dsimp only
      split
      · exact sound.move id up
      · exact sound
  | deleteDownload id =>
      dsimp only
      split
      · exact sound.deleteDownload id
      · exact sound

theorem Sound.empty : Sound hash {} where
  backed _ none := absurd none List.not_mem_nil
  owned _ _ there := nomatch there
  distinct := .nil
  named _ none := absurd none List.not_mem_nil

theorem Sound.backed_row (sound : Sound hash s) {row : ClientDownload} (listed : row ∈ s.downloads.rows) :
    ∃ bytes, s.disk row.filename = some bytes ∧ row.size = bytes.length ∧ row.sha256 = hash bytes := by
  obtain ⟨bytes, there, told⟩ := sound.backed _ (List.mem_map_of_mem listed)
  exact ⟨bytes, there, Prod.mk.inj told⟩

theorem Sound.owner (sound : Sound hash s) {name : String} {bytes : List UInt8}
    (there : s.disk name = some bytes) : ∃! row, row ∈ s.downloads.rows ∧ row.filename = name := by
  obtain ⟨_, file, rfl⟩ := sound.owned name bytes there
  obtain ⟨row, listed, rfl⟩ := List.mem_map.mp file
  refine ⟨row, ⟨listed, rfl⟩, fun other ⟨listed', same⟩ => ?_⟩
  have distinct := sound.distinct
  rw [List.map_map] at distinct
  exact List.inj_on_of_nodup_map distinct listed' listed same

theorem serve_row {row : ClientDownload} (listed : row ∈ s.downloads.rows) :
    serve s row.id = if row.isPublished then s.disk row.filename else none := by
  rw [serve, show s.downloads.find? row.id = some row from Table.find?_of_mem s.downloads listed]

end Files

variable (slug : String → String) (hash : List UInt8 → String) (maxKb : Nat)

/-- An installer is uploaded and then replaced. -/
def releases : List Call :=
  let admin : User := { id := 1, username := "vendel", isAdmin := true }
  let first : Form := { file := some ⟨"desk.exe", [77, 90]⟩, label := "Desk", platform := "windows" }
  let second : Form := { first with editing := some 1, file := some ⟨"desk.msi", [208, 207]⟩ }
  [⟨{}, admin, .save first "a"⟩, ⟨{}, admin, .save second "b"⟩]

/-- The files and the rows are one to one, a published build can always be fetched with the size and
the hash that its row tells, and an unpublished one never. -/
theorem builds_keep_their_files (calls : List Call)
    (fresh : Runs.Along (handle slug hash maxKb) (Fresh slug) {} calls) :
    let s := Runs.run (handle slug hash maxKb) {} calls
    (∀ row ∈ s.downloads.rows, ∃ bytes, s.disk row.filename = some bytes ∧
      row.size = bytes.length ∧ row.sha256 = hash bytes ∧
      serve s row.id = if row.isPublished then some bytes else none) ∧
    ∀ name bytes, s.disk name = some bytes → ∃! row, row ∈ s.downloads.rows ∧ row.filename = name := by
  intro s
  have kept : ∀ s call, Sound hash s → Fresh slug s call → Sound hash (handle slug hash maxKb s call) :=
    fun _ _ sound fresh => sound.handle maxKb fresh
  have sound : Sound hash s := Runs.invariant_along kept calls {} Sound.empty fresh
  refine ⟨fun row listed => ?_, fun name bytes there => sound.owner there⟩
  obtain ⟨bytes, there, size, sha256⟩ := sound.backed_row listed
  exact ⟨bytes, there, size, sha256, by rw [serve_row listed, there]⟩

theorem releases_keep_their_files :
    let s := Runs.run (handle id (fun bytes => toString bytes.length) 30720) {} releases
    (∀ row ∈ s.downloads.rows, ∃ bytes, s.disk row.filename = some bytes ∧
      row.size = bytes.length ∧ row.sha256 = toString bytes.length ∧
      serve s row.id = if row.isPublished then some bytes else none) ∧
    ∀ name bytes, s.disk name = some bytes → ∃! row, row ∈ s.downloads.rows ∧ row.filename = name := by
  refine builds_keep_their_files id _ 30720 releases ⟨?_, ?_, trivial⟩
  · intro form random file asked given
    rfl
  · intro form random file asked given
    cases asked
    cases given
    decide +kernel

/-- The table under its sort orders is the operators' list: a new build comes last, whatever the
others' numbers are, a move exchanges two neighbours, and nothing else changes the order. -/
theorem downloads_refine_shelf (calls : List Call) :
    (ordered (Runs.run (handle slug hash maxKb) {} calls).downloads).map ClientDownload.id =
      (Runs.run (Shelf.handle maxKb) {} calls).ids := by
  have start : Refines {} {} := ⟨⟨[], Shelved.empty, rfl⟩, rfl⟩
  have refines (calls : List Call) (s : State) (shelf : Shelf) (refines : Refines s shelf) :
      Refines (Runs.run (handle slug hash maxKb) s calls) (Runs.run (Shelf.handle maxKb) shelf calls) := by
    induction calls generalizing s shelf with
    | nil => exact refines
    | cons call calls ih => exact ih _ _ (refines.handle slug hash maxKb call)
  exact (refines calls {} {} start).ids

end ClientDownloadManager
end CortenDesk
