import Mathlib.Data.List.Sort
import Mathlib.Data.Prod.Lex
import CortenDesk.Access.Console
import CortenDesk.Lib.Runs

/-!
The client builds offered for download: rows in the order that the operators gave them, and the
uploaded files on a disk of their own. A file is stored under a name that the console makes up.
-/
namespace CortenDesk
open Php

structure ClientDownload where
  id : Nat
  label : String := ""
  platform : String := "unknown"
  arch : Option String := none
  version : Option String := none
  notes : Option String := none
  filename : String := ""
  originalName : String := ""
  size : Nat := 0
  sha256 : String := ""
  isPublished : Bool := true
  sortOrder : Nat := 0
  downloadCount : Nat := 0
  uploadedBy : Option Nat := none
  deriving DecidableEq

instance : Row ClientDownload := ⟨ClientDownload.id⟩

namespace ClientPlatform

def platforms : List String := ["windows", "macos", "linux", "android", "ios", "unknown"]

def allowedExtensions : List String :=
  ["exe", "msi", "msix", "dmg", "pkg", "deb", "rpm", "appimage", "flatpak", "apk", "aab", "ipa",
    "zip", "gz", "xz", "tgz"]

/-- The part behind the last dot, of a name without a path. -/
def extension (filename : String) : String :=
  if '.' ∈ filename.toList then
    strtolower (String.ofList (filename.toList.reverse.takeWhile (· ≠ '.')).reverse)
  else ""

def extensionAllowed (filename : String) : Bool := extension filename ∈ allowedExtensions

/-- `pathinfo($filename, PATHINFO_FILENAME)`. -/
def stem (filename : String) : String :=
  if '.' ∈ filename.toList then
    String.ofList ((filename.toList.reverse.dropWhile (· ≠ '.')).drop 1).reverse
  else filename

end ClientPlatform

namespace ClientDownloadManager
open ClientPlatform

structure Upload where
  name : String
  bytes : List UInt8

/-- What the browser sends with `save`. -/
structure Form where
  editing : Option Nat := none
  file : Option Upload := none
  label : String
  platform : String
  arch : String := ""
  version : String := ""
  notes : String := ""
  isPublished : Bool := true

structure State where
  downloads : Table ClientDownload := Table.empty
  disk : String → Option (List UInt8) := fun _ => none

inductive Request
  | save (form : Form) (random : String)
  | togglePublished (id : Nat)
  | move (id : Nat) (up : Bool)
  | deleteDownload (id : Nat)
  | show (id : Nat)

/-- A request, with what the database says about its sender at that moment. -/
structure Call where
  db : Database
  actor : User
  request : Request

-- `Str::slug`, `hash_file`, and the ceiling of an upload in kilobytes
variable (slug : String → String) (hash : List UInt8 → String) (maxKb : Nat)

def storedName (original random : String) : String :=
  let base := if truthy (slug (stem original)) then slug (stem original) else "client"
  String.ofList (base.toList.take 80) ++ "-" ++ random ++
    (if truthy (extension original) then "." ++ extension original else "")

def orNull (s : String) : Option String := if trim s ≠ "" then some (trim s) else none

/-- The row that the form edits: a zero is none. -/
def Form.edited (form : Form) : Option Nat := form.editing.filter (· ≠ 0)

/-- `validate`. -/
def Form.valid (form : Form) : Bool :=
  (match form.file with
    | some file => decide (file.bytes.length ≤ maxKb * 1024) && extensionAllowed file.name
    | none => form.edited.isSome) &&
  decide (trim form.label ≠ "") && decide (form.label.length ≤ 120) &&
  decide (form.platform ∈ platforms) && decide (form.arch.length ≤ 32) &&
  decide (form.version.length ≤ 64) && decide (form.notes.length ≤ 500)

def Form.fill (form : Form) (download : ClientDownload) : ClientDownload :=
  { download with
    label := trim form.label, platform := form.platform, arch := orNull form.arch
    version := orNull form.version, notes := orNull form.notes, isPublished := form.isPublished }

def Upload.fill (file : Upload) (stored : String) (download : ClientDownload) : ClientDownload :=
  { download with
    filename := stored, originalName := file.name, size := file.bytes.length
    sha256 := hash file.bytes }

def replaced (form : Form) (file : Upload) (stored : String) (row : ClientDownload) : ClientDownload :=
  form.fill (file.fill hash stored row)

theorem Form.keeps_fill (form : Form) (row : ClientDownload) : Row.id (form.fill row) = Row.id row := by
  change (form.fill row).id = row.id
  simp only [Form.fill]

theorem keeps_replaced (form : Form) (file : Upload) (stored : String) (row : ClientDownload) :
    Row.id (replaced hash form file stored row) = Row.id row := by
  change (replaced hash form file stored row).id = row.id
  simp only [replaced, Form.fill, Upload.fill]

def newDownload (form : Form) (file : Upload) (stored : String) (sortOrder : Nat) (actor : User)
    (id : Nat) : ClientDownload :=
  replaced hash form file stored { id, sortOrder, uploadedBy := some actor.id }

theorem id_newDownload (form : Form) (file : Upload) (stored : String) (sortOrder : Nat) (actor : User)
    (id : Nat) : Row.id (newDownload hash form file stored sortOrder actor id) = id :=
  keeps_replaced hash form file stored _

def put (disk : String → Option (List UInt8)) (name : String) (bytes : List UInt8) :
    String → Option (List UInt8) := fun other => if other = name then some bytes else disk other

def drop (disk : String → Option (List UInt8)) (name : String) : String → Option (List UInt8) :=
  fun other => if other = name then none else disk other

def maxSortOrder (downloads : Table ClientDownload) : Nat :=
  (downloads.rows.map ClientDownload.sortOrder).foldl max 0

def save (form : Form) (random : String) (actor : User) (s : State) : State :=
  match form.edited, form.file with
  | none, none => s
  | none, some file =>
      let stored := storedName slug file.name random
      { downloads := s.downloads.insert
          (newDownload hash form file stored (maxSortOrder s.downloads + 1) actor)
          (id_newDownload hash form file stored _ actor)
        disk := put s.disk stored file.bytes }
  | some id, none =>
      { s with downloads := s.downloads.update (fun row => row.id = id) form.fill form.keeps_fill }
  | some id, some file =>
      match s.downloads.find? id with
      | none => s
      | some download =>
          let stored := storedName slug file.name random
          let disk := put s.disk stored file.bytes
          { downloads := s.downloads.update (fun row => row.id = id) (replaced hash form file stored)
              (keeps_replaced hash form file stored)
            disk :=
              if truthy download.filename && decide (download.filename ≠ stored) then
                drop disk download.filename
              else disk }

/-- The operators' order, then the platform, then the newest first. -/
def sortKey (download : ClientDownload) : ℕ ×ₗ String ×ₗ ℕᵒᵈ :=
  toLex (download.sortOrder, toLex (download.platform, OrderDual.toDual download.id))

def ordered (downloads : Table ClientDownload) : List ClientDownload :=
  downloads.rows.insertionSort fun a b => sortKey a ≤ sortKey b

def swapNext {α : Type} : Nat → List α → List α
  | 0, a :: b :: l => b :: a :: l
  | n + 1, a :: l => a :: swapNext n l
  | _, l => l

def withOrder (sortOrder : Nat) (row : ClientDownload) : ClientDownload := { row with sortOrder }

/-- The whole column is written anew, from one. -/
def renumber (downloads : Table ClientDownload) (reordered : List ClientDownload) :
    Table ClientDownload :=
  reordered.zipIdx.foldl (fun downloads (download, position) =>
    downloads.update (fun row => row.id = download.id) (withOrder (position + 1))) downloads

/-- The upper one of the two neighbours that change places. -/
def upperOf (up : Bool) (index length : Nat) : Option Nat :=
  if up then (if index = 0 then none else some (index - 1))
  else if index + 1 < length then some index else none

def move (id : Nat) (up : Bool) (s : State) : State :=
  match (ordered s.downloads).findIdx? fun download => download.id = id with
  | none => s
  | some index =>
      match upperOf up index (ordered s.downloads).length with
      | none => s
      | some upper =>
          { s with downloads := renumber s.downloads (swapNext upper (ordered s.downloads)) }

/-- Deleting a row deletes its bytes first. -/
def deleteDownload (id : Nat) (s : State) : State :=
  match s.downloads.find? id with
  | none => s
  | some download =>
      { downloads := s.downloads.delete fun row => row.id = id
        disk := drop s.disk download.filename }

/-- The file streamer: what it answers. -/
def serve (s : State) (id : Nat) : Option (List UInt8) :=
  match s.downloads.find? id with
  | some download => if download.isPublished then s.disk download.filename else none
  | none => none

def count (id : Nat) (s : State) : State :=
  if (serve s id).isSome then
    { s with downloads := s.downloads.update (fun row => row.id = id) fun row =>
        { row with downloadCount := row.downloadCount + 1 } }
  else s

def handle (s : State) (call : Call) : State :=
  match call.request with
  | .show id => count id s
  | request =>
      if call.actor.consoleAllows call.db .setting .rw then
        match request with
        | .save form random => if form.valid maxKb then save slug hash form random call.actor s else s
        | .togglePublished id =>
            { s with downloads := s.downloads.update (fun row => row.id = id) fun row =>
                { row with isPublished := ! row.isPublished } }
        | .move id up => move id up s
        | .deleteDownload id => deleteDownload id s
        | .show _ => s
      else s

end ClientDownloadManager
end CortenDesk
