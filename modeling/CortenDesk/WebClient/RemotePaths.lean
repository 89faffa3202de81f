import Mathlib.Data.List.Basic
import Mathlib.Logic.Function.Iterate
import Mathlib.Data.UInt

/-!
The path arithmetic of the file panel. A path is the peer's own string, taken as its UTF-16 code
units; a Windows peer separates with a backslash and has drive roots, every other peer with a
slash. The Up button replaces the path by its parent until the root view is shown.
-/
namespace CortenDesk
namespace WebClient
namespace RemotePath

/-- A string as its UTF-16 code units. -/
abbrev JsString := List UInt16

def slash : UInt16 := 0x2f
def colon : UInt16 := 0x3a
def backslash : UInt16 := 0x5c

inductive Separator
  | backslash
  | slash
  deriving DecidableEq

def Separator.unit : Separator → UInt16
  | .backslash => RemotePath.backslash
  | .slash => RemotePath.slash

def lastIndexOf (s : JsString) (c : UInt16) : Int :=
  match s with
  | [] => -1
  | d :: rest =>
      if 0 ≤ lastIndexOf rest c then lastIndexOf rest c + 1 else if d = c then 0 else -1

def endsWith (s : JsString) (c : UInt16) : Bool := s.getLast? == some c

def isLetter (c : UInt16) : Bool := (0x41 ≤ c && c ≤ 0x5a) || (0x61 ≤ c && c ≤ 0x7a)

/-- The test of `/^[a-zA-Z]:\\?$/`. -/
def isDriveRoot : JsString → Bool
  | [letter, c] => isLetter letter && c == colon
  | [letter, c, b] => isLetter letter && c == colon && b == backslash
  | _ => false

def joinRemote (dir name : JsString) (sep : Separator) : JsString :=
  if dir = [] then name
  else if endsWith dir sep.unit then dir ++ name
  else dir ++ sep.unit :: name

def trimmed (path : JsString) (sep : Separator) : JsString :=
  if endsWith path sep.unit && 1 < path.length then path.dropLast else path

/-- The directory above `path`; the empty string stands for the list of drives. -/
def parentRemote (path : JsString) (sep : Separator) : JsString :=
  let trimmed := trimmed path sep
  let idx := lastIndexOf trimmed sep.unit
  match sep with
  | .backslash =>
      if isDriveRoot trimmed then []
      else if idx ≤ 2 then trimmed.take 3
      else trimmed.take idx.toNat
  | .slash =>
      if idx < 0 then [slash]
      else if idx = 0 then [slash]
      else trimmed.take idx.toNat

/-- The root view: the list of drives, or the root directory. -/
def IsRootView (path : JsString) : Prop := path = [] ∨ path = [slash]

/-- Pressing Up often enough shows the root view. -/
def ReachesRoot (path : JsString) (sep : Separator) : Prop :=
  ∃ presses, IsRootView ((parentRemote · sep)^[presses] path)

theorem lastIndexOf_absent {s : JsString} {c : UInt16} (absent : c ∉ s) : lastIndexOf s c = -1 := by
  induction s with
  | nil => rfl
  | cons d rest ih =>
      have later := ih (fun mem => absent (List.mem_cons_of_mem d mem))
      have first : d ≠ c := fun same => absent (same ▸ List.mem_cons_self)
      simp [lastIndexOf, later, first]

theorem lastIndexOf_append (s : JsString) {c : UInt16} {t : JsString} (absent : c ∉ t) :
    lastIndexOf (s ++ c :: t) c = s.length := by
  induction s with
  | nil => simp [lastIndexOf, lastIndexOf_absent absent]
  | cons d rest ih =>
      have found : (0 : Int) ≤ rest.length := Int.natCast_nonneg _
      simp [lastIndexOf, ih, found]

theorem lastIndexOf_lt (s : JsString) (c : UInt16) : lastIndexOf s c < s.length := by
  induction s with
  | nil => exact Int.neg_lt_of_neg_lt (by decide)
  | cons d rest ih =>
      simp only [lastIndexOf, List.length_cons]
      split
      · omega
      · split <;> omega

/-- A POSIX root, or the root of a drive. -/
inductive IsRoot : Separator → JsString → Prop
  | slash : IsRoot .slash [slash]
  | drive (letter : UInt16) (valid : isLetter letter) :
      IsRoot .backslash [letter, colon, backslash]

/-- A name that can stand between two separators. -/
def IsName (sep : Separator) (name : JsString) : Prop := name ≠ [] ∧ sep.unit ∉ name

/-- A normalised absolute directory: a root followed by names with one separator between them. -/
def IsDirectory (sep : Separator) (dir : JsString) : Prop :=
  ∃ root names, IsRoot sep root ∧ (∀ name ∈ names, IsName sep name) ∧
    dir = root ++ List.intercalate [sep.unit] names

theorem intercalate_concat (sep last : JsString) (names : List JsString) :
    ∃ front, List.intercalate sep (names ++ [last]) = front ++ last := by
  induction names with
  | nil => exact ⟨[], by simp [List.intercalate]⟩
  | cons name rest ih =>
      obtain ⟨front, split⟩ := ih
      have further : rest ++ [last] ≠ [] := by simp
      refine ⟨name ++ sep ++ front, ?_⟩
      rw [List.cons_append, List.intercalate_cons_of_ne_nil further, split]
      simp

/-- A name does not end with the separator, whatever stands before it. -/
theorem endsWith_name {sep : Separator} {name : JsString} (valid : IsName sep name)
    (front : JsString) : endsWith (front ++ name) sep.unit = false := by
  have last := List.getLast?_eq_some_getLast valid.1
  have other : name.getLast valid.1 ≠ sep.unit :=
    fun same => valid.2 (same ▸ List.getLast_mem valid.1)
  simp [endsWith, List.getLast?_append, last, other]

/-- Below a root a directory is longer than the root and does not end with the separator. -/
theorem directory_cases {sep : Separator} {dir : JsString} (absolute : IsDirectory sep dir) :
    IsRoot sep dir ∨
      ∃ root rest, IsRoot sep root ∧ dir = root ++ rest ∧ rest ≠ [] ∧
        endsWith dir sep.unit = false := by
  obtain ⟨root, names, isRoot, valid, rfl⟩ := absolute
  cases names using List.reverseRecOn with
  | nil => exact .inl (by simpa [List.intercalate] using isRoot)
  | append_singleton names last =>
      have lastValid := valid last (by simp)
      obtain ⟨front, split⟩ := intercalate_concat [sep.unit] last names
      refine .inr ⟨root, front ++ last, isRoot, by rw [split], ?_, ?_⟩
      · simp [lastValid.1]
      · rw [split, ← List.append_assoc]
        exact endsWith_name lastValid (root ++ front)

theorem trimmed_name {sep : Separator} {name : JsString} (valid : IsName sep name)
    (front : JsString) : trimmed (front ++ name) sep = front ++ name := by
  simp [trimmed, endsWith_name valid front]

/-- More than three code units are no drive root. -/
theorem isDriveRoot_long {path : JsString} (long : 3 < path.length) : isDriveRoot path = false := by
  match path, long with
  | _ :: _ :: _ :: _ :: _, _ => rfl

theorem parent_child_root {sep : Separator} {root name : JsString} (isRoot : IsRoot sep root)
    (valid : IsName sep name) : parentRemote (joinRemote root name sep) sep = root := by
  cases isRoot with
  | slash =>
      have whole := trimmed_name valid [slash]
      have first : lastIndexOf ([slash] ++ name) Separator.slash.unit = 0 :=
        lastIndexOf_append [] valid.2
      have joined : joinRemote [slash] name .slash = [slash] ++ name := rfl
      rw [joined, parentRemote, whole]
      simp only [first]
      rfl
  | drive letter lower =>
      have whole := trimmed_name valid [letter, colon, backslash]
      have joined : joinRemote [letter, colon, backslash] name .backslash =
          [letter, colon, backslash] ++ name := rfl
      have named : 0 < name.length := List.length_pos_of_ne_nil valid.1
      have noDrive : isDriveRoot ([letter, colon, backslash] ++ name) = false :=
        isDriveRoot_long (by simp; omega)
      have second : lastIndexOf ([letter, colon, backslash] ++ name) Separator.backslash.unit = 2 :=
        lastIndexOf_append [letter, colon] valid.2
      rw [joined, parentRemote, whole]
      simp only [second, noDrive]
      rfl

theorem root_length {sep : Separator} {root : JsString} (isRoot : IsRoot sep root) :
    0 < root.length ∧ (sep = .backslash → root.length = 3) := by
  cases isRoot with
  | slash => exact ⟨by decide, fun other => by cases other⟩
  | drive letter valid => exact ⟨Nat.succ_pos 2, fun _ => rfl⟩

theorem parent_child_below {sep : Separator} {root rest name : JsString} (isRoot : IsRoot sep root)
    (deeper : rest ≠ []) (closed : endsWith (root ++ rest) sep.unit = false)
    (valid : IsName sep name) :
    parentRemote (joinRemote (root ++ rest) name sep) sep = root ++ rest := by
  have long := root_length isRoot
  have restLong : 0 < rest.length := List.length_pos_of_ne_nil deeper
  have full : root ++ rest ≠ [] := by simp [deeper]
  have joined : joinRemote (root ++ rest) name sep = root ++ rest ++ sep.unit :: name := by
    simp [joinRemote, full, closed]
  have whole : trimmed (root ++ rest ++ sep.unit :: name) sep = root ++ rest ++ sep.unit :: name := by
    simpa using trimmed_name valid (root ++ rest ++ [sep.unit])
  have split := lastIndexOf_append (root ++ rest) valid.2
  have front : (root ++ rest ++ sep.unit :: name).take (root ++ rest).length = root ++ rest :=
    List.take_left
  have above : 0 < (root ++ rest).length := by rw [List.length_append]; omega
  cases sep with
  | slash =>
      rw [joined, parentRemote, whole]
      simp only [split, Int.toNat_natCast]
      rw [if_neg (by omega), if_neg (by omega), front]
  | backslash =>
      have three : 3 < (root ++ rest).length := by
        rw [List.length_append, long.2 rfl]
        omega
      have noDrive : isDriveRoot (root ++ rest ++ Separator.backslash.unit :: name) = false :=
        isDriveRoot_long (by rw [List.length_append]; omega)
      rw [joined, parentRemote, whole]
      simp only [split, Int.toNat_natCast, noDrive]
      rw [if_neg Bool.false_ne_true, if_neg (by omega), front]

/-- Going up from what a name was joined to shows the directory it was joined to. -/
theorem parent_join {sep : Separator} {dir name : JsString} (absolute : IsDirectory sep dir)
    (valid : IsName sep name) : parentRemote (joinRemote dir name sep) sep = dir := by
  cases directory_cases absolute with
  | inl isRoot => exact parent_child_root isRoot valid
  | inr below =>
      obtain ⟨root, rest, isRoot, rfl, deeper, closed⟩ := below
      exact parent_child_below isRoot deeper closed valid

/-- With a slash every step above the root shortens the path or shows the root. -/
theorem parent_slash_shorter (path : JsString) :
    IsRootView (parentRemote path .slash) ∨
      (parentRemote path .slash).length < path.length := by
  have shortened : (trimmed path .slash).length ≤ path.length := by
    unfold trimmed
    split
    · simp
    · exact Nat.le_refl _
  have below := lastIndexOf_lt (trimmed path .slash) Separator.slash.unit
  simp only [parentRemote]
  split
  · exact .inl (.inr rfl)
  · split
    · exact .inl (.inr rfl)
    · exact .inr (by rw [List.length_take]; omega)

theorem reachesRoot_parent {path : JsString} {sep : Separator}
    (above : ReachesRoot (parentRemote path sep) sep) : ReachesRoot path sep := by
  obtain ⟨presses, shown⟩ := above
  exact ⟨presses + 1, shown⟩

theorem reachesRoot_slash (path : JsString) : ReachesRoot path .slash := by
  induction h : path.length using Nat.strong_induction_on generalizing path with
  | _ length ih =>
      cases parent_slash_shorter path with
      | inl parent => exact reachesRoot_parent ⟨0, parent⟩
      | inr shorter => exact reachesRoot_parent (ih _ (h ▸ shorter) _ rfl)

/-- The paths that lead to the root view with a backslash: nothing, the root, and what begins with
a drive letter and a colon, or with a slash and a backslash, and goes on with a backslash if it
goes on at all. -/
def Climbs : JsString → Prop
  | [] => True
  | [a] => a = slash
  | [a, b] => isLetter a ∧ b = colon ∨ a = slash ∧ b = backslash
  | a :: b :: c :: _ => (isLetter a ∧ b = colon ∨ a = slash ∧ b = backslash) ∧ c = backslash

theorem trimmed_cons (a b c d : UInt16) (rest : JsString) :
    ∃ more, trimmed (a :: b :: c :: d :: rest) .backslash = a :: b :: c :: more ∧
      more.length ≤ rest.length + 1 ∧ (more = [] → d = backslash) := by
  by_cases ends : endsWith (a :: b :: c :: d :: rest) backslash = true
  · refine ⟨(d :: rest).dropLast, by simp [trimmed, Separator.unit, ends], by simp, fun none => ?_⟩
    cases rest with
    | nil => simpa [endsWith] using ends
    | cons e more => simp at none
  · exact ⟨d :: rest, by simp [trimmed, Separator.unit, ends], by simp, by simp⟩

/-- A longer path keeps its first three code units, or it was a drive root. -/
theorem parent_long (a b c d : UInt16) (rest : JsString) :
    (parentRemote (a :: b :: c :: d :: rest) .backslash = [] ∧ isLetter a ∧ b = colon ∧
        c = backslash) ∨
      ∃ more, parentRemote (a :: b :: c :: d :: rest) .backslash = a :: b :: c :: more ∧
        more.length < rest.length + 1 := by
  obtain ⟨more, whole, bounded, last⟩ := trimmed_cons a b c d rest
  have below := lastIndexOf_lt (a :: b :: c :: more) backslash
  simp only [parentRemote, whole, Separator.unit]
  split
  · next drive =>
      match more, drive with
      | [], drive =>
          simp only [isDriveRoot, Bool.and_eq_true, beq_iff_eq] at drive
          exact .inl ⟨rfl, drive.1.1, drive.1.2, drive.2⟩
  · split
    · exact .inr ⟨[], rfl, Nat.succ_pos _⟩
    · next deep =>
        obtain ⟨k, idx⟩ : ∃ k : Nat, (lastIndexOf (a :: b :: c :: more) backslash).toNat = k + 3 :=
          ⟨(lastIndexOf (a :: b :: c :: more) backslash).toNat - 3, by omega⟩
        refine .inr ⟨more.take k, by rw [idx]; rfl, ?_⟩
        simp only [List.length_cons] at below
        rw [List.length_take]
        omega

theorem parent_short {path : JsString} (short : path.length ≤ 3) :
    parentRemote path .backslash =
      if isDriveRoot (trimmed path .backslash) then [] else trimmed path .backslash := by
  have shortened : (trimmed path .backslash).length ≤ path.length := by
    unfold trimmed
    split
    · simp
    · exact Nat.le_refl _
  have below := lastIndexOf_lt (trimmed path .backslash) backslash
  have shallow : lastIndexOf (trimmed path .backslash) Separator.backslash.unit ≤ 2 := by
    simp only [Separator.unit]
    omega
  have whole : (trimmed path .backslash).take 3 = trimmed path .backslash :=
    List.take_of_length_le (by omega)
  simp only [parentRemote, shallow, whole, if_true]

theorem trimmed_two (a b : UInt16) :
    trimmed [a, b] .backslash = if b = backslash then [a] else [a, b] := by
  by_cases ends : b = backslash <;> simp [trimmed, endsWith, Separator.unit, ends]

theorem trimmed_three (a b c : UInt16) :
    trimmed [a, b, c] .backslash = if c = backslash then [a, b] else [a, b, c] := by
  by_cases ends : c = backslash <;> simp [trimmed, endsWith, Separator.unit, ends]

theorem climbs_one (a : UInt16) : Climbs (parentRemote [a] .backslash) ↔ Climbs [a] := by
  have whole : trimmed [a] .backslash = [a] := by simp [trimmed]
  rw [parent_short (by simp), whole]
  rfl

theorem climbs_two (a b : UInt16) : Climbs (parentRemote [a, b] .backslash) ↔ Climbs [a, b] := by
  rw [parent_short (by simp), trimmed_two]
  by_cases ends : b = backslash
  · have other : backslash ≠ colon := by decide
    simp [ends, other, isDriveRoot, Climbs]
  · rw [if_neg ends]
    by_cases drive : isLetter a = true ∧ b = colon
    · simp [drive, isDriveRoot, Climbs]
    · simp [ends, drive, isDriveRoot, Climbs]

theorem climbs_three (a b c : UInt16) :
    Climbs (parentRemote [a, b, c] .backslash) ↔ Climbs [a, b, c] := by
  rw [parent_short (by simp), trimmed_three]
  by_cases ends : c = backslash
  · by_cases drive : isLetter a = true ∧ b = colon
    · simp [ends, drive, isDriveRoot, Climbs]
    · simp [ends, drive, isDriveRoot, Climbs]
  · simp [ends, isDriveRoot, Climbs]

theorem climbs_long (a b c d : UInt16) (rest : JsString) :
    Climbs (parentRemote (a :: b :: c :: d :: rest) .backslash) ↔
      Climbs (a :: b :: c :: d :: rest) := by
  cases parent_long a b c d rest with
  | inl drive =>
      obtain ⟨top, letter, colon, last⟩ := drive
      rw [top]
      exact ⟨fun _ => ⟨.inl ⟨letter, colon⟩, last⟩, fun _ => True.intro⟩
  | inr kept =>
      obtain ⟨more, kept, -⟩ := kept
      rw [kept]
      rfl

/-- Going up neither opens a way to the root view nor closes one. -/
theorem climbs_parent (path : JsString) :
    Climbs (parentRemote path .backslash) ↔ Climbs path := by
  match path with
  | [] => rfl
  | [a] => exact climbs_one a
  | [a, b] => exact climbs_two a b
  | [a, b, c] => exact climbs_three a b c
  | a :: b :: c :: d :: rest => exact climbs_long a b c d rest

/-- A path that leads to the root view gets shorter until it is shown. -/
theorem climbs_shorter {path : JsString} (climbs : Climbs path) :
    IsRootView path ∨ (parentRemote path .backslash).length < path.length := by
  match path, climbs with
  | [], _ => exact .inl (.inl rfl)
  | [a], only => exact .inl (.inr (congrArg (fun c => [c]) only))
  | [a, b], start =>
      rw [parent_short (by simp), trimmed_two]
      cases start with
      | inl drive => exact .inr (by simp [drive.1, drive.2, isDriveRoot, colon, backslash])
      | inr stroke => exact .inr (by simp [stroke.2, isDriveRoot])
  | [a, b, c], start =>
      rw [parent_short (by simp), trimmed_three, if_pos start.2]
      refine .inr ?_
      split <;> simp
  | a :: b :: c :: d :: rest, _ =>
      cases parent_long a b c d rest with
      | inl drive => exact .inr (by rw [drive.1]; exact Nat.succ_pos _)
      | inr kept =>
          obtain ⟨more, kept, shorter⟩ := kept
          exact .inr (by rw [kept]; simp only [List.length_cons]; omega)

theorem reachesRoot_climbs (path : JsString) (climbs : Climbs path) :
    ReachesRoot path .backslash := by
  induction h : path.length using Nat.strong_induction_on generalizing path with
  | _ length ih =>
      cases climbs_shorter climbs with
      | inl shown => exact ⟨0, shown⟩
      | inr shorter =>
          exact reachesRoot_parent (ih _ (h ▸ shorter) _ ((climbs_parent path).mpr climbs) rfl)

theorem climbs_iterate (presses : Nat) (path : JsString) :
    Climbs ((parentRemote · .backslash)^[presses] path) ↔ Climbs path := by
  induction presses generalizing path with
  | zero => rfl
  | succ presses ih => exact (ih _).trans (climbs_parent path)

theorem climbs_rootView {path : JsString} (shown : IsRootView path) : Climbs path := by
  cases shown with
  | inl drives => exact drives ▸ True.intro
  | inr root => exact root ▸ rfl

/-- The Up button reaches the root view from every path with a slash, and with a backslash from
those that lead there. -/
theorem reachesRoot_iff (path : JsString) (sep : Separator) :
    ReachesRoot path sep ↔ sep = .slash ∨ Climbs path := by
  cases sep with
  | slash => exact ⟨fun _ => .inl rfl, fun _ => reachesRoot_slash path⟩
  | backslash =>
      refine ⟨fun reaches => .inr ?_, fun climbs => ?_⟩
      · obtain ⟨presses, shown⟩ := reaches
        exact (climbs_iterate presses path).mp (climbs_rootView shown)
      · exact reachesRoot_climbs path (climbs.resolve_left (by decide))

/-- What a name was joined to is found again, and pressing Up ends at the root view exactly on the
paths that lead there. -/
theorem parents_lead_up (path : JsString) (sep : Separator) :
    (∀ dir name, IsDirectory sep dir → IsName sep name →
      parentRemote (joinRemote dir name sep) sep = dir) ∧
      (ReachesRoot path sep ↔ sep = .slash ∨ Climbs path) :=
  ⟨fun _ _ absolute valid => parent_join absolute valid, reachesRoot_iff path sep⟩

/-- `a` below the root of drive `C`. -/
theorem parents_lead_up_drive :
    parentRemote (joinRemote [0x43, colon, backslash] [0x61] .backslash) .backslash =
        [0x43, colon, backslash] ∧
      ReachesRoot [0x43, colon, backslash, 0x61] .backslash := by
  have root : IsDirectory .backslash [0x43, colon, backslash] :=
    ⟨_, [], .drive 0x43 (by decide), by simp, rfl⟩
  have both := parents_lead_up [0x43, colon, backslash, 0x61] .backslash
  exact ⟨both.1 _ [0x61] root ⟨by decide, by decide⟩,
    both.2.mpr (.inr ⟨.inl ⟨by decide, rfl⟩, rfl⟩)⟩

/-- On the share `\\nas\m` the Up button sticks at `\\n`. -/
theorem share_sticks :
    ¬ ReachesRoot [backslash, backslash, 0x6e, 0x61, 0x73, backslash, 0x6d] .backslash := by
  intro reaches
  cases (reachesRoot_iff _ _).mp reaches with
  | inl slash => cases slash
  | inr climbs => exact absurd climbs.2 (by decide)

end RemotePath
end WebClient
end CortenDesk
