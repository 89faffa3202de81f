import CortenDesk.Access.Visibility

/-!
Who may do what with an address book. A personal book is its owner's alone, until the
owner is gone; a shared book is its owner's and the administrators', and its rules give
everyone else a tier. A role that only views the area narrows every tier to reading.
-/
namespace CortenDesk

namespace AddressBookRule

def permRead : Nat := 1

def permReadWrite : Nat := 2

def permFull : Nat := 3

/-- The rule covers the account; a rule without a subject reads as subject 0. -/
def covers (db : Database) (user : User) (rule : AddressBookRule) : Bool :=
  match rule.subjectType with
  | .everyone => true
  | .user => rule.subjectId.getD 0 = user.id
  | .group => rule.subjectId.getD 0 ∈ User.userGroupIds db user.id

/-- The same as a query, where a missing subject matches nothing. -/
def selects (db : Database) (user : User) (rule : AddressBookRule) : Bool :=
  match rule.subjectType with
  | .everyone => true
  | .user => rule.subjectId = some user.id
  | .group => rule.subjectId.any fun id => id ∈ User.userGroupIds db user.id

end AddressBookRule

namespace AddressBook
open AddressBookRule

def rules (db : Database) (book : AddressBook) : List AddressBookRule :=
  db.addressBookRules.rows.filter fun rule => rule.addressBookId = book.id

def isOrphaned (db : Database) (book : AddressBook) : Bool :=
  (book.ownerUserId.bind db.users.find?).isNone

/-- The tier of an account on a book; 0 is no access. -/
def permissionFor (db : Database) (book : AddressBook) (user : User) : Nat :=
  if book.isPersonal then
    if book.ownerUserId = some user.id then permFull
    else if user.isAdmin && isOrphaned db book then permFull
    else 0
  else if book.ownerUserId = some user.id || user.isAdmin then permFull
  else (((rules db book).filter (covers db user)).map permission).foldl max 0

def visibleTo (db : Database) (user : User) (book : AddressBook) : Bool :=
  user.isAdmin || book.ownerUserId = some user.id ||
    (! book.isPersonal && (rules db book).any (selects db user))

end AddressBook

namespace AddressBookManager
open AddressBookRule

/-- The selected book, if the actor sees it. -/
def book (db : Database) (actor : User) (id : Nat) : Option AddressBook :=
  (db.addressBooks.find? id).filter (AddressBook.visibleTo db actor)

def permission (db : Database) (actor : User) (id : Nat) : Nat :=
  let permission := ((book db actor id).map fun book => book.permissionFor db actor).getD 0
  if ! actor.consoleAllows db .addressBook .rw then min permission permRead else permission

def canManage (db : Database) (actor : User) (id : Nat) : Bool := permFull ≤ permission db actor id

/-- The selected book, when the actor has the tier on it. -/
def authorizeBook (db : Database) (actor : User) (selected required : Nat) : Option AddressBook :=
  (book db actor selected).filter fun _ => required ≤ permission db actor selected

/-- What the form of a rule asks of its subject. -/
def hasSubject (db : Database) (subjectId : Option Nat) : RuleSubject → Bool
  | .everyone => true
  | .user => subjectId.any fun id => (db.users.find? id).isSome
  | .group => subjectId.any fun id => (db.userGroups.find? id).isSome

def addRule (db : Database) (actor : User) (selected : Nat) (subjectType : RuleSubject)
    (subjectId : Option Nat) (permission : Nat) : Option Database := do
  let book ← authorizeBook db actor selected permFull
  if book.isPersonal || ! hasSubject db subjectId subjectType ||
      permission ∉ [permRead, permReadWrite, permFull] then none
  else some { db with
    addressBookRules := db.addressBookRules.insert fun id =>
      { id, addressBookId := book.id, subjectType, permission
        subjectId := if subjectType = .everyone then none else subjectId } }

/-- A rule of the selected book. -/
def findRule (db : Database) (actor : User) (selected rule : Nat) : Option AddressBookRule := do
  let _ ← authorizeBook db actor selected permFull
  (db.addressBookRules.find? rule).filter fun row => row.addressBookId = selected

def updateRulePermission (db : Database) (actor : User) (selected rule permission : Nat) :
    Option Database :=
  if permission ∉ [permRead, permReadWrite, permFull] then none
  else (findRule db actor selected rule).map fun row => { db with
    addressBookRules :=
      db.addressBookRules.update (fun other => decide (other.id = row.id)) fun other =>
        { other with permission } }

def deleteRule (db : Database) (actor : User) (selected rule : Nat) : Option Database :=
  (findRule db actor selected rule).map fun row =>
    { db with addressBookRules := db.addressBookRules.delete fun other => decide (other.id = row.id) }

/-- The rule is one that the screen could leave: added, whatever its number is then, or an old one
with this permission. -/
def stores (db : Database) (actor : User) (rule : AddressBookRule) : Bool :=
  ((addRule db actor rule.addressBookId rule.subjectType rule.subjectId rule.permission).any
    fun after => { rule with id := db.addressBookRules.nextId } ∈ after.addressBookRules.rows) ||
  ((updateRulePermission db actor rule.addressBookId rule.id rule.permission).any
    fun after => rule ∈ after.addressBookRules.rows)

theorem canManage_of_authorizeBook {db : Database} {actor : User} {selected : Nat} {book : AddressBook}
    (authorized : authorizeBook db actor selected permFull = some book) :
    canManage db actor selected = true ∧ book.id = selected := by
  obtain ⟨shown, tier⟩ := Option.filter_eq_some_iff.mp authorized
  have found := (Option.filter_eq_some_iff.mp shown).1
  exact ⟨tier, (db.addressBooks.find?_eq_some_iff.mp found).2⟩

theorem authorizeBook_isSome {db : Database} {actor : User} {selected : Nat}
    (manages : canManage db actor selected = true) :
    (authorizeBook db actor selected permFull).isSome = true := by
  have tier := of_decide_eq_true manages
  cases shown : book db actor selected with
  | none =>
      rw [permission, shown] at tier
      simp [permFull] at tier
  | some book =>
      rw [authorizeBook, shown, Option.filter_some, if_pos (decide_eq_true tier)]
      rfl

/-- A rule is found for the tier on its book. -/
theorem findRule_eq_some_iff {db : Database} {actor : User} {selected rule : Nat} {row : AddressBookRule} :
    findRule db actor selected rule = some row ↔ canManage db actor selected = true ∧
      row ∈ db.addressBookRules.rows ∧ row.id = rule ∧ row.addressBookId = selected := by
  simp only [findRule, Option.bind_eq_bind, Option.bind_eq_some_iff, Option.filter_eq_some_iff,
    decide_eq_true_eq, Table.find?_eq_some_iff]
  constructor
  · rintro ⟨book, authorized, ⟨present, named⟩, within⟩
    exact ⟨(canManage_of_authorizeBook authorized).1, present, named, within⟩
  · rintro ⟨manages, present, named, within⟩
    obtain ⟨book, authorized⟩ := Option.isSome_iff_exists.mp (authorizeBook_isSome manages)
    exact ⟨book, authorized, ⟨present, named⟩, within⟩

theorem deleteRule_isSome {db : Database} {actor : User} {row : AddressBookRule}
    (manages : canManage db actor row.addressBookId = true) (listed : row ∈ db.addressBookRules.rows) :
    (deleteRule db actor row.addressBookId row.id).isSome = true := by
  have found : findRule db actor row.addressBookId row.id = some row :=
    findRule_eq_some_iff.mpr ⟨manages, listed, rfl, rfl⟩
  rw [deleteRule, found]
  rfl

theorem canManage_of_addRule {db after : Database} {actor : User} {selected : Nat}
    {subjectType : RuleSubject} {subjectId : Option Nat} {permission : Nat}
    (added : addRule db actor selected subjectType subjectId permission = some after) :
    canManage db actor selected = true := by
  obtain ⟨book, authorized, _⟩ := Option.bind_eq_some_iff.mp added
  exact (canManage_of_authorizeBook authorized).1

/-- The form drops the number of a subject that is everyone. -/
theorem addRule_subject (db : Database) (actor : User) (selected : Nat) (subjectType : RuleSubject)
    (subjectId : Option Nat) (permission : Nat) :
    addRule db actor selected subjectType (if subjectType = .everyone then none else subjectId) permission =
      addRule db actor selected subjectType subjectId permission := by
  cases subjectType <;> rfl

/-- A rule that no book has yet is stored when the form accepts it. -/
theorem stores_fresh {db : Database} {actor : User} {rule : AddressBookRule}
    (fresh : rule.id = db.addressBookRules.nextId)
    (subject : rule.subjectType = .everyone → rule.subjectId = none) :
    stores db actor rule = (addRule db actor rule.addressBookId rule.subjectType rule.subjectId
      rule.permission).isSome := by
  have unlisted : updateRulePermission db actor rule.addressBookId rule.id rule.permission = none := by
    rw [updateRulePermission]
    split
    · rfl
    · refine Option.map_eq_none_iff.mpr (Option.eq_none_iff_forall_ne_some.mpr fun row found => ?_)
      obtain ⟨_, listed, named, _⟩ := findRule_eq_some_iff.mp found
      exact Nat.ne_of_lt (db.addressBookRules.below row listed) (named.trans fresh)
  rw [stores, unlisted, Option.any_none, Bool.or_false]
  cases added : addRule db actor rule.addressBookId rule.subjectType rule.subjectId rule.permission with
  | none => rfl
  | some after =>
      obtain ⟨book, authorized, added⟩ := Option.bind_eq_some_iff.mp added
      split at added
      · cases added
      · obtain rfl := Option.some.inj added
        rw [Option.any_some, Option.isSome_some, decide_eq_true_eq]
        refine Table.mem_insert.mpr (.inr ?_)
        rw [(canManage_of_authorizeBook authorized).2]
        split
        · next everyone => rw [← subject everyone]
        · rfl

/-- The screen stores a rule for the tier on its book only. -/
theorem canManage_of_stores {db : Database} {actor : User} {rule : AddressBookRule}
    (stored : stores db actor rule = true) : canManage db actor rule.addressBookId = true := by
  rw [stores, Bool.or_eq_true, Option.any_eq_true, Option.any_eq_true] at stored
  obtain ⟨after, added, _⟩ | ⟨after, updated, _⟩ := stored
  · exact canManage_of_addRule added
  · rw [updateRulePermission] at updated
    split at updated
    · cases updated
    · obtain ⟨row, found, _⟩ := Option.map_eq_some_iff.mp updated
      exact (findRule_eq_some_iff.mp found).1

section Tokens
variable (db : Database) (actor : User) (tokens : Table ApiToken)

/-- A form of the screen, on a database with other tokens, leaves those. -/
theorem addRule_apiTokens (selected : Nat) (subjectType : RuleSubject) (subjectId : Option Nat)
    (permission : Nat) :
    addRule { db with apiTokens := tokens } actor selected subjectType subjectId permission =
      (addRule db actor selected subjectType subjectId permission).map fun after =>
        { after with apiTokens := tokens } := by
  have same : authorizeBook { db with apiTokens := tokens } actor selected permFull =
      authorizeBook db actor selected permFull := rfl
  have subject : hasSubject { db with apiTokens := tokens } subjectId subjectType =
      hasSubject db subjectId subjectType := rfl
  rw [addRule, addRule, same, subject]
  cases authorizeBook db actor selected permFull with
  | none => rfl
  | some book =>
      simp only [Option.bind_eq_bind, Option.bind_some]
      split <;> rfl

theorem updateRulePermission_apiTokens (selected rule permission : Nat) :
    updateRulePermission { db with apiTokens := tokens } actor selected rule permission =
      (updateRulePermission db actor selected rule permission).map fun after =>
        { after with apiTokens := tokens } := by
  have same : findRule { db with apiTokens := tokens } actor selected rule =
      findRule db actor selected rule := rfl
  rw [updateRulePermission, updateRulePermission, same]
  split
  · rfl
  · cases findRule db actor selected rule <;> rfl

theorem stores_apiTokens (rule : AddressBookRule) :
    stores { db with apiTokens := tokens } actor rule = stores db actor rule := by
  rw [stores, addRule_apiTokens, updateRulePermission_apiTokens, Option.any_map, Option.any_map]
  rfl

theorem deleteRule_apiTokens (selected rule : Nat) :
    (deleteRule { db with apiTokens := tokens } actor selected rule).isSome =
      (deleteRule db actor selected rule).isSome := by
  rw [deleteRule, deleteRule, Option.isSome_map, Option.isSome_map]
  rfl

end Tokens

/-- Managing a book takes the area and the full tier on the book. -/
theorem full_of_canManage {db : Database} {actor : User} {book : AddressBook}
    (present : book ∈ db.addressBooks.rows) (manages : canManage db actor book.id = true) :
    actor.consoleAllows db .addressBook .rw = true ∧ permFull ≤ book.permissionFor db actor := by
  have tier := of_decide_eq_true manages
  have found : db.addressBooks.find? book.id = some book := db.addressBooks.find?_of_mem present
  simp only [permission, AddressBookManager.book, found, Option.filter_some] at tier
  split at tier
  · have read : permFull ≤ permRead := Nat.le_trans tier (Nat.min_le_right _ _)
    exact absurd read (by decide)
  · next area =>
    refine ⟨by simpa using area, ?_⟩
    split at tier
    · exact tier
    · exact absurd tier (by simp [permFull])

end AddressBookManager
end CortenDesk
