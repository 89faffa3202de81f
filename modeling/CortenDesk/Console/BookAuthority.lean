import CortenDesk.Console.AddressBookManager

/-!
The two answers to who may use an address book: the query that lists the books of an
account, and the tier that decides what the account may do with one. For an account that is
no administrator both come from the rules that apply to it.
-/
namespace CortenDesk
open AddressBookRule

/-- A membership names a user group that exists. -/
def Database.MembersGrouped (db : Database) : Prop :=
  ∀ row ∈ db.userGroupUser, (db.userGroups.find? row.1).isSome

namespace AddressBookRule

/-- The subject of the rule is everyone, the account, or a user group of the account. -/
def Applies (db : Database) (user : User) (rule : AddressBookRule) : Prop :=
  rule.subjectType = .everyone ∨
    (rule.subjectType = .user ∧ rule.subjectId = some user.id) ∨
    (rule.subjectType = .group ∧ ∃ group, rule.subjectId = some group ∧
      (group, user.id) ∈ db.userGroupUser)

variable {db : Database} {user : User} {rule : AddressBookRule}

theorem selects_iff : selects db user rule = true ↔ Applies db user rule := by
  cases subject : rule.subjectType with
  | everyone => simp [selects, Applies, subject]
  | user => simp [selects, Applies, subject]
  | group =>
      simp only [selects, Applies, subject, Option.any_eq_true, User.mem_userGroupIds,
        decide_eq_true_eq, reduceCtorEq, false_and, true_and, false_or]

/-- No account and no user group has the id that a missing subject casts to. -/
theorem covers_eq_selects (mem : user ∈ db.users.rows) (grouped : db.MembersGrouped)
    (rule : AddressBookRule) : covers db user rule = selects db user rule := by
  have account : 0 ≠ user.id := Nat.ne_of_lt (db.users.positive.2 user mem)
  have group : (0, user.id) ∉ db.userGroupUser := by
    intro member
    obtain ⟨group, found⟩ := Option.isSome_iff_exists.mp (grouped _ member)
    obtain ⟨listed, zero⟩ := (db.userGroups.find?_eq_some_iff).mp found
    exact absurd zero (Nat.ne_of_gt (db.userGroups.positive.2 group listed))
  cases subject : rule.subjectType with
  | everyone => simp [covers, selects, subject]
  | user => cases id : rule.subjectId <;> simp [covers, selects, subject, id, account]
  | group => cases id : rule.subjectId <;> simp [covers, selects, subject, id, User.mem_userGroupIds, group]

end AddressBookRule

namespace AddressBook

/-- The largest of the tiers, 0 for none. -/
theorem foldl_max_le_iff (tiers : List Nat) (least bound : Nat) :
    tiers.foldl max least ≤ bound ↔ least ≤ bound ∧ ∀ tier ∈ tiers, tier ≤ bound := by
  induction tiers generalizing least with
  | nil => simp
  | cons tier tiers ih =>
      rw [List.foldl_cons, ih, Nat.max_le]
      simp only [List.mem_cons, forall_eq_or_imp, and_assoc]

theorem foldl_max_mem (tiers : List Nat) (least : Nat) :
    tiers.foldl max least = least ∨ tiers.foldl max least ∈ tiers := by
  induction tiers generalizing least with
  | nil => exact .inl rfl
  | cons tier tiers ih =>
      rw [List.foldl_cons]
      rcases ih (max least tier) with first | later
      · rcases Nat.le_total least tier with up | down
        · rw [first, Nat.max_eq_right up]
          exact .inr List.mem_cons_self
        · rw [first, Nat.max_eq_left down]
          exact .inl rfl
      · exact .inr (List.mem_cons_of_mem _ later)

variable {db : Database} {user : User} {book : AddressBook}

/-- The tier of the rules that cover the account. -/
def ruleTier (db : Database) (user : User) (book : AddressBook) : Nat :=
  (((rules db book).filter (covers db user)).map permission).foldl max 0

theorem ruleTier_le_iff (bound : Nat) : ruleTier db user book ≤ bound ↔
    ∀ rule ∈ rules db book, covers db user rule = true → rule.permission ≤ bound := by
  rw [ruleTier, foldl_max_le_iff]
  simp only [Nat.zero_le, true_and, List.forall_mem_map, List.mem_filter, and_imp]

theorem ruleTier_mem (db : Database) (user : User) (book : AddressBook) : ruleTier db user book = 0 ∨
    ∃ rule ∈ rules db book, covers db user rule = true ∧
      rule.permission = ruleTier db user book := by
  rcases foldl_max_mem (((rules db book).filter (covers db user)).map permission) 0 with none | some
  · exact .inl none
  · obtain ⟨rule, listed, tier⟩ := List.mem_map.mp some
    obtain ⟨mem, covered⟩ := List.mem_filter.mp listed
    exact .inr ⟨rule, mem, covered, tier⟩

theorem permissionFor_eq (nonadmin : user.isAdmin = false) : permissionFor db book user =
    if book.ownerUserId = some user.id then permFull
    else if book.isPersonal then 0 else ruleTier db user book := by
  unfold permissionFor ruleTier
  split <;> split <;> simp_all

theorem visibleTo_iff (nonadmin : user.isAdmin = false) : visibleTo db user book = true ↔
    book.ownerUserId = some user.id ∨
      (book.isPersonal = false ∧ ∃ rule ∈ rules db book, selects db user rule = true) := by
  simp [visibleTo, nonadmin]

/-- A tier from 1 up is held by who is covered by a rule. -/
theorem one_le_ruleTier_iff (tiers : ∀ rule ∈ rules db book, 1 ≤ rule.permission) :
    1 ≤ ruleTier db user book ↔ ∃ rule ∈ rules db book, covers db user rule = true := by
  constructor
  · intro some
    rcases ruleTier_mem db user book with none | ⟨rule, mem, covered, -⟩
    · rw [none] at some
      exact absurd some (by decide)
    · exact ⟨rule, mem, covered⟩
  · rintro ⟨rule, mem, covered⟩
    exact Nat.le_trans (tiers rule mem) ((ruleTier_le_iff _).mp (Nat.le_refl _) rule mem covered)

/-- More rules that cover the account give it no lower tier. -/
theorem permissionFor_mono {db' : Database} (nonadmin : user.isAdmin = false)
    (more : ∀ rule ∈ rules db book, covers db user rule = true →
      rule ∈ rules db' book ∧ covers db' user rule = true) :
    permissionFor db book user ≤ permissionFor db' book user := by
  have tier : ruleTier db user book ≤ ruleTier db' user book := by
    rw [ruleTier_le_iff]
    intro rule mem covered
    obtain ⟨mem', covered'⟩ := more rule mem covered
    exact (ruleTier_le_iff _).mp (Nat.le_refl _) rule mem' covered'
  rw [permissionFor_eq nonadmin, permissionFor_eq nonadmin]
  split
  · exact Nat.le_refl _
  · split
    · exact Nat.le_refl _
    · exact tier

theorem covers_of_member (member : Nat × Nat) {rule : AddressBookRule}
    (covered : covers db user rule = true) :
    covers { db with userGroupUser := db.userGroupUser ++ [member] } user rule = true := by
  cases subject : rule.subjectType with
  | everyone => simp [covers, subject]
  | user => simpa [covers, subject] using covered
  | group =>
      simp only [covers, subject, decide_eq_true_eq, User.mem_userGroupIds] at covered ⊢
      exact List.mem_append_left _ covered

/-- The list and the tier agree, the tier is the largest of the rules that apply, a personal
book is its owner's alone, and neither a rule nor a membership takes anything away. -/
theorem authorities_agree (db : Database) (grouped : db.MembersGrouped) (user : User)
    (mem : user ∈ db.users.rows) (nonadmin : user.isAdmin = false) (book : AddressBook)
    (tiers : ∀ rule ∈ rules db book, rule.permission ∈ [permRead, permReadWrite, permFull]) :
    (visibleTo db user book = true ↔ 1 ≤ permissionFor db book user) ∧
    (book.isPersonal = false → book.ownerUserId ≠ some user.id →
      (∀ rule ∈ rules db book, Applies db user rule →
        rule.permission ≤ permissionFor db book user) ∧
      ((permissionFor db book user = 0 ∧ ∀ rule ∈ rules db book, ¬ Applies db user rule) ∨
        ∃ rule ∈ rules db book, Applies db user rule ∧
          rule.permission = permissionFor db book user)) ∧
    (book.isPersonal = true → book.ownerUserId ≠ some user.id →
      permissionFor db book user = 0) ∧
    (∀ rule : AddressBookRule, permissionFor db book user ≤ permissionFor
      { db with addressBookRules := db.addressBookRules.insert fun id => { rule with id } }
        book user) ∧
    ∀ member : Nat × Nat, permissionFor db book user ≤ permissionFor
      { db with userGroupUser := db.userGroupUser ++ [member] } book user := by
  have applies (rule : AddressBookRule) : covers db user rule = true ↔ Applies db user rule := by
    rw [covers_eq_selects mem grouped, selects_iff]
  have positive (rule : AddressBookRule) (listed : rule ∈ rules db book) : 1 ≤ rule.permission := by
    have tier := tiers rule listed
    simp only [permRead, permReadWrite, permFull, List.mem_cons, List.not_mem_nil, or_false] at tier
    omega
  refine ⟨?_, fun shared away => ?_, fun personal away => ?_, fun rule => ?_, fun member => ?_⟩
  · rw [visibleTo_iff nonadmin, permissionFor_eq nonadmin]
    by_cases own : book.ownerUserId = some user.id
    · simp [own, permFull]
    · cases personal : book.isPersonal with
      | true => simp [own]
      | false =>
          simp only [own, if_false, false_or, true_and, Bool.false_eq_true]
          rw [one_le_ruleTier_iff positive]
          simp only [covers_eq_selects mem grouped]
  · rw [permissionFor_eq nonadmin, if_neg away, if_neg (by simp [shared])]
    refine ⟨fun rule listed applied => ?_, ?_⟩
    · exact (ruleTier_le_iff _).mp (Nat.le_refl _) rule listed ((applies rule).mpr applied)
    · rcases ruleTier_mem db user book with none | ⟨rule, listed, covered, tier⟩
      · refine .inl ⟨none, fun rule listed applied => ?_⟩
        have some := (one_le_ruleTier_iff positive).mpr ⟨rule, listed, (applies rule).mpr applied⟩
        rw [none] at some
        exact absurd some (by decide)
      · exact .inr ⟨rule, listed, (applies rule).mp covered, tier⟩
  · rw [permissionFor_eq nonadmin, if_neg away, if_pos personal]
  · refine permissionFor_mono nonadmin fun old listed covered => ⟨?_, covered⟩
    obtain ⟨present, here⟩ := List.mem_filter.mp listed
    exact List.mem_filter.mpr ⟨List.mem_append_left _ present, here⟩
  · exact permissionFor_mono nonadmin fun old listed covered => ⟨listed, covers_of_member member covered⟩

/-- Two accounts and a group of one of them, which may write to a book of the other. -/
def team : Database where
  users := (Table.empty.insert fun id => { id, username := "vera" }).insert fun id =>
    { id, username := "walt" }
  userGroups := Table.empty.insert fun id => { id, name := "Field service" }
  userGroupUser := [(1, 1)]
  addressBooks := Table.empty.insert fun id => { id, name := "Branches", ownerUserId := some 2 }
  addressBookRules := Table.empty.insert fun id =>
    { id, addressBookId := 1, subjectType := .group, subjectId := some 1, permission := 2 }

def vera : User := { id := 1, username := "vera" }

def branches : AddressBook := { id := 1, name := "Branches", ownerUserId := some 2 }

theorem authorities_agree_team :
    (visibleTo team vera branches = true ↔ 1 ≤ permissionFor team branches vera) ∧
    visibleTo team vera branches = true ∧ permissionFor team branches vera = permReadWrite := by
  have grouped : team.MembersGrouped := by
    intro row listed
    rw [List.mem_singleton.mp listed]
    decide
  have tiers : ∀ rule ∈ rules team branches,
      rule.permission ∈ [permRead, permReadWrite, permFull] := by
    intro rule listed
    have tier : ∀ rule ∈ rules team branches, rule.permission = 2 := by decide
    rw [tier rule listed]
    decide
  have agree := authorities_agree team grouped vera (by decide) rfl branches tiers
  exact ⟨agree.1, by decide, by decide⟩

end AddressBook
end CortenDesk
