import CortenDesk.Auth.ResetLinks

/-!
Exclusivity of the reset links. The claim is a conditional update, so a link changes the
password once in every run. That one link is live and that a superseded one is dead both
depend on the two statements of `issue` standing together: they hold in the runs where a link
is created with no other live and no reset under way that could still change the password.
-/
namespace CortenDesk
open Php

namespace ResetLinks
open PasswordReset Interleaving
variable {lib : Primitives}

/-- Some links have been used, and nothing else has changed. -/
structure Retired (links links' : Table PasswordReset) : Prop where
  nextId : links'.nextId = links.nextId
  rows : ∀ row' ∈ links'.rows, ∃ row ∈ links.rows, row.id = row'.id ∧ row.userId = row'.userId ∧
    (row'.usedAt = none → row = row') ∧ (row.usedAt.isSome = true → row'.usedAt.isSome = true)

theorem retired_update (links : Table PasswordReset) (p : PasswordReset → Bool) (now : Stamp) :
    Retired links (links.update p fun link => { link with usedAt := some now }) where
  nextId := rfl
  rows row' hrow := by
    obtain ⟨row, present, rfl⟩ := List.mem_map.mp hrow
    refine ⟨row, present, ?_⟩
    by_cases hit : p row = true
    · rw [if_pos hit]
      exact ⟨rfl, rfl, (nomatch ·), fun _ => rfl⟩
    · rw [if_neg hit]
      exact ⟨rfl, rfl, fun _ => rfl, id⟩

theorem retire_retired (links : Table PasswordReset) (userId : Nat) (now : Stamp) :
    Retired links (retire links userId now) := retired_update links _ now

theorem claim_retired (links : Table PasswordReset) (id : Nat) (now : Stamp) :
    Retired links (claim links id now).1 := retired_update links _ now

theorem create_eq_some {links links' : Table PasswordReset} {userId : Nat} {tokenHash : String}
    {now : Stamp} (created : create links userId tokenHash now = some links') :
    ∃ row : PasswordReset, row.id = links.nextId ∧ row.userId = userId ∧ row.usedAt = none ∧
      links'.rows = links.rows ++ [row] ∧ links'.nextId = links.nextId + 1 := by
  unfold create at created
  split at created
  · cases created
  · obtain rfl := Option.some.inj created
    exact ⟨_, rfl, rfl, rfl, rfl, rfl⟩

/-- A claim that hits its row finds it unused. -/
theorem exists_of_claim {links : Table PasswordReset} {id : Nat} {now : Stamp}
    (hits : (claim links id now).2 = true) : ∃ row ∈ links.rows, row.id = id ∧ row.usedAt = none := by
  have one : links.rows.countP (claimable id) = 1 := of_decide_eq_true hits
  obtain ⟨row, present, free⟩ :=
    List.countP_pos_iff.mp (show 0 < links.rows.countP (claimable id) by omega)
  simp only [claimable, Bool.and_eq_true, decide_eq_true_eq, Option.isNone_iff_eq_none] at free
  exact ⟨row, present, free⟩

/-- The rows the claim leaves with that key are used. -/
theorem used_of_claim {links : Table PasswordReset} {id : Nat} {now : Stamp} {row : PasswordReset}
    (present : row ∈ (claim links id now).1.rows) (same : row.id = id) :
    row.usedAt.isSome = true := by
  obtain ⟨before, _, rfl⟩ := List.mem_map.mp present
  by_cases free : claimable id before = true
  · rw [if_pos free]
    rfl
  · rw [if_neg free] at same ⊢
    cases used : before.usedAt with
    | none => simp [claimable, same, used] at free
    | some at' => rfl

/-- The claims and the changes of a run agree with the rows. -/
structure Sound (s : Account) : Prop where
  known : ∀ claim ∈ s.claims, claim.link < s.links.nextId
  used : ∀ claim ∈ s.claims, ∀ row ∈ s.links.rows, row.id = claim.link → row.usedAt.isSome = true
  claimedOnce : (s.claims.map Claim.link).Nodup
  backed : ∀ change ∈ s.changes, ∃ claim ∈ s.claims,
    claim.link = change.link ∧ claim.request = change.request
  once : ChangesOnce s

/-- A request that has not changed the password is not in the record, and one about to has
claimed its link. -/
def Fits (pid : Nat) (s : Account) : Process → Prop
  | .changed | .failed | .returned _ => True
  | .claimed link _ => { link, request := pid } ∈ s.claims ∧
      ∀ change ∈ s.changes, change.request ≠ pid
  | _ => ∀ change ∈ s.changes, change.request ≠ pid

theorem Sound.of_retired {s : Account} (sound : Sound s) {links : Table PasswordReset}
    (retired : Retired s.links links) : Sound { s with links } where
  known claim hc := by
    rw [retired.nextId]
    exact sound.known claim hc
  used claim hc row hrow same := by
    obtain ⟨before, present, id, _, _, stays⟩ := retired.rows row hrow
    exact stays (sound.used claim hc before present (id.trans same))
  claimedOnce := sound.claimedOnce
  backed := sound.backed
  once := sound.once

theorem Sound.of_created {s : Account} (sound : Sound s) {links : Table PasswordReset}
    {tokenHash : String} (created : create s.links s.user.id tokenHash s.now = some links) :
    Sound { s with links } := by
  obtain ⟨new, id, _, _, rows, nextId⟩ := create_eq_some created
  constructor
  · intro claim hc
    rw [nextId]
    exact Nat.lt_succ_of_lt (sound.known claim hc)
  · intro claim hc row hrow same
    rw [rows] at hrow
    rcases List.mem_append.mp hrow with old | fresh
    · exact sound.used claim hc row old same
    · rw [List.mem_singleton.mp fresh, id] at same
      exact absurd same (Nat.ne_of_gt (sound.known claim hc))
  · exact sound.claimedOnce
  · exact sound.backed
  · exact sound.once

/-- A claim that hits is the first of its link. -/
theorem Sound.of_claimed {s : Account} (sound : Sound s) {link : Nat} (request : Nat)
    (hits : (claim s.links link s.now).2 = true) :
    Sound
      { s with
        links := (claim s.links link s.now).1
        claims := { link, request } :: s.claims } := by
  obtain ⟨row, present, rfl, unused⟩ := exists_of_claim hits
  have retired := sound.of_retired (claim_retired s.links row.id s.now)
  have first : row.id ∉ s.claims.map Claim.link := by
    intro mem
    obtain ⟨earlier, hc, same⟩ := List.mem_map.mp mem
    have used := sound.used earlier hc row present same.symm
    rw [unused] at used
    cases used
  constructor
  · intro claim hc
    rcases List.mem_cons.mp hc with rfl | hc
    · exact s.links.below row present
    · exact retired.known claim hc
  · intro claim hc row' hrow same
    rcases List.mem_cons.mp hc with rfl | hc
    · exact used_of_claim hrow same
    · exact retired.used claim hc row' hrow same
  · exact List.nodup_cons.mpr ⟨first, sound.claimedOnce⟩
  · intro change hchange
    obtain ⟨claim, hc, same⟩ := sound.backed change hchange
    exact ⟨claim, List.mem_cons_of_mem _ hc, same⟩
  · exact sound.once

/-- A change by the request that holds the claim, which has made none before. -/
theorem Sound.of_changed {s : Account} (sound : Sound s) {link request : Nat}
    (held : { link, request } ∈ s.claims) (first : ∀ change ∈ s.changes, change.request ≠ request)
    (superseded : Bool) {password : String} :
    Sound
      { s with
        password
        changes := { link, request, superseded } :: s.changes } where
  known := sound.known
  used := sound.used
  claimedOnce := sound.claimedOnce
  backed change hchange := by
    rcases List.mem_cons.mp hchange with rfl | hchange
    · exact ⟨_, held, rfl, rfl⟩
    · exact sound.backed change hchange
  once := by
    refine List.nodup_cons.mpr ⟨fun mem => ?_, sound.once⟩
    obtain ⟨earlier, hchange, same⟩ := List.mem_map.mp mem
    obtain ⟨claim, hc, ofLink, ofRequest⟩ := sound.backed earlier hchange
    have one := List.inj_on_of_nodup_map sound.claimedOnce hc held (ofLink.trans same)
    exact first earlier hchange (by rw [← ofRequest, one])

/-- What one statement leaves to the record: claims are added, and a change is its own. -/
structure Extends (pid : Nat) (s s' : Account) : Prop where
  claims : ∀ claim ∈ s.claims, claim ∈ s'.claims
  changes : ∀ change ∈ s'.changes, change ∈ s.changes ∨ change.request = pid

theorem Fits.of_extends {pid q : Nat} {s s' : Account} {process : Process}
    (extended : Extends pid s s') (other : q ≠ pid) (fits : Fits q s process) :
    Fits q s' process := by
  have kept : (∀ change ∈ s.changes, change.request ≠ q) →
      ∀ change ∈ s'.changes, change.request ≠ q := by
    intro none' change hchange
    rcases extended.changes change hchange with old | own
    · exact none' change old
    · rw [own]
      exact Ne.symm other
  cases process with
  | changed | failed | returned => trivial
  | claimed link password => exact ⟨extended.claims _ fits.1, kept fits.2⟩
  | sent | issuing | creating | mailing | unmailed | found | claiming => exact kept fits

theorem act_extends (pid : Nat) (s : Account) (process : Process) (input : Input) :
    Extends pid s (act lib pid s process input).1 := by
  have same : ∀ {s' : Account}, s'.claims = s.claims → s'.changes = s.changes →
      Extends pid s s' := by
    intro s' claims changes
    constructor
    · rw [claims]
      exact fun _ hc => hc
    · rw [changes]
      exact fun _ hchange => Or.inl hchange
  cases process with
  | sent request =>
      cases request <;> simp only [act] <;> repeat' split
      all_goals exact same rfl rfl
  | creating =>
      simp only [act]
      split <;> exact same rfl rfl
  | claiming link password =>
      simp only [act]
      split
      · exact ⟨fun _ hc => List.mem_cons_of_mem _ hc, fun _ hchange => Or.inl hchange⟩
      · exact same rfl rfl
  | claimed link password =>
      refine ⟨fun _ hc => hc, fun change hchange => ?_⟩
      rcases List.mem_cons.mp hchange with rfl | old
      · exact Or.inr rfl
      · exact Or.inl old
  | found link password =>
      simp only [act]
      split <;> exact same rfl rfl
  | issuing | mailing | unmailed | changed | failed | returned => exact same rfl rfl

theorem act_sound {pid : Nat} {s : Account} {process : Process} {input : Input}
    (sound : Sound s) (fits : Fits pid s process) :
    Sound (act lib pid s process input).1 ∧
      Fits pid (act lib pid s process input).1 (act lib pid s process input).2 := by
  cases process with
  | sent request =>
      cases request with
      | sendLink login =>
          simp only [act]
          split
          · exact ⟨sound, trivial⟩
          · split
            · exact ⟨sound, fits⟩
            · exact ⟨sound, trivial⟩
      | reset token password confirmation =>
          simp only [act]
          split
          · exact ⟨sound, trivial⟩
          · split
            · exact ⟨sound, trivial⟩
            · split
              · exact ⟨sound, trivial⟩
              · exact ⟨sound, fits⟩
  | issuing => exact ⟨sound.of_retired (retire_retired _ _ _), fits⟩
  | creating =>
      simp only [act]
      split
      · exact ⟨sound, trivial⟩
      · next links created => exact ⟨sound.of_created created, fits⟩
  | mailing link =>
      simp only [act]
      split
      · exact ⟨sound, trivial⟩
      · exact ⟨sound, fits⟩
  | unmailed link => exact ⟨sound.of_retired (claim_retired _ _ _), trivial⟩
  | found link password =>
      simp only [act]
      split
      · exact ⟨sound, fits⟩
      · exact ⟨sound, trivial⟩
  | claiming link password =>
      simp only [act]
      split
      · next hits => exact ⟨sound.of_claimed pid hits, List.mem_cons_self, fits⟩
      · exact ⟨sound.of_retired (claim_retired _ _ _), trivial⟩
  | claimed link password => exact ⟨sound.of_changed fits.1 fits.2 _, trivial⟩
  | changed => exact ⟨sound, trivial⟩
  | failed => exact ⟨sound, trivial⟩
  | returned message => exact ⟨sound, trivial⟩

/-- No link is newer than this one. -/
def IsNewest (s : Account) (link : Nat) : Prop := ∀ row ∈ s.links.rows, row.id ≤ link

/-- A live link is the newest, and so was each that changed the password. -/
structure Newest (s : Account) : Prop where
  own : ∀ row ∈ s.links.rows, row.userId = s.user.id
  live : ∀ row ∈ s.links.rows, row.live s.now = true → IsNewest s row.id
  current : ∀ change ∈ s.changes, change.superseded = false

/-- The link of a reset that may still change the password is the newest. -/
def Waits (_ : Nat) (s : Account) : Process → Prop
  | .found link _ | .claiming link _ => link < s.links.nextId ∧
      ((∃ row ∈ s.links.rows, row.id = link ∧ row.usedAt = none) → IsNewest s link)
  | .claimed link _ => IsNewest s link
  | _ => True

theorem live_eq_true {row : PasswordReset} {now : Stamp} :
    row.live now = true ↔ row.usedAt = none ∧ now < row.expiresAt := by
  simp [live]

theorem IsNewest.of_retired {s : Account} {links : Table PasswordReset} {link : Nat}
    (retired : Retired s.links links) (newest : IsNewest s link) :
    IsNewest { s with links } link := by
  intro row hrow
  obtain ⟨before, present, id, _⟩ := retired.rows row hrow
  rw [← id]
  exact newest before present

theorem Newest.of_retired {s : Account} (newest : Newest s) {links : Table PasswordReset}
    (retired : Retired s.links links) (claims : List Claim) :
    Newest { s with links, claims } where
  own row hrow := by
    obtain ⟨before, present, _, userId, _⟩ := retired.rows row hrow
    rw [← userId]
    exact newest.own before present
  live row hrow lives := by
    obtain ⟨before, present, _, _, same, _⟩ := retired.rows row hrow
    obtain rfl := same (live_eq_true.mp lives).1
    exact (newest.live before present lives).of_retired retired
  current := newest.current

theorem Waits.of_retired {pid : Nat} {s : Account} {process : Process}
    {links : Table PasswordReset} (retired : Retired s.links links) (claims : List Claim)
    (waits : Waits pid s process) : Waits pid { s with links, claims } process := by
  cases process with
  | found link | claiming link =>
      refine ⟨by rw [retired.nextId]; exact waits.1, ?_⟩
      rintro ⟨row, hrow, id, unused⟩
      obtain ⟨before, present, _, _, same, _⟩ := retired.rows row hrow
      obtain rfl := same unused
      exact (waits.2 ⟨before, present, id, unused⟩).of_retired retired
  | claimed link => exact IsNewest.of_retired retired waits
  | sent | issuing | creating | mailing | unmailed | changed | failed | returned => trivial

/-- A link created while no other is live is the newest and the only one. -/
theorem Newest.of_created {s : Account} (newest : Newest s) {links : Table PasswordReset}
    {tokenHash : String} (created : create s.links s.user.id tokenHash s.now = some links)
    (none' : liveLinks s = []) : Newest { s with links } := by
  obtain ⟨new, id, userId, _, rows, _⟩ := create_eq_some created
  have below : ∀ row ∈ links.rows, row.id ≤ new.id := by
    intro row hrow
    rw [rows] at hrow
    rcases List.mem_append.mp hrow with old | fresh
    · rw [id]
      exact Nat.le_of_lt (s.links.below row old)
    · rw [List.mem_singleton.mp fresh]
  constructor
  · intro row hrow
    rw [rows] at hrow
    rcases List.mem_append.mp hrow with old | fresh
    · exact newest.own row old
    · rw [List.mem_singleton.mp fresh]
      exact userId
  · intro row hrow lives
    rw [rows] at hrow
    rcases List.mem_append.mp hrow with old | fresh
    · have listed : row ∈ liveLinks s :=
        List.mem_filter.mpr ⟨old, by simp [newest.own row old, lives]⟩
      rw [none'] at listed
      cases listed
    · rw [List.mem_singleton.mp fresh]
      exact below
  · exact newest.current

/-- A reset that can no longer change the password does not mind a new link. -/
theorem Waits.of_created {pid : Nat} {s : Account} {process : Process}
    {links : Table PasswordReset} {tokenHash : String}
    (created : create s.links s.user.id tokenHash s.now = some links)
    (idle : ¬ MayChange s process) (waits : Waits pid s process) :
    Waits pid { s with links } process := by
  obtain ⟨new, id, _, _, rows, nextId⟩ := create_eq_some created
  cases process with
  | found link | claiming link =>
      refine ⟨by rw [nextId]; exact Nat.lt_succ_of_lt waits.1, ?_⟩
      rintro ⟨row, hrow, same, unused⟩
      rw [rows] at hrow
      rcases List.mem_append.mp hrow with old | fresh
      · exact absurd ⟨row, old, same, unused⟩ idle
      · rw [List.mem_singleton.mp fresh, id] at same
        exact absurd same (Nat.ne_of_gt waits.1)
  | claimed link => exact absurd trivial idle
  | sent | issuing | creating | mailing | unmailed | changed | failed | returned => trivial

theorem superseded_eq_false {s : Account} {link : Nat} (newest : IsNewest s link) :
    superseded s link = false := by
  rw [superseded, List.any_eq_false]
  intro row hrow
  have := newest row hrow
  simp only [Bool.and_eq_true, decide_eq_true_eq, not_and]
  omega

theorem findValid_eq_some {links : Table PasswordReset} {tokenHash : String} {now : Stamp}
    {row : PasswordReset} (found : findValid links tokenHash now = some row) :
    row ∈ links.rows ∧ row.live now = true := by
  unfold findValid at found
  have accepted := List.find?_some found
  rw [Bool.and_eq_true] at accepted
  exact ⟨List.mem_of_find?_eq_some found, accepted.2⟩

/-- A statement that leaves the links alone, or only uses some. -/
structure Quiet (s s' : Account) : Prop where
  retired : Retired s.links s'.links
  user : s'.user = s.user
  now : s'.now = s.now

theorem quiet_refl (s : Account) : Quiet s s where
  retired := ⟨rfl, fun row present => ⟨row, present, rfl, rfl, fun _ => rfl, id⟩⟩
  user := rfl
  now := rfl

theorem Newest.of_quiet {s s' : Account} (newest : Newest s) (quiet : Quiet s s')
    (current : ∀ change ∈ s'.changes, change.superseded = false) : Newest s' := by
  have moved := newest.of_retired quiet.retired s.claims
  refine ⟨?_, ?_, current⟩
  · rw [quiet.user]
    exact moved.own
  · rw [quiet.now]
    exact moved.live

theorem Waits.of_quiet {pid : Nat} {s s' : Account} {process : Process} (quiet : Quiet s s')
    (waits : Waits pid s process) : Waits pid s' process := by
  have moved := waits.of_retired quiet.retired s.claims
  cases process with
  | found | claiming | claimed => exact moved
  | sent | issuing | creating | mailing | unmailed | changed | failed | returned => trivial

theorem act_quiet {pid : Nat} {s : Account} {process : Process} {input : Input}
    (notIssuing : process.isIssuing = false) : Quiet s (act lib pid s process input).1 := by
  have used : ∀ link, Quiet s { s with links := (claim s.links link s.now).1 } :=
    fun link => ⟨claim_retired _ _ _, rfl, rfl⟩
  cases process with
  | sent request =>
      cases request <;> simp only [act] <;> repeat' split
      all_goals exact quiet_refl s
  | issuing => exact ⟨retire_retired _ _ _, rfl, rfl⟩
  | creating => cases notIssuing
  | unmailed link => exact used link
  | claiming link password =>
      simp only [act]
      split
      · exact ⟨(used link).retired, rfl, rfl⟩
      · exact used link
  | found link password =>
      simp only [act]
      split <;> exact quiet_refl s
  | claimed => exact ⟨(quiet_refl s).retired, rfl, rfl⟩
  | mailing | changed | failed | returned => exact quiet_refl s

/-- Outside `issue`, what a request finds or claims is the newest link. -/
theorem act_waits {pid : Nat} {s : Account} {process : Process} {input : Input}
    (newest : Newest s) (waits : Waits pid s process) (notIssuing : process.isIssuing = false) :
    (∀ change ∈ (act lib pid s process input).1.changes, change.superseded = false) ∧
      Waits pid (act lib pid s process input).1 (act lib pid s process input).2 := by
  cases process with
  | sent request =>
      cases request with
      | sendLink login =>
          simp only [act]
          repeat' split
          all_goals exact ⟨newest.current, trivial⟩
      | reset token password confirmation =>
          simp only [act]
          split
          · exact ⟨newest.current, trivial⟩
          · split
            · exact ⟨newest.current, trivial⟩
            · split
              · exact ⟨newest.current, trivial⟩
              · next link found =>
                obtain ⟨present, lives⟩ := findValid_eq_some found
                exact ⟨newest.current, s.links.below link present,
                  fun _ => newest.live link present lives⟩
  | creating => cases notIssuing
  | mailing link =>
      simp only [act]
      split <;> exact ⟨newest.current, trivial⟩
  | found link password =>
      simp only [act]
      split
      · exact ⟨newest.current, waits⟩
      · exact ⟨newest.current, trivial⟩
  | claiming link password =>
      simp only [act]
      split
      · next hits =>
        exact ⟨newest.current,
          (waits.2 (exists_of_claim hits)).of_retired (claim_retired _ _ _)⟩
      · exact ⟨newest.current, trivial⟩
  | claimed link password =>
      refine ⟨fun change hchange => ?_, trivial⟩
      rcases List.mem_cons.mp hchange with rfl | old
      · exact superseded_eq_false waits
      · exact newest.current change old
  | issuing | unmailed | changed | failed | returned => exact ⟨newest.current, trivial⟩

theorem step_newest (c : Config Account Process) (event : Event Input Environment)
    (holds : Holds Newest Waits c) (unopposed : Unopposed c event) :
    Holds Newest Waits (step (system lib) c event) := by
  cases event with
  | act pid input =>
      cases issuing : (c.process pid).isIssuing with
      | false =>
          have quiet : Quiet c.shared (act lib pid c.shared (c.process pid) input).1 :=
            act_quiet issuing
          have after : _ ∧ Waits pid (act lib pid c.shared (c.process pid) input).1 _ :=
            act_waits holds.1 (holds.2 pid) issuing
          obtain ⟨current, waits⟩ := after
          exact holds_act holds (holds.1.of_quiet quiet current) waits
            fun q _ waits => waits.of_quiet quiet
      | true =>
          obtain ⟨alone, idle⟩ := unopposed issuing
          have creates : c.process pid = .creating := by
            cases is : c.process pid <;> rw [is] at issuing <;> first | rfl | cases issuing
          cases created : create c.shared.links c.shared.user.id (lib.sha256 input.plain)
              c.shared.now with
          | none =>
              have stays : (system lib).act pid c.shared (c.process pid) input =
                  (c.shared, .failed) := by
                simp only [system, creates, act, created]
              refine holds_act holds ?_ ?_ fun q _ waits => ?_ <;> rw [stays]
              · exact holds.1
              · trivial
              · exact waits
          | some links =>
              have moves : (system lib).act pid c.shared (c.process pid) input =
                  ({ c.shared with links }, .mailing c.shared.links.nextId) := by
                simp only [system, creates, act, created]
              refine holds_act holds ?_ ?_ fun q _ waits => ?_ <;> rw [moves]
              · exact holds.1.of_created created alone
              · trivial
              · exact waits.of_created created (idle q)
  | environment change =>
      cases change with
      | clock seconds =>
          refine ⟨⟨holds.1.own, fun row present lives => ?_, holds.1.current⟩, holds.2⟩
          obtain ⟨unused, unexpired⟩ := live_eq_true.mp lives
          have before : c.shared.now ≤ c.shared.now + seconds :=
            Int.le_add_of_nonneg_right (Int.natCast_nonneg seconds)
          exact holds.1.live row present
            (live_eq_true.mpr ⟨unused, Int.lt_of_le_of_lt before unexpired⟩)
      | account user => exact ⟨⟨holds.1.own, holds.1.live, holds.1.current⟩, holds.2⟩

theorem step_sound (c : Config Account Process) (event : Event Input Environment)
    (holds : Holds Sound Fits c) : Holds Sound Fits (step (system lib) c event) := by
  cases event with
  | act pid input =>
      have after : Sound (act lib pid c.shared (c.process pid) input).1 ∧ _ :=
        act_sound holds.1 (holds.2 pid)
      exact holds_act holds after.1 after.2 fun q other fits =>
        fits.of_extends (act_extends pid _ _ input) other
  | environment change =>
      cases change <;> exact ⟨⟨holds.1.known, holds.1.used, holds.1.claimedOnce, holds.1.backed,
        holds.1.once⟩, holds.2⟩

theorem exclusive_of_invariant {c : Config Account Process} (sound : Holds Sound Fits c)
    (newest : Holds Newest Waits c) : Exclusive c where
  oneLive _ := by
    have same : ∀ a ∈ liveLinks c.shared, ∀ b ∈ liveLinks c.shared, a = b := by
      intro a ha b hb
      obtain ⟨presentA, liveA⟩ := List.mem_filter.mp ha
      obtain ⟨presentB, liveB⟩ := List.mem_filter.mp hb
      rw [Bool.and_eq_true] at liveA liveB
      exact c.shared.links.eq_of_id_eq presentA presentB (Nat.le_antisymm
        (newest.1.live b presentB liveB.2 a presentA) (newest.1.live a presentA liveA.2 b presentB))
    have nodup : (liveLinks c.shared).Nodup := c.shared.links.nodup.of_map.filter _
    cases listed : liveLinks c.shared with
    | nil => exact Nat.zero_le 1
    | cons a rest =>
        cases rest with
        | nil => exact Nat.le_refl 1
        | cons b rest =>
            rw [listed] at same nodup
            have equal := same a List.mem_cons_self b (List.mem_cons_of_mem _ List.mem_cons_self)
            rw [equal] at nodup
            exact absurd List.mem_cons_self (List.nodup_cons.mp nodup).1
  once := sound.1.once
  current := newest.1.current

theorem start_sound (user : User) (password : String) (now : Stamp)
    (requests : Nat → Request) : Holds Sound Fits (start user password now requests) := by
  have none' : ∀ {α : Type} {P : α → Prop}, ∀ a ∈ ([] : List α), P a :=
    fun a mem => (List.not_mem_nil mem).elim
  exact ⟨⟨none', none', List.nodup_nil, none', List.nodup_nil⟩, fun _ => none'⟩

theorem start_newest (user : User) (password : String) (now : Stamp)
    (requests : Nat → Request) : Holds Newest Waits (start user password now requests) := by
  have none' : ∀ {α : Type} {P : α → Prop}, ∀ a ∈ ([] : List α), P a :=
    fun a mem => (List.not_mem_nil mem).elim
  exact ⟨⟨none', none', none'⟩, fun _ => trivial⟩

/-- Each link changes the password once, in every run. In every run that creates its links
unopposed, one link at most is live and none changes the password after its successor. -/
theorem reset_links_exclusive (lib : Primitives) (user : User) (password : String) (now : Stamp)
    (requests : Nat → Request) (events : List (Event Input Environment)) :
    Runs.Always (step (system lib)) (fun c => ChangesOnce c.shared)
        (start user password now requests) events ∧
      (Runs.Along (step (system lib)) Unopposed (start user password now requests) events →
        Runs.Always (step (system lib)) Exclusive (start user password now requests) events) := by
  have sound := start_sound user password now requests
  constructor
  · exact Runs.Always.of_invariant step_sound (fun c holds => holds.1.once) events _ sound
  · intro unopposed
    exact Runs.Always.of_invariant_along
      (I := fun c => Holds Sound Fits c ∧ Holds Newest Waits c)
      (fun c event holds creates =>
        ⟨step_sound c event holds.1, step_newest c event holds.2 creates⟩)
      (fun c holds => exclusive_of_invariant holds.1 holds.2) events _
      ⟨sound, start_newest user password now requests⟩ unopposed

/-- An account with an address, and three requests: two for a link, one to use the first. -/
def ann : User where
  id := 1
  username := "ann"
  email := some "ann@example.com"

def askTwice : Nat → Request
  | 0 => .reset "rst_1" "new-secret" "new-secret"
  | _ => .sendLink "ann"

def issueBy (pid : Nat) (plain : String) : List (Event Input Environment) :=
  [.act pid {}, .act pid {}, .act pid { plain }]

/-- The first request for a link, and the reset with it up to its claim. -/
def claimFirst : List (Event Input Environment) :=
  issueBy 1 "rst_1" ++ [.act 0 {}, .act 0 {}, .act 0 {}]

/-- One link, used once. -/
theorem reset_link_used :
    Runs.Always (step (system .plain)) Exclusive (start ann "secret" 0 askTwice)
      (claimFirst ++ [.act 0 {}]) := by
  refine (reset_links_exclusive .plain ann "secret" 0 askTwice _).2 ⟨?_, ?_, ?_, ?_, ?_, ?_, ?_, trivial⟩
  case refine_3 =>
    refine fun _ => ⟨by decide +kernel, fun q => ?_⟩
    by_cases own : q = 1
    · subst own
      exact id
    · simp only [step, Function.update_of_ne own]
      exact id
  all_goals exact fun issuing => absurd issuing (by decide +kernel)

/-- Two requests that both retire before either creates leave two links live; and a request
for a link after the claim of another lets the superseded one change the password. -/
theorem reset_links_overlap :
    ¬ Runs.Always (step (system .plain)) Exclusive (start ann "secret" 0 askTwice)
        [.act 1 {}, .act 1 {}, .act 2 {}, .act 2 {}, .act 1 { plain := "rst_1" },
          .act 2 { plain := "rst_2" }] ∧
      ¬ Runs.Always (step (system .plain)) Exclusive (start ann "secret" 0 askTwice)
        (claimFirst ++ issueBy 2 "rst_2" ++ [.act 0 {}]) := by
  constructor
  · intro always
    have two := (Runs.Always.last _ _ always).oneLive fun pid => by
      by_cases second : pid = 2
      · subst second
        rfl
      · by_cases first : pid = 1
        · subst first
          rfl
        · simp only [Runs.run, List.foldl, step, Function.update_of_ne second,
            Function.update_of_ne first]
          cases pid <;> rfl
    exact absurd two (by decide +kernel)
  · intro always
    have current := (Runs.Always.last _ _ always).current
    exact absurd current (by decide +kernel)

end ResetLinks
end CortenDesk
