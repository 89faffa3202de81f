import CortenDesk.Auth.Revocation

/-!
What a completed reset cuts off. Its deletions leave no older credential, so the property can
only be lost by a request that checked the password, or heard from the provider, before the
reset and issues after the deletion: such a request is not stopped. It holds in the runs in which
no sign-in is overtaken.
-/
namespace CortenDesk
open Php

namespace Revocation
open Interleaving
variable {lib : Primitives} {decrypt : Decrypt}

theorem mem_usable {s : Shared} {credential : Credential} :
    credential ∈ usable s ↔
      (∃ row ∈ s.sessions.rows, row.credential = some credential) ∨
        (∃ row ∈ s.clientTokens.rows, row.credential = credential) ∨
          ∃ cookie ∈ s.cookies, s.honours cookie = true ∧ cookie.credential = credential := by
  simp only [usable, List.mem_append, List.mem_filterMap, List.mem_map, List.mem_filter, or_assoc,
    and_assoc]

theorem honours_iff {s : Shared} {cookie : Cookie} :
    s.honours cookie = true ↔ s.rememberToken cookie.userId = some cookie.token :=
  decide_eq_true_iff

/-- Every token that was stored or handed out has been drawn. -/
structure Minted (s : Shared) : Prop where
  cookies : ∀ cookie ∈ s.cookies, cookie.token < s.drawn
  stored : ∀ userId token, s.rememberToken userId = some token → token < s.drawn

/-- The remember token a request has loaded. -/
def Process.token : Process → Option Nat
  | .checked _ _ loaded | .challenged _ _ loaded _ | .emailed _ _ loaded _
  | .resending _ _ loaded _ => loaded.token
  | .entering entry | .entered entry => entry.token
  | _ => none

/-- The kinds that a reset has deleted before its next statement. -/
def Process.cleared : Process → List Kind
  | .revoking stage _ _ => stage.cleared
  | _ => []

def Process.revokes : Process → Bool
  | .revoking _ _ _ => true
  | _ => false

theorem carries_none {process : Process} {P : Nat → Prop} (none' : process.token = none) :
    ∀ token, process.token = some token → P token := by
  intro token is
  rw [none'] at is
  cases is

/-- What can be lost without anything being issued: sessions and client tokens. -/
structure Subsides (s s' : Shared) : Prop where
  sessions : ∀ row ∈ s'.sessions.rows, ∀ credential, row.credential = some credential →
    ∃ before ∈ s.sessions.rows, before.credential = some credential
  clientTokens : ∀ row ∈ s'.clientTokens.rows, row ∈ s.clientTokens.rows
  cookies : s'.cookies = s.cookies
  rememberToken : s'.rememberToken = s.rememberToken
  drawn : s'.drawn = s.drawn
  completed : s'.completed = s.completed

theorem Subsides.refl (s : Shared) : Subsides s s where
  sessions row hrow _ is := ⟨row, hrow, is⟩
  clientTokens _ := id
  cookies := rfl
  rememberToken := rfl
  drawn := rfl
  completed := rfl

theorem accounts_subsides (s : Shared) (accounts : Accounts) :
    Subsides s { s with accounts } where
  sessions row hrow _ is := ⟨row, hrow, is⟩
  clientTokens _ := id
  cookies := rfl
  rememberToken := rfl
  drawn := rfl
  completed := rfl

theorem Subsides.trans {s s' s'' : Shared} (first : Subsides s s') (second : Subsides s' s'') :
    Subsides s s'' where
  sessions row hrow credential is := by
    obtain ⟨between, hbetween, same⟩ := second.sessions row hrow credential is
    exact first.sessions between hbetween credential same
  clientTokens row hrow := first.clientTokens row (second.clientTokens row hrow)
  cookies := second.cookies.trans first.cookies
  rememberToken := second.rememberToken.trans first.rememberToken
  drawn := second.drawn.trans first.drawn
  completed := second.completed.trans first.completed

theorem deleteSessions_subsides (s : Shared) (p : Session → Bool) :
    Subsides s { s with sessions := s.sessions.delete p } where
  sessions row hrow _ is := ⟨row, (Table.mem_delete.mp hrow).1, is⟩
  clientTokens _ := id
  cookies := rfl
  rememberToken := rfl
  drawn := rfl
  completed := rfl

theorem deleteTokens_subsides (s : Shared) (p : ClientToken → Bool) :
    Subsides s { s with clientTokens := s.clientTokens.delete p } where
  sessions row hrow _ is := ⟨row, hrow, is⟩
  clientTokens _ hrow := (Table.mem_delete.mp hrow).1
  cookies := rfl
  rememberToken := rfl
  drawn := rfl
  completed := rfl

/-- The session of a guest is not signed in. -/
theorem writeGuest_subsides (s : Shared) (session : Session) :
    Subsides s (s.writeGuest session) where
  sessions row hrow credential is := by
    simp only [Shared.writeGuest] at hrow
    split at hrow
    · rcases Table.mem_insert.mp hrow with old | rfl
      · exact ⟨row, old, is⟩
      · simp [Session.credential] at is
    · obtain ⟨before, hbefore, rfl⟩ := List.mem_map.mp hrow
      split at is
      · simp [Session.credential] at is
      · exact ⟨before, hbefore, is⟩
  clientTokens _ := id
  cookies := rfl
  rememberToken := rfl
  drawn := rfl
  completed := rfl

theorem Subsides.usable {s s' : Shared} (subsides : Subsides s s') {credential : Credential}
    (usable' : credential ∈ usable s') : credential ∈ usable s := by
  rw [mem_usable] at usable' ⊢
  rcases usable' with ⟨row, hrow, is⟩ | ⟨row, hrow, is⟩ | ⟨cookie, hcookie, honoured, is⟩
  · exact .inl (subsides.sessions row hrow credential is)
  · exact .inr (.inl ⟨row, subsides.clientTokens row hrow, is⟩)
  · refine .inr (.inr ⟨cookie, subsides.cookies ▸ hcookie, ?_, is⟩)
    rwa [Shared.honours, subsides.rememberToken] at honoured

theorem Subsides.minted {s s' : Shared} (subsides : Subsides s s') (minted : Minted s) :
    Minted s' where
  cookies cookie hcookie := by
    rw [subsides.cookies] at hcookie
    rw [subsides.drawn]
    exact minted.cookies cookie hcookie
  stored userId token is := by
    rw [subsides.rememberToken] at is
    rw [subsides.drawn]
    exact minted.stored userId token is

/-- What one step of a request does, unless it completes a reset. -/
structure Change (s : Shared) (process : Process) (out : Shared × Process) : Prop where
  usable : ∀ credential ∈ usable out.1, credential ∈ usable s ∨ credential ∈ issues s process
  minted : Minted out.1
  drawn : s.drawn ≤ out.1.drawn
  token : ∀ token, out.2.token = some token → token < out.1.drawn
  completed : out.1.completed = s.completed
  cleared : process.revokes = false → out.2.cleared = []

/-- A step that issues and revokes nothing, and carries a token already drawn. -/
structure Leads (s : Shared) (out : Shared × Process) : Prop where
  subsides : Subsides s out.1
  token : ∀ token, out.2.token = some token → token < s.drawn
  cleared : out.2.cleared = []

theorem Leads.change {s : Shared} {process : Process} {out : Shared × Process}
    (leads : Leads s out) (minted : Minted s) : Change s process out where
  usable _ hc := .inl (leads.subsides.usable hc)
  minted := leads.subsides.minted minted
  drawn := leads.subsides.drawn.ge
  token token is := leads.subsides.drawn ▸ leads.token token is
  completed := leads.subsides.completed
  cleared _ := leads.cleared

theorem Subsides.leads {s s' : Shared} (subsides : Subsides s s') {process : Process}
    (none' : process.token = none) (cleared : process.cleared = []) : Leads s (s', process) :=
  ⟨subsides, carries_none none', cleared⟩

theorem leads_of_none {s : Shared} {process : Process} (none' : process.token = none)
    (cleared : process.cleared = []) : Leads s (s, process) :=
  (Subsides.refl s).leads none' cleared

theorem asGuest_leads {s : Shared} {session : Session} {handled : Shared × Process}
    (leads : Leads s handled) : Leads s (asGuest s session handled) := by
  unfold asGuest
  split
  · exact leads
  · split <;> exact leads_of_none rfl rfl

variable {s : Shared} (minted : Minted s)
include minted

theorem load_token (user : User) (version : Nat) :
    ∀ token, (s.load user version).token = some token → token < s.drawn :=
  minted.stored user.id

theorem checkLogin_leads (session : Session) (r : SignIn.LoginRequest) :
    Leads s (s, checkLogin lib decrypt s session r) := by
  unfold checkLogin
  split
  · exact leads_of_none rfl rfl
  · split
    · exact leads_of_none rfl rfl
    · split
      · exact leads_of_none rfl rfl
      · split
        · exact leads_of_none rfl rfl
        · exact ⟨.refl s, load_token minted _ _, rfl⟩

theorem loadTwoFactor_leads (session : Session) (r : SignIn.ChallengeRequest) :
    Leads s (loadTwoFactor s session r) := by
  unfold loadTwoFactor
  split
  · exact (writeGuest_subsides s _).leads rfl rfl
  · exact ⟨.refl s, load_token minted _ _, rfl⟩

theorem loadEmail_leads (session : Session) (now : Stamp)
    (next : Loaded → EmailPending → Process)
    (carries : ∀ loaded pending, (next loaded pending).token = loaded.token)
    (cleared : ∀ loaded pending, (next loaded pending).cleared = []) :
    Leads s (loadEmail s session now next) := by
  unfold loadEmail
  split
  · exact (writeGuest_subsides s _).leads rfl rfl
  · refine ⟨.refl s, fun token is => ?_, cleared _ _⟩
    rw [carries] at is
    exact load_token minted _ _ token is

omit minted

theorem callback_leads (session : Session) (outcome : HandOff.Outcome) :
    Leads s (s, callback decrypt s session outcome) := by
  unfold callback
  split
  · exact leads_of_none rfl rfl
  · split <;> exact leads_of_none rfl rfl

theorem userFromRecaller_leads (session : Session) (cookie : Cookie) :
    Leads s (s, userFromRecaller s session cookie) := by
  unfold userFromRecaller
  split
  · split
    · exact leads_of_none rfl rfl
    · split <;> exact leads_of_none rfl rfl
  · exact leads_of_none rfl rfl

theorem findLink_leads (token password confirmation : String) (input : Input) :
    Leads s (s, findLink lib s token password confirmation input) := by
  unfold findLink
  split
  · exact leads_of_none rfl rfl
  · split
    · exact leads_of_none rfl rfl
    · split <;> exact leads_of_none rfl rfl

theorem enter_leads {s' : Shared} (subsides : Subsides s s') (session : Session) {loaded : Loaded}
    (drawn : ∀ token, loaded.token = some token → token < s.drawn) (remember : Bool) :
    Leads s (s', enter session loaded remember) :=
  ⟨subsides, drawn, rfl⟩

theorem afterLogin_leads (session : Session) (r : SignIn.LoginRequest) {loaded : Loaded}
    (drawn : ∀ token, loaded.token = some token → token < s.drawn) :
    Leads s (afterLogin lib s session r loaded) := by
  have subsides := accounts_subsides s
    (LoginEmailVerification.required lib s.accounts loaded.user r.cookie r.now).1
  unfold afterLogin
  split
  · exact leads_of_none rfl rfl
  · split
    · exact (writeGuest_subsides s _).leads rfl rfl
    · simp only
      split
      · exact enter_leads subsides session drawn r.remember
      · split
        · exact (subsides.trans (writeGuest_subsides _ _)).leads rfl rfl
        · split
          · exact subsides.leads rfl rfl
          · exact enter_leads subsides _ drawn r.remember

theorem answerTwoFactor_leads (session : Session) (r : SignIn.ChallengeRequest) {loaded : Loaded}
    (drawn : ∀ token, loaded.token = some token → token < s.drawn) (pending : TwoFactorPending) :
    Leads s (answerTwoFactor lib s session r loaded pending) := by
  unfold answerTwoFactor
  split
  · exact leads_of_none rfl rfl
  · simp only
    split
    · split
      · exact leads_of_none rfl rfl
      · exact enter_leads (accounts_subsides s _) _ drawn pending.remember
    · split
      · exact leads_of_none rfl rfl
      · exact enter_leads (accounts_subsides s _) _ drawn pending.remember

theorem answerEmail_leads (session : Session) (r : SignIn.ChallengeRequest) {loaded : Loaded}
    (drawn : ∀ token, loaded.token = some token → token < s.drawn) (pending : EmailPending) :
    Leads s (answerEmail lib s session r loaded pending) := by
  unfold answerEmail
  split
  · exact leads_of_none rfl rfl
  · split
    · exact leads_of_none rfl rfl
    · exact enter_leads (accounts_subsides s _) _ drawn pending.remember

theorem afterResend_leads (session : Session) (r : SignIn.ResendRequest) {loaded : Loaded}
    (drawn : ∀ token, loaded.token = some token → token < s.drawn) (pending : EmailPending) :
    Leads s (afterResend s session r loaded pending) := by
  unfold afterResend
  split
  · exact leads_of_none rfl rfl
  · simp only
    split
    · exact (writeGuest_subsides s _).leads rfl rfl
    · split
      · exact (writeGuest_subsides s _).leads rfl rfl
      · exact enter_leads (.refl s) _ drawn pending.remember

/-- A token that is drawn belongs to no cookie yet. -/
theorem cycle_change (minted : Minted s) (process : Process) (userId : Nat) {next : Process}
    (fresh : ∀ token, next.token = some token → token ≤ s.drawn)
    (cleared : process.revokes = false → next.cleared = []) :
    Change s process (s.cycleRememberToken userId, next) where
  usable credential hc := by
    rw [mem_usable] at hc
    rw [mem_usable]
    rcases hc with session | token | ⟨cookie, hcookie, honoured, is⟩
    · exact .inl (.inl session)
    · exact .inl (.inr (.inl token))
    · refine .inl (.inr (.inr ⟨cookie, hcookie, ?_, is⟩))
      have old := minted.cookies cookie hcookie
      have is' := honours_iff.mp honoured
      simp only [Shared.cycleRememberToken] at is'
      by_cases own : cookie.userId = userId
      · rw [own, Function.update_self, Option.some.injEq] at is'
        omega
      · rw [Function.update_of_ne own] at is'
        exact honours_iff.mpr is'
  minted := by
    refine ⟨fun cookie hcookie => Nat.lt_succ_of_lt (minted.cookies cookie hcookie), ?_⟩
    intro user token is
    simp only [Shared.cycleRememberToken] at is ⊢
    by_cases own : user = userId
    · rw [own, Function.update_self, Option.some.injEq] at is
      omega
    · rw [Function.update_of_ne own] at is
      exact Nat.lt_succ_of_lt (minted.stored user token is)
  drawn := Nat.le_succ s.drawn
  token token is := Nat.lt_succ_of_le (fresh token is)
  completed := rfl
  cleared

/-- What a first statement leaves is left by the two together. -/
theorem Subsides.then {s' : Shared} (subsides : Subsides s s') {process : Process}
    {out : Shared × Process} (quiet : issues s' process = [])
    (change : Change s' process out) : Change s process out where
  usable credential hc := by
    rcases change.usable credential hc with old | new
    · exact .inl (subsides.usable old)
    · rw [quiet] at new
      cases new
  minted := change.minted
  drawn := subsides.drawn ▸ change.drawn
  token := change.token
  completed := change.completed.trans subsides.completed
  cleared := change.cleared

theorem login_change (minted : Minted s) {entry : Entry}
    (drawn : ∀ token, entry.token = some token → token < s.drawn) :
    Change s (.entering entry) (login s entry) := by
  have subsides := deleteSessions_subsides s fun row => row.id = entry.session.id
  unfold login
  simp only
  split
  · refine subsides.then rfl (cycle_change (subsides.minted minted) _ entry.userId ?_
      fun _ => rfl)
    intro token is
    exact (Option.some.inj is).ge
  · exact Leads.change ⟨subsides, drawn, rfl⟩ minted

theorem logout_change (minted : Minted s) (session userId : Nat) (token : Option Nat) :
    Change s (.leaving session userId token) (logout s session userId token, .returned) := by
  have subsides := deleteSessions_subsides s fun row => row.id = session
  unfold logout
  simp only
  split
  · exact subsides.then rfl (cycle_change (subsides.minted minted) _ userId (carries_none rfl)
      fun _ => rfl)
  · exact (subsides.leads rfl rfl).change minted

theorem mem_cookies {entry : Entry} {cookie : Cookie} (given : cookie ∈ entry.cookies) :
    entry.token = some cookie.token := by
  unfold Entry.cookies at given
  split at given
  · obtain ⟨token, is, rfl⟩ := Option.map_eq_some_iff.mp (Option.mem_toList.mp given)
    exact is
  · cases given

theorem respond_change (minted : Minted s) {entry : Entry}
    (drawn : ∀ token, entry.token = some token → token < s.drawn) :
    Change s (.entered entry) (respond s entry, .returned) where
  usable credential hc := by
    rw [mem_usable] at hc
    rw [mem_usable]
    rcases hc with ⟨row, hrow, is⟩ | token | ⟨cookie, hcookie, honoured, is⟩
    · rcases Table.mem_insert.mp hrow with old | rfl
      · exact .inl (.inl ⟨row, old, is⟩)
      · obtain rfl := Option.some.inj is
        exact .inr List.mem_cons_self
    · exact .inl (.inr (.inl token))
    · rcases List.mem_append.mp hcookie with new | old
      · refine .inr (List.mem_cons_of_mem _ (List.mem_map.mpr ⟨cookie, ?_, is⟩))
        exact List.mem_filter.mpr ⟨new, honoured⟩
      · exact .inl (.inr (.inr ⟨cookie, old, honoured, is⟩))
  minted := by
    refine ⟨fun cookie hcookie => ?_, minted.stored⟩
    rcases List.mem_append.mp hcookie with new | old
    · exact drawn cookie.token (mem_cookies new)
    · exact minted.cookies cookie old
  drawn := Nat.le_refl _
  token := carries_none rfl
  completed := rfl
  cleared _ := rfl

theorem issueToken_usable {userId : Nat} {token : String} {authority : Authority}
    {credential : Credential} (hc : credential ∈ usable (issueToken s userId token authority)) :
    credential ∈ usable s ∨ credential = { kind := .clientToken, userId, authority } := by
  rw [mem_usable] at hc
  rw [mem_usable]
  rcases hc with session | ⟨row, hrow, is⟩ | cookie
  · exact .inl (.inl session)
  · rcases Table.mem_insert.mp hrow with old | rfl
    · exact .inl (.inr (.inl ⟨row, old, is⟩))
    · exact .inr is.symm
  · exact .inl (.inr (.inr cookie))

theorem issueToken_change (minted : Minted s) (process next : Process) (userId : Nat)
    (token : String) (authority : Authority) (none' : next.token = none)
    (cleared : next.cleared = [])
    (issued : { kind := .clientToken, userId, authority } ∈ issues s process) :
    Change s process (issueToken s userId token authority, next) where
  usable credential hc := by
    rcases issueToken_usable hc with old | rfl
    · exact .inl old
    · exact .inr issued
  minted := ⟨minted.cookies, minted.stored⟩
  drawn := Nat.le_refl _
  token := carries_none none'
  completed := rfl
  cleared _ := cleared

/-- A client's sign-in issues a token only where the callback does. -/
theorem handOff_clientTokens (pid : Nat) (before : HandOff.Shared) (process : HandOff.Process)
    (input : HandOff.Input) :
    (HandOff.act pid before process input).1.clientTokens = match process with
      | .issuing _ userId => (userId, input.token) :: before.clientTokens
      | _ => before.clientTokens := by
  cases process with
  | sent request => cases request <;> rfl
  | exchanging copy => rfl
  | _ => rfl

theorem clientStep_change (minted : Minted s) (pid flow finished : Nat)
    (process : HandOff.Process) (input : Input) :
    Change s (.client flow finished process) (clientStep pid s flow finished process input) := by
  unfold clientStep
  simp only
  rw [handOff_clientTokens]
  cases process with
  | issuing copy userId =>
      have issued := issueToken_change minted (.client flow finished (.issuing copy userId))
        .returned userId input.token (.sso finished) rfl rfl List.mem_cons_self
      exact ⟨issued.usable, ⟨minted.cookies, minted.stored⟩, Nat.le_refl _,
        carries_none rfl, rfl, fun _ => rfl⟩
  | _ =>
      exact Leads.change ⟨⟨fun row hrow _ is => ⟨row, hrow, is⟩, fun _ => id, rfl, rfl, rfl, rfl⟩,
        carries_none rfl, rfl⟩ minted

theorem claim_leads (link userId : Nat) (now : Stamp) :
    Leads s
      (let (links, hit) := PasswordReset.claim s.links link now
      ({ s with links }, if hit then .claimed userId else .returned)) where
  subsides := ⟨fun row hrow _ is => ⟨row, hrow, is⟩, fun _ => id, rfl, rfl, rfl, rfl⟩
  token := by
    simp only
    split <;> exact carries_none rfl
  cleared := by
    simp only
    split <;> rfl

theorem revoke_change (minted : Minted s) (stage : Stage) (userId version : Nat) :
    Change s (.revoking stage userId version)
      (revoke s userId stage, .revoking stage.next userId version) := by
  have shrinks {s' : Shared} (subsides : Subsides s s') :
      Change s (.revoking stage userId version) (s', .revoking stage.next userId version) :=
    ⟨fun _ hc => .inl (subsides.usable hc), subsides.minted minted, subsides.drawn.ge,
      carries_none rfl, subsides.completed, (nomatch ·)⟩
  cases stage with
  | clientTokens => exact shrinks (deleteTokens_subsides s _)
  | sessions => exact shrinks (deleteSessions_subsides s _)
  | trusted => exact shrinks (accounts_subsides s _)
  | rememberToken => exact cycle_change minted _ userId (carries_none rfl) (nomatch ·)
  | done => exact shrinks (.refl s)

theorem usable_cases {credential : Credential} (hc : credential ∈ usable s) :
    (credential.kind = .session ∧
        ∃ row ∈ s.sessions.rows, row.browser.userId = some credential.userId) ∨
      (credential.kind = .clientToken ∧
        ∃ row ∈ s.clientTokens.rows, row.userId = credential.userId) ∨
      (credential.kind = .remember ∧
        ∃ cookie ∈ s.cookies, s.rememberToken credential.userId = some cookie.token) := by
  rcases mem_usable.mp hc with ⟨row, hrow, is⟩ | ⟨row, hrow, rfl⟩ | ⟨cookie, hcookie, honoured, rfl⟩
  · obtain ⟨userId, account, rfl⟩ := Option.map_eq_some_iff.mp is
    exact .inl ⟨rfl, row, hrow, account⟩
  · exact .inr (.inl ⟨rfl, row, hrow, rfl⟩)
  · exact .inr (.inr ⟨rfl, cookie, hcookie, honours_iff.mp honoured⟩)

/-- The deletion that moves a reset on leaves no credential of that kind. -/
theorem cleared_of_revoke (minted : Minted s) {stage : Stage} {credential : Credential}
    (left : credential ∈ usable (revoke s credential.userId stage))
    (cleared : credential.kind ∈ stage.next.cleared) : credential.kind ∈ stage.cleared := by
  rcases usable_cases left with ⟨kind, row, hrow, own⟩ | ⟨kind, row, hrow, own⟩ |
    ⟨kind, cookie, hcookie, stored⟩ <;> rw [kind] at cleared ⊢
  · cases stage with
    | sessions =>
        have kept := (Table.mem_delete.mp hrow).2
        rw [own] at kept
        exact absurd kept (by simp)
    | _ =>
        revert cleared
        decide
  · cases stage with
    | clientTokens =>
        have kept := (Table.mem_delete.mp hrow).2
        exact absurd kept (by simp [own])
    | _ => exact List.mem_cons_self
  · cases stage with
    | rememberToken =>
        have old := minted.cookies cookie hcookie
        simp only [revoke, Shared.cycleRememberToken, Function.update_self,
          Option.some.injEq] at stored
        omega
    | _ =>
        revert cleared
        decide

theorem receive_change (minted : Minted s) (pid : Nat) (input : Input) (request : Request) :
    Change s (.sent request) (receive lib decrypt pid s input request) := by
  cases request with
  | login id r => exact (asGuest_leads (checkLogin_leads minted _ r)).change minted
  | emailChallenge id r =>
      exact (asGuest_leads (loadEmail_leads minted _ r.now _ (fun _ _ => rfl)
        fun _ _ => rfl)).change minted
  | resendEmailCode id r =>
      exact (asGuest_leads (loadEmail_leads minted _ r.now _ (fun _ _ => rfl)
        fun _ _ => rfl)).change minted
  | twoFactorChallenge id r => exact (asGuest_leads (loadTwoFactor_leads minted _ r)).change minted
  | callback id => exact (asGuest_leads (callback_leads _ input.outcome)).change minted
  | recaller id cookie => exact (asGuest_leads (userFromRecaller_leads _ cookie)).change minted
  | logout id =>
      simp only [receive]
      split <;> exact (leads_of_none rfl rfl).change minted
  | clientLogin r =>
      simp only [receive]
      split <;> exact (leads_of_none rfl rfl).change minted
  | client flow request =>
      have change := clientStep_change minted pid flow 0 (.sent request) input
      exact ⟨change.usable, change.minted, change.drawn, change.token, change.completed,
        change.cleared⟩
  | reset token password confirmation =>
      exact (findLink_leads token password confirmation input).change minted

/-- The spec of a step that does not complete a reset. -/
theorem act_change (minted : Minted s) {process : Process}
    (drawn : ∀ token, process.token = some token → token < s.drawn) (pid : Nat) (input : Input)
    (ongoing : ∀ userId version, process ≠ .revoking .done userId version) :
    Change s process (act lib decrypt pid s process input) := by
  cases process with
  | sent request => exact receive_change minted pid input request
  | checked session r loaded => exact (afterLogin_leads session r drawn).change minted
  | challenged session r loaded pending =>
      exact (answerTwoFactor_leads session r drawn pending).change minted
  | emailed session r loaded pending =>
      exact (answerEmail_leads session r drawn pending).change minted
  | resending session r loaded pending =>
      exact (afterResend_leads session r drawn pending).change minted
  | entering entry => exact login_change minted drawn
  | entered entry => exact respond_change minted drawn
  | leaving session userId token => exact logout_change minted session userId token
  | issuing loaded =>
      exact issueToken_change minted _ _ _ _ _ rfl rfl List.mem_cons_self
  | client flow finished process => exact clientStep_change minted pid flow finished process input
  | found link userId =>
      have leads : Leads s (act lib decrypt pid s (.found link userId) input) := by
        simp only [act]
        split <;> exact leads_of_none rfl rfl
      exact leads.change minted
  | claiming link userId => exact (claim_leads link userId input.now.stored).change minted
  | claimed userId =>
      exact ⟨fun _ => .inl, ⟨minted.cookies, minted.stored⟩, Nat.le_refl _, carries_none rfl, rfl,
        fun _ => rfl⟩
  | revoking stage userId version =>
      cases stage with
      | done => exact absurd rfl (ongoing userId version)
      | _ => exact revoke_change minted _ userId version
  | returned => exact (leads_of_none rfl rfl).change minted

/-- What a reset under way has deleted stays away, unless it rests on the new password. -/
def Follows (s : Shared) : Process → Prop
  | .revoking stage userId version => ∀ credential ∈ usable s, credential.userId = userId →
      credential.kind ∈ stage.cleared → credential.authority.follows version
  | _ => True

theorem follows_of_cleared {process : Process} (none' : process.cleared = []) :
    Follows s process := by
  cases process with
  | revoking stage userId version =>
      intro credential _ _ cleared
      rw [show stage.cleared = [] from none'] at cleared
      cases cleared
  | _ => trivial

/-- A step issues nothing that a reset under way must not leave. -/
theorem Follows.of_change {process : Process} {out : Shared × Process} {other : Process}
    (follows : Follows s other) (change : Change s process out)
    (awaits : ∀ credential ∈ issues s process, Awaits credential other) :
    Follows out.1 other := by
  cases other with
  | revoking stage userId version =>
      intro credential hc own cleared
      rcases change.usable credential hc with old | new
      · exact follows credential old own cleared
      · exact awaits credential new own.symm cleared
  | _ => trivial

theorem follows_act (minted : Minted s) {process : Process} {pid : Nat} {input : Input}
    (follows : Follows s process)
    (change : Change s process (act lib decrypt pid s process input)) :
    Follows (act lib decrypt pid s process input).1 (act lib decrypt pid s process input).2 := by
  cases process with
  | revoking stage userId version =>
      cases stage with
      | done => trivial
      | _ =>
          intro credential hc own cleared
          subst own
          have old := (change.usable credential hc).resolve_right List.not_mem_nil
          exact follows credential old rfl (cleared_of_revoke minted hc cleared)
  | _ => exact follows_of_cleared (change.cleared rfl)

/-- The invariant of the shared state, and that of a request. -/
def Shared.Sound (s : Shared) : Prop := Minted s ∧ CutOff s

def Process.Sound (_ : Nat) (s : Shared) (process : Process) : Prop :=
  (∀ token, process.token = some token → token < s.drawn) ∧ Follows s process

theorem Authority.after_cons {authority : Authority} {completed : List Nat} {reset : Nat}
    (after : authority.after completed) (follows : authority.follows reset) :
    authority.after (reset :: completed) := by
  cases authority with
  | password version =>
      intro earlier hearlier
      rcases List.mem_cons.mp hearlier with rfl | before
      · exact follows
      · exact after earlier before
  | sso then' => exact follows.elim

theorem cutOff_of_change {process : Process} {out : Shared × Process} (cutOff : CutOff s)
    (change : Change s process out)
    (covered : ∀ credential ∈ issues s process, Covered s credential) : CutOff out.1 := by
  intro credential hc
  rw [Covered, change.completed]
  rcases change.usable credential hc with old | new
  · exact cutOff credential old
  · exact covered credential new

/-- When a reset completes, everything usable rests on its password or a later one. -/
theorem complete_cutOff {userId version : Nat} (cutOff : CutOff s)
    (follows : Follows s (.revoking .done userId version)) : CutOff (complete s userId version) := by
  intro credential hc
  have covered := cutOff credential hc
  by_cases own : credential.userId = userId
  · have newer := follows credential hc own (by cases credential.kind <;> decide)
    subst own
    simp only [Covered, complete, Function.update_self]
    exact Authority.after_cons covered newer
  · simpa only [Covered, complete, Function.update_of_ne own] using covered

theorem environment_subsides (s : Shared) (change : Environment) :
    Subsides s (environment s change) := by
  cases change with
  | administer accounts => exact accounts_subsides s _
  | endSession id => exact deleteSessions_subsides s _
  | endToken id => exact deleteTokens_subsides s _
  | issueLink | startFlow | pruneFlow =>
      exact ⟨fun row hrow _ is => ⟨row, hrow, is⟩, fun _ => id, rfl, rfl, rfl, rfl⟩

theorem Follows.of_subsides {s' : Shared} {process : Process} (follows : Follows s process)
    (subsides : Subsides s s') : Follows s' process := by
  cases process with
  | revoking stage userId version =>
      intro credential hc own cleared
      exact follows credential (subsides.usable hc) own cleared
  | _ => trivial

theorem follows_complete {process : Process} (follows : Follows s process) (userId version : Nat) :
    Follows (complete s userId version) process := by
  cases process with
  | revoking stage userId version => exact follows
  | _ => trivial

theorem step_sound (c : Config Shared Process) (event : Event Input Environment)
    (holds : Holds Shared.Sound Process.Sound c) (timely : Timely c event) :
    Holds Shared.Sound Process.Sound (step (system lib decrypt) c event) := by
  obtain ⟨⟨minted, cutOff⟩, processes⟩ := holds
  cases event with
  | act pid input =>
      by_cases ongoing : ∀ userId version, c.process pid ≠ .revoking .done userId version
      · have change : Change c.shared (c.process pid)
            (act lib decrypt pid c.shared (c.process pid) input) :=
          act_change minted (processes pid).1 pid input ongoing
        have follows := follows_act minted (processes pid).2 change
        refine holds_act ⟨⟨minted, cutOff⟩, processes⟩
          ⟨change.minted, cutOff_of_change cutOff change fun credential hc => (timely credential hc).1⟩
          ⟨change.token, follows⟩ fun q _ sound => ?_
        exact ⟨fun token is => Nat.lt_of_lt_of_le (sound.1 token is) change.drawn,
          sound.2.of_change change fun credential hc => (timely credential hc).2 q⟩
      · obtain ⟨userId, version, is⟩ : ∃ userId version,
            c.process pid = .revoking .done userId version := by
          simpa only [not_forall, not_not] using ongoing
        have last := (processes pid).2
        rw [is] at last
        refine holds_act ⟨⟨minted, cutOff⟩, processes⟩ ?_ ?_ fun q _ sound => ?_ <;>
          simp only [system, is, act]
        · exact ⟨⟨minted.cookies, minted.stored⟩, complete_cutOff cutOff last⟩
        · exact ⟨carries_none rfl, trivial⟩
        · exact ⟨sound.1, follows_complete sound.2 userId version⟩
  | environment change =>
      have subsides := environment_subsides c.shared change
      refine ⟨⟨subsides.minted minted, fun credential hc => ?_⟩, fun pid => ⟨?_, ?_⟩⟩
      · simp only [step, system, Covered, subsides.completed]
        exact cutOff credential (subsides.usable hc)
      · simp only [step, system, subsides.drawn]
        exact (processes pid).1
      · exact (processes pid).2.of_subsides subsides

theorem start_sound (accounts : Accounts) (links : Table PasswordReset)
    (requests : Nat → Request) : Holds Shared.Sound Process.Sound (start accounts links requests) :=
  ⟨⟨⟨nofun, nofun⟩, nofun⟩, fun _ => ⟨carries_none rfl, trivial⟩⟩

/-- In every run in which no sign-in is overtaken by a reset, whatever is usable rests on the
password of the last completed reset, or on single sign-on after it. -/
theorem reset_cuts_off (accounts : Accounts) (links : Table PasswordReset)
    (requests : Nat → Request) (events : List (Event Input Environment))
    (timely : Runs.Along (step (system lib decrypt)) Timely (start accounts links requests)
      events) :
    Runs.Always (step (system lib decrypt)) (fun c => CutOff c.shared)
      (start accounts links requests) events :=
  Runs.Always.of_invariant_along step_sound (fun _ holds => holds.1.2) events _
    (start_sound accounts links requests) timely

theorem timely_of_quiet {c : Config Shared Process} {pid : Nat} (input : Input)
    (quiet : issues c.shared (c.process pid) = []) : Timely c (.act pid input) := by
  intro credential hc
  rw [quiet] at hc
  cases hc

/-- One account with an authenticator enrolled, and a reset link sent to it. -/
def ann : Accounts where
  db :=
    { users := Table.empty.insert fun id =>
        { id, username := "ann", email := some "ann@example.com" } }
  credentials _ := { password := "old", totpSecret := some "314159", totpEnabled := true }

def sent : Table PasswordReset :=
  Table.empty.insert fun id => { id, userId := 1, tokenHash := "rst", expiresAt := 3600 }

/-- The password form with a password, the reset, and the challenge on the session of the form. -/
def signInAround (password : String) : Nat → Request
  | 0 => .login 0 { now := 0, username := "ann", password }
  | 1 => .reset "rst" "a new one" "a new one"
  | _ => .twoFactorChallenge 1 { now := 60, code := "314159" }

def acts (pid count : Nat) : List (Event Input Environment) :=
  List.replicate count (.act pid { passwordHash := "a new one" })

/-- A reset, then a sign-in with the new password. -/
theorem signed_in_after_reset :
    Runs.Always (step (system .plain some)) (fun c => CutOff c.shared)
      (start ann sent (signInAround "a new one")) (acts 1 9 ++ acts 0 2 ++ acts 2 4) := by
  apply reset_cuts_off
  refine ⟨?_, ?_, ?_, ?_, ?_, ?_, ?_, ?_, ?_, ?_, ?_, ?_, ?_, ?_, ?_, trivial⟩
  case refine_15 =>
    intro credential hc
    obtain rfl : credential = { kind := .session, userId := 1, authority := .password 1 } :=
      List.mem_singleton.mp hc
    refine ⟨by decide +kernel, fun q => ?_⟩
    match q with
    | 0 => trivial
    | 1 => trivial
    | 2 => trivial
    | q + 3 => trivial
  all_goals exact timely_of_quiet _ (by decide +kernel)

/-- A password check before the reset and its challenge after it leave a session that rests on
the old password. -/
theorem challenge_outlives_reset :
    ¬ Runs.Always (step (system .plain some)) (fun c => CutOff c.shared)
      (start ann sent (signInAround "old")) (acts 0 2 ++ acts 1 9 ++ acts 2 4) := by
  intro always
  have cutOff := Runs.Always.last _ _ always
  exact absurd cutOff (by decide +kernel)

end Revocation
end CortenDesk
