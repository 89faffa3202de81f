import CortenDesk.Auth.SignIn
import CortenDesk.Lib.Runs

/-!
The gates of a password sign-in: the account is active, not provisioned by the identity
provider and not awaiting its approval, local sign-in is not switched off, and an account
with an authenticator enrolled has met a second factor. The password form checks them all;
the challenges look at the account again, but only at part of it, and the client's form at
its status alone. Whether an emailed code is a second factor is a parameter.
-/
namespace CortenDesk
open Php

namespace SignIn
variable (lib : Primitives) (decrypt : Decrypt) (emailCounts : Bool)

/-- Whether a challenge is a second factor. -/
def counts : Option Factor → Bool
  | none => false
  | some .emailedCode => emailCounts
  | some _ => true

/-- The gates that do not depend on the challenge. -/
def Open (accounts : Accounts) (user : User) : Prop :=
  user.isSsoProvisioned = false ∧ user.isSsoPending = false ∧
    OidcService.localLoginDisabled decrypt accounts = false

/-- What is issued stands behind every gate. -/
structure Gated (accounts : Accounts) (issued : Issued) : Prop where
  account : ∃ user, accounts.db.users.find? issued.userId = some user ∧ user.isActive = true ∧
    Open decrypt accounts user
  secondFactor : (accounts.credentials issued.userId).totpEnabled = true →
    counts emailCounts issued.factor = true

/-- Whatever the next request is issued stands behind every gate. -/
def KeepsGates (s : State) (event : Event) : Prop :=
  ∀ issued, (handle lib decrypt s event).2.issued = some issued →
    Gated decrypt emailCounts s.accounts issued

/-- A browser that is not signed in holds a marker of an emailed code, still live, of an
active account. -/
structure AwaitsEmail (s : State) (browser : Nat) (now : Stamp) (user : User)
    (pending : EmailPending) : Prop where
  guest : s.user browser = none
  marker : (s.browser browser).emailVerify = some pending
  named : pending.userId ≠ 0
  live : now ≤ pending.at' + emailPendingTtl
  account : s.accounts.db.users.find? pending.userId = some user
  active : user.isActive = true

/-- The same of a marker of an authenticator challenge. -/
structure AwaitsTotp (s : State) (browser : Nat) (now : Stamp) (user : User)
    (pending : TwoFactorPending) : Prop where
  guest : s.user browser = none
  marker : (s.browser browser).twoFactor = some pending
  named : pending.userId ≠ 0
  live : now ≤ pending.at' + pendingTtl
  account : s.accounts.db.users.find? pending.userId = some user
  active : user.isActive = true
  enrolled : (s.accounts.credentials user.id).totpEnabled = true

/-- The request gets as far as its code. -/
def Admitted (r : ChallengeRequest) : Prop := trim r.code ≠ "" ∧ r.limited = none

/-- A recovery code that is left, or a code of the authenticator not used yet. -/
def AnswersTotp (accounts : Accounts) (user : User) (r : ChallengeRequest) : Prop :=
  (TwoFactor.looksLikeRecoveryCode (trim r.code) = true →
    ∃ row ∈ accounts.recoveryCodes.rows, row.userId = user.id ∧ row.usedAt = none ∧
      lib.check (TwoFactor.normalizeRecoveryCode (trim r.code)) row.codeHash = true) ∧
  (TwoFactor.looksLikeRecoveryCode (trim r.code) = false →
    ∃ timestep, TwoFactor.timestepOf lib (accounts.credentials user.id) (trim r.code) r.now =
        some timestep ∧
      TwoFactor.replayed (accounts.credentials user.id).totpLastTimestep timestep = false)

/-- The password form checks its gates itself. Each other way in meets them when the account
does at that moment. -/
def Meets (s : State) : Event → Prop
  | .emailChallenge browser r => ∀ user pending, AwaitsEmail s browser r.now user pending →
      Admitted r → pending.codeHash ≠ "" → lib.check (digitsOf r.code) pending.codeHash = true →
        Open decrypt s.accounts user ∧
          ((s.accounts.credentials user.id).totpEnabled = true → emailCounts = true)
  | .resendEmailCode browser r => ∀ user pending, AwaitsEmail s browser r.now user pending →
      r.limited = none → (MailSettings.isEnabled s.accounts.settings && r.sent) = false →
        mayRepairMail s.accounts.db user = true →
          Open decrypt s.accounts user ∧ (s.accounts.credentials user.id).totpEnabled = false
  | .twoFactorChallenge browser r => ∀ user pending, AwaitsTotp s browser r.now user pending →
      Admitted r → AnswersTotp lib s.accounts user r → Open decrypt s.accounts user
  | .clientLogin r => ∀ user, clientUser lib s.accounts r = some user →
      Open decrypt s.accounts user ∧ (s.accounts.credentials user.id).totpEnabled = false
  | .login _ _ | .logout _ | .administer _ => True

variable {lib decrypt emailCounts}

theorem find?_of_validated {accounts : Accounts} {username password : String} {user : User}
    (found : validated lib accounts username password = some user) :
    accounts.db.users.find? user.id = some user ∧ user.isActive = true := by
  obtain ⟨found, _⟩ := Option.filter_eq_some_iff.mp found
  have active := List.find?_some found
  rw [Bool.and_eq_true] at active
  exact ⟨accounts.db.users.find?_of_mem (List.mem_of_find?_eq_some found), active.2⟩

theorem find?_of_clientUser {accounts : Accounts} {r : ClientRequest} {user : User}
    (found : clientUser lib accounts r = some user) :
    accounts.db.users.find? user.id = some user ∧ user.isActive = true := by
  obtain ⟨found, accepted⟩ := Option.filter_eq_some_iff.mp found
  rw [Bool.and_eq_true, Bool.and_eq_true] at accepted
  exact ⟨accounts.db.users.find?_of_mem (List.mem_of_find?_eq_some found), accepted.1.1⟩

theorem required_eq_nil {field value : String} : required field value = [] ↔ trim value ≠ "" := by
  unfold required
  split
  · next empty => exact iff_of_false (List.cons_ne_nil _ _) fun filled => filled empty
  · next filled => exact iff_of_true rfl filled

/-- The password form issues a session to nobody but an account that passes every gate and
has no authenticator enrolled. -/
theorem login_issued {accounts : Accounts} {browser : Browser} {r : LoginRequest}
    {issued : Issued}
    (issues : (login lib decrypt accounts browser r).2.2.issued = some issued) :
    ∃ user, accounts.db.users.find? user.id = some user ∧ user.isActive = true ∧
      Open decrypt accounts user ∧ (accounts.credentials user.id).totpEnabled = false ∧
      issued = { userId := user.id } := by
  unfold login at issues
  simp only at issues
  split at issues
  · cases issues
  · next allowed =>
    split at issues
    · cases issues
    · split at issues
      · cases issues
      · split at issues
        · cases issues
        · next user found =>
          obtain ⟨account, active⟩ := find?_of_validated found
          refine ⟨user, account, active, ?_⟩
          split at issues
          · cases issues
          · next own =>
            split at issues
            · cases issues
            · next approved =>
              split at issues
              · cases issues
              · next unenrolled =>
                rw [Bool.not_eq_true] at allowed own approved unenrolled
                refine ⟨⟨own, approved, allowed⟩, unenrolled, ?_⟩
                split at issues
                · exact (Option.some.inj issues).symm
                · split at issues
                  · cases issues
                  · split at issues
                    · cases issues
                    · exact (Option.some.inj issues).symm

theorem markedUser_eq_some {accounts : Accounts} {userId : Nat} {user : User} :
    markedUser accounts userId = some user ↔
      accounts.db.users.find? userId = some user ∧ user.isActive = true :=
  Option.filter_eq_some_iff

theorem emailPendingUser_eq_some {accounts : Accounts} {browser browser' : Browser} {now : Stamp}
    {user : User} {pending : EmailPending} :
    emailPendingUser accounts browser now = (browser', some (user, pending)) ↔
      browser' = browser ∧ browser.emailVerify = some pending ∧ pending.userId ≠ 0 ∧
        emailExpired now pending = false ∧ markedUser accounts pending.userId = some user := by
  unfold emailPendingUser
  split
  · next none' => simp [none']
  · next held is =>
    rw [is, Option.some.injEq]
    split
    · next unnamed =>
      refine iff_of_false (by simp) ?_
      rintro ⟨_, rfl, named, _⟩
      exact named unnamed
    · split
      · next late =>
        refine iff_of_false (by simp) ?_
        rintro ⟨_, rfl, _, live, _⟩
        rw [late] at live
        cases live
      · next named live =>
        rw [Bool.not_eq_true] at live
        simp only [Prod.mk.injEq, Option.map_eq_some_iff]
        constructor
        · rintro ⟨rfl, found, account, rfl, rfl⟩
          exact ⟨rfl, rfl, named, live, account⟩
        · rintro ⟨rfl, rfl, _, _, account⟩
          exact ⟨rfl, user, account, rfl, rfl⟩

theorem pendingUser_eq_some {accounts : Accounts} {browser browser' : Browser} {now : Stamp}
    {user : User} {pending : TwoFactorPending} :
    pendingUser accounts browser now = (browser', some (user, pending)) ↔
      browser' = browser ∧ browser.twoFactor = some pending ∧ pending.userId ≠ 0 ∧
        twoFactorExpired now pending = false ∧ markedUser accounts pending.userId = some user ∧
        (accounts.credentials user.id).totpEnabled = true := by
  unfold pendingUser
  split
  · next none' => simp [none']
  · next held is =>
    rw [is, Option.some.injEq]
    split
    · next unnamed =>
      refine iff_of_false (by simp) ?_
      rintro ⟨_, rfl, named, _⟩
      exact named unnamed
    · split
      · next late =>
        refine iff_of_false (by simp) ?_
        rintro ⟨_, rfl, _, live, _⟩
        rw [late] at live
        cases live
      · next named live =>
        rw [Bool.not_eq_true] at live
        simp only [Prod.mk.injEq, Option.map_eq_some_iff, Option.filter_eq_some_iff]
        constructor
        · rintro ⟨rfl, found, ⟨account, enrolled⟩, rfl, rfl⟩
          exact ⟨rfl, rfl, named, live, account, enrolled⟩
        · rintro ⟨rfl, rfl, _, _, account, enrolled⟩
          exact ⟨rfl, user, ⟨account, enrolled⟩, rfl, rfl⟩

theorem awaitsEmail_iff {s : State} {browser : Nat} {now : Stamp} {user : User}
    {pending : EmailPending} :
    AwaitsEmail s browser now user pending ↔ s.user browser = none ∧
      emailPendingUser s.accounts (s.browser browser) now =
        (s.browser browser, some (user, pending)) := by
  rw [emailPendingUser_eq_some, markedUser_eq_some, emailExpired, decide_eq_false_iff_not, not_lt]
  constructor
  · rintro ⟨guest, marker, named, live, account, active⟩
    exact ⟨guest, rfl, marker, named, live, account, active⟩
  · rintro ⟨guest, _, marker, named, live, account, active⟩
    exact ⟨guest, marker, named, live, account, active⟩

theorem awaitsTotp_iff {s : State} {browser : Nat} {now : Stamp} {user : User}
    {pending : TwoFactorPending} :
    AwaitsTotp s browser now user pending ↔ s.user browser = none ∧
      pendingUser s.accounts (s.browser browser) now =
        (s.browser browser, some (user, pending)) := by
  rw [pendingUser_eq_some, markedUser_eq_some, twoFactorExpired, decide_eq_false_iff_not, not_lt]
  constructor
  · rintro ⟨guest, marker, named, live, account, active, enrolled⟩
    exact ⟨guest, rfl, marker, named, live, ⟨account, active⟩, enrolled⟩
  · rintro ⟨guest, _, marker, named, live, ⟨account, active⟩, enrolled⟩
    exact ⟨guest, marker, named, live, account, active, enrolled⟩

theorem find?_own {users : Table User} {userId : Nat} {user : User}
    (account : users.find? userId = some user) : users.find? user.id = some user :=
  users.find?_of_mem (users.find?_eq_some_iff.mp account).1

theorem admitted_iff {r : ChallengeRequest} :
    Admitted r ↔ required "code" r.code = [] ∧ r.limited = none := by
  rw [Admitted, required_eq_nil]

theorem emailChallenge_issued {accounts : Accounts} {browser : Browser} {r : ChallengeRequest}
    {issued : Issued} :
    (emailChallenge lib accounts browser r).2.2.issued = some issued ↔
      ∃ user pending, emailPendingUser accounts browser r.now = (browser, some (user, pending)) ∧
        Admitted r ∧ pending.codeHash ≠ "" ∧ lib.check (digitsOf r.code) pending.codeHash = true ∧
        issued = { userId := user.id, factor := some .emailedCode } := by
  simp only [admitted_iff]
  unfold emailChallenge
  split
  · next none' =>
    refine iff_of_false (by simp [expired, Response.issued]) ?_
    rintro ⟨user, pending, some', _⟩
    rw [none'] at some'
    simp at some'
  · next kept user pending is =>
    obtain rfl : kept = browser := (emailPendingUser_eq_some.mp is).1
    simp only [is, Prod.mk.injEq, true_and, Option.some.injEq]
    split
    · next error errors is' => simp [Response.issued, is']
    · next filled =>
      split
      · next seconds limited => simp [Response.issued, tooManyAttempts, limited]
      · next unlimited =>
        split
        · next wrong =>
          refine iff_of_false (by simp [Response.issued]) ?_
          rintro ⟨_, _, ⟨rfl, rfl⟩, _, hashed, right, _⟩
          simp [hashed, right] at wrong
        · next right =>
          simp only [Bool.or_eq_true, decide_eq_true_eq, Bool.not_eq_true', not_or,
            Bool.not_eq_false] at right
          constructor
          · intro issues
            exact ⟨user, pending, ⟨rfl, rfl⟩, ⟨filled, unlimited⟩, right.1, right.2,
              (Option.some.inj issues).symm⟩
          · rintro ⟨_, _, ⟨rfl, rfl⟩, _, _, _, rfl⟩
            rfl

theorem resendEmailCode_issued {accounts : Accounts} {browser : Browser} {r : ResendRequest}
    {issued : Issued} :
    (resendEmailCode accounts browser r).2.2.issued = some issued ↔
      ∃ user pending, emailPendingUser accounts browser r.now = (browser, some (user, pending)) ∧
        r.limited = none ∧ (MailSettings.isEnabled accounts.settings && r.sent) = false ∧
        mayRepairMail accounts.db user = true ∧ issued = { userId := user.id } := by
  unfold resendEmailCode
  split
  · next none' =>
    refine iff_of_false (by simp [Response.issued]) ?_
    rintro ⟨user, pending, some', _⟩
    rw [none'] at some'
    simp at some'
  · next kept user pending is =>
    obtain rfl : kept = browser := (emailPendingUser_eq_some.mp is).1
    simp only [is, Prod.mk.injEq, true_and, Option.some.injEq]
    split
    · next seconds limited => simp [Response.issued, tooManyAttempts, limited]
    · next unlimited =>
      unfold startEmailVerification
      cases sends : MailSettings.isEnabled accounts.settings && r.sent with
      | true => simp [Response.issued]
      | false =>
          simp only [Bool.false_eq_true, if_false, Bool.not_eq_true']
          cases may : mayRepairMail accounts.db user with
          | false =>
              refine iff_of_false (by simp [Response.issued]) ?_
              rintro ⟨_, _, ⟨rfl, rfl⟩, _, _, repairs, _⟩
              rw [may] at repairs
              cases repairs
          | true =>
              constructor
              · intro issues
                exact ⟨user, pending, ⟨rfl, rfl⟩, unlimited, trivial, may,
                  (Option.some.inj issues).symm⟩
              · rintro ⟨_, _, ⟨rfl, rfl⟩, _, _, _, rfl⟩
                rfl

/-- The challenge issues upon one of the account's two kinds of code. -/
theorem twoFactorChallenge_issued {accounts : Accounts} {browser : Browser}
    {r : ChallengeRequest} {issued : Issued} :
    (twoFactorChallenge lib accounts browser r).2.2.issued = some issued ↔
      ∃ user pending, pendingUser accounts browser r.now = (browser, some (user, pending)) ∧
        Admitted r ∧ AnswersTotp lib accounts user r ∧
        issued =
          { userId := user.id
            factor := some (if TwoFactor.looksLikeRecoveryCode (trim r.code) then .recoveryCode
              else .totp) } := by
  simp only [admitted_iff]
  unfold twoFactorChallenge
  split
  · next none' =>
    refine iff_of_false (by simp [expired, Response.issued]) ?_
    rintro ⟨user, pending, some', _⟩
    rw [none'] at some'
    simp at some'
  · next kept user pending is =>
    obtain rfl : kept = browser := (pendingUser_eq_some.mp is).1
    simp only [is, Prod.mk.injEq, true_and, Option.some.injEq]
    split
    · next error errors is' => simp [Response.issued, is']
    · next filled =>
      split
      · next seconds limited => simp [Response.issued, tooManyAttempts, limited]
      · next unlimited =>
        have here : ∀ {factor : Factor}, (∃ user' pending', (user = user' ∧ pending = pending') ∧
            (required "code" r.code = [] ∧ r.limited = none) ∧ AnswersTotp lib accounts user' r ∧
              issued = { userId := user'.id, factor := some factor }) ↔
            AnswersTotp lib accounts user r ∧
              issued = { userId := user.id, factor := some factor } := by
          intro factor
          constructor
          · rintro ⟨_, _, ⟨rfl, rfl⟩, _, answers⟩
            exact answers
          · intro answers
            exact ⟨user, pending, ⟨rfl, rfl⟩, ⟨filled, unlimited⟩, answers⟩
        rw [here]
        rw [AnswersTotp, ← TwoFactor.consumeRecoveryCode_isOk r.now,
          ← TwoFactor.consumeTotp_isOk]
        cases looks : TwoFactor.looksLikeRecoveryCode (trim r.code) with
        | true =>
            cases TwoFactor.consumeRecoveryCode lib accounts.recoveryCodes user.id (trim r.code)
                r.now with
            | error message => simp [Response.issued]
            | ok left => simp [Response.issued, eq_comm]
        | false =>
            cases TwoFactor.consumeTotp lib (accounts.credentials user.id) (trim r.code)
                r.now with
            | error message => simp [Response.issued]
            | ok credentials => simp [Response.issued, eq_comm]

theorem asGuest_issued {s : State} {browser : Nat}
    {handler : Accounts → Browser → Accounts × Browser × Response} {issued : Issued} :
    (asGuest s browser handler).2.issued = some issued ↔
      s.user browser = none ∧
        (handler s.accounts (s.browser browser)).2.2.issued = some issued := by
  unfold asGuest
  split
  · next user signedIn =>
    rw [signedIn]
    refine iff_of_false ?_ fun both => nomatch both.1
    split <;> simp [Response.issued]
  · next guest => simp [guest]

/-- A gate that a second factor does not open. -/
theorem gated_of_account {accounts : Accounts} {user : User} {factor : Option Factor}
    (account : accounts.db.users.find? user.id = some user) (active : user.isActive = true) :
    Gated decrypt emailCounts accounts { userId := user.id, factor } ↔
      Open decrypt accounts user ∧
        ((accounts.credentials user.id).totpEnabled = true → counts emailCounts factor = true) := by
  constructor
  · rintro ⟨⟨found, account', _, gates⟩, secondFactor⟩
    rw [account] at account'
    obtain rfl := Option.some.inj account'
    exact ⟨gates, secondFactor⟩
  · rintro ⟨gates, secondFactor⟩
    exact ⟨⟨user, account, active, gates⟩, secondFactor⟩

/-- A request that issues to the accounts it admits keeps the gates when they all stand
behind them. -/
theorem keepsGates_iff_of_issued {s : State} {event : Event} (factor : Option Factor)
    (admits : User → Prop)
    (issued_iff : ∀ issued, (handle lib decrypt s event).2.issued = some issued ↔
      ∃ user, admits user ∧ issued = { userId := user.id, factor })
    (account : ∀ user, admits user →
      s.accounts.db.users.find? user.id = some user ∧ user.isActive = true) :
    KeepsGates lib decrypt emailCounts s event ↔ ∀ user, admits user →
      Open decrypt s.accounts user ∧
        ((s.accounts.credentials user.id).totpEnabled = true →
          counts emailCounts factor = true) := by
  constructor
  · intro keeps user admitted
    obtain ⟨found, active⟩ := account user admitted
    exact (gated_of_account found active).mp
      (keeps _ ((issued_iff _).mpr ⟨user, admitted, rfl⟩))
  · intro meets issued issues
    obtain ⟨user, admitted, rfl⟩ := (issued_iff issued).mp issues
    obtain ⟨found, active⟩ := account user admitted
    exact (gated_of_account found active).mpr (meets user admitted)

/-- Nothing counts as the second factor of a session issued upon a password alone. -/
theorem counts_none {enrolled : Bool} :
    (enrolled = true → counts emailCounts none = true) ↔ enrolled = false := by
  cases enrolled <;> simp [counts]

theorem login_keepsGates (s : State) (browser : Nat) (r : LoginRequest) :
    KeepsGates lib decrypt emailCounts s (.login browser r) := by
  intro issued issues
  obtain ⟨user, account, active, gates, unenrolled, rfl⟩ :=
    login_issued (asGuest_issued.mp issues).2
  rw [gated_of_account account active, counts_none]
  exact ⟨gates, unenrolled⟩

theorem emailChallenge_keepsGates_iff (s : State) (browser : Nat) (r : ChallengeRequest) :
    KeepsGates lib decrypt emailCounts s (.emailChallenge browser r) ↔
      Meets lib decrypt emailCounts s (.emailChallenge browser r) := by
  rw [keepsGates_iff_of_issued (some .emailedCode)
    (fun user => ∃ pending, AwaitsEmail s browser r.now user pending ∧
      Admitted r ∧ pending.codeHash ≠ "" ∧ lib.check (digitsOf r.code) pending.codeHash = true)]
  · constructor
    · intro meets user pending awaits admitted hashed right
      exact meets user ⟨pending, awaits, admitted, hashed, right⟩
    · rintro meets user ⟨pending, awaits, admitted, hashed, right⟩
      exact meets user pending awaits admitted hashed right
  · intro issued
    simp only [handle, asGuest_issued, emailChallenge_issued, awaitsEmail_iff]
    constructor
    · rintro ⟨guest, user, pending, is, admitted, hashed, right, rfl⟩
      exact ⟨user, ⟨pending, ⟨guest, is⟩, admitted, hashed, right⟩, rfl⟩
    · rintro ⟨user, ⟨pending, ⟨guest, is⟩, admitted, hashed, right⟩, rfl⟩
      exact ⟨guest, user, pending, is, admitted, hashed, right, rfl⟩
  · rintro user ⟨pending, awaits, _⟩
    exact ⟨find?_own awaits.account, awaits.active⟩

theorem resendEmailCode_keepsGates_iff (s : State) (browser : Nat) (r : ResendRequest) :
    KeepsGates lib decrypt emailCounts s (.resendEmailCode browser r) ↔
      Meets lib decrypt emailCounts s (.resendEmailCode browser r) := by
  rw [keepsGates_iff_of_issued none
    (fun user => ∃ pending, AwaitsEmail s browser r.now user pending ∧
      r.limited = none ∧ (MailSettings.isEnabled s.accounts.settings && r.sent) = false ∧
      mayRepairMail s.accounts.db user = true)]
  · simp only [counts_none]
    constructor
    · intro meets user pending awaits unlimited fails may
      exact meets user ⟨pending, awaits, unlimited, fails, may⟩
    · rintro meets user ⟨pending, awaits, unlimited, fails, may⟩
      exact meets user pending awaits unlimited fails may
  · intro issued
    simp only [handle, asGuest_issued, resendEmailCode_issued, awaitsEmail_iff]
    constructor
    · rintro ⟨guest, user, pending, is, unlimited, fails, may, rfl⟩
      exact ⟨user, ⟨pending, ⟨guest, is⟩, unlimited, fails, may⟩, rfl⟩
    · rintro ⟨user, ⟨pending, ⟨guest, is⟩, unlimited, fails, may⟩, rfl⟩
      exact ⟨guest, user, pending, is, unlimited, fails, may, rfl⟩
  · rintro user ⟨pending, awaits, _⟩
    exact ⟨find?_own awaits.account, awaits.active⟩

theorem twoFactorChallenge_keepsGates_iff (s : State) (browser : Nat) (r : ChallengeRequest) :
    KeepsGates lib decrypt emailCounts s (.twoFactorChallenge browser r) ↔
      Meets lib decrypt emailCounts s (.twoFactorChallenge browser r) := by
  rw [keepsGates_iff_of_issued
    (some (if TwoFactor.looksLikeRecoveryCode (trim r.code) then .recoveryCode
      else .totp))
    (fun user => ∃ pending, AwaitsTotp s browser r.now user pending ∧
      Admitted r ∧ AnswersTotp lib s.accounts user r)]
  · constructor
    · intro meets user pending awaits admitted answers
      exact (meets user ⟨pending, awaits, admitted, answers⟩).1
    · rintro meets user ⟨pending, awaits, admitted, answers⟩
      refine ⟨meets user pending awaits admitted answers, fun _ => ?_⟩
      split <;> rfl
  · intro issued
    simp only [handle, asGuest_issued, twoFactorChallenge_issued, awaitsTotp_iff]
    constructor
    · rintro ⟨guest, user, pending, is, admitted, answers, rfl⟩
      exact ⟨user, ⟨pending, ⟨guest, is⟩, admitted, answers⟩, rfl⟩
    · rintro ⟨user, ⟨pending, ⟨guest, is⟩, admitted, answers⟩, rfl⟩
      exact ⟨guest, user, pending, is, admitted, answers, rfl⟩
  · rintro user ⟨pending, awaits, _⟩
    exact ⟨find?_own awaits.account, awaits.active⟩

theorem clientLogin_keepsGates_iff (s : State) (r : ClientRequest) :
    KeepsGates lib decrypt emailCounts s (.clientLogin r) ↔
      Meets lib decrypt emailCounts s (.clientLogin r) := by
  rw [keepsGates_iff_of_issued none
    (fun user => clientUser lib s.accounts r = some user)]
  · simp only [counts_none]
    rfl
  · intro issued
    simp only [handle, clientLogin]
    split
    · next none' => simp [none', Response.issued]
    · next user found => simp [found, Response.issued, eq_comm]
  · exact fun user found => find?_of_clientUser found

/-- One request keeps the gates exactly when the account it issues to stands behind them. -/
theorem keepsGates_iff (s : State) (event : Event) :
    KeepsGates lib decrypt emailCounts s event ↔ Meets lib decrypt emailCounts s event := by
  cases event with
  | login browser r => exact iff_of_true (login_keepsGates s browser r) trivial
  | emailChallenge browser r => exact emailChallenge_keepsGates_iff s browser r
  | resendEmailCode browser r => exact resendEmailCode_keepsGates_iff s browser r
  | twoFactorChallenge browser r => exact twoFactorChallenge_keepsGates_iff s browser r
  | clientLogin r => exact clientLogin_keepsGates_iff s r
  | logout browser => exact iff_of_true (fun _ issues => nomatch issues) trivial
  | administer accounts => exact iff_of_true (fun _ issues => nomatch issues) trivial

/-- A run issues behind the gates throughout exactly when each of its requests finds the
account it issues to behind them. -/
theorem sign_in_gated_iff (lib : Primitives) (decrypt : Decrypt) (emailCounts : Bool) (s : State)
    (events : List Event) :
    Runs.Along (step lib decrypt) (KeepsGates lib decrypt emailCounts) s events ↔
      Runs.Along (step lib decrypt) (Meets lib decrypt emailCounts) s events :=
  Runs.Along.congr keepsGates_iff events s

/-- A console with one account, awaiting approval or not, and an authenticator enrolled. -/
def oneAccount (oidcStatus : Option String) : Accounts where
  db :=
    { users := Table.empty.insert fun id => { id, username := "ann", oidcStatus } }
  credentials _ := { password := "secret", totpSecret := some "314159", totpEnabled := true }

/-- The password, a linked identity put back to pending by the directory, the challenge. -/
def suspended : List Event :=
  [.login 0 { now := 1000, username := "ann", password := "secret" },
    .administer (oneAccount (some "pending")),
    .twoFactorChallenge 0 { now := 1060, code := "314159" }]

/-- The challenge signs in an account that is awaiting approval by then, and the client's form
one with an authenticator enrolled, without a code. -/
theorem challenge_and_client_ungated :
    ¬ Runs.Along (step .plain some) (KeepsGates .plain some true)
        { accounts := oneAccount none } suspended ∧
      ¬ Runs.Along (step .plain some) (KeepsGates .plain some true)
        { accounts := oneAccount none } [.clientLogin { username := "ann", password := "secret" }] := by
  constructor
  · rintro ⟨_, _, keeps, _⟩
    have gated := keeps { userId := 1, factor := some .totp } (by decide +kernel)
    obtain ⟨⟨user, account, _, _, approved, _⟩, _⟩ := gated
    have waiting : (Table.find? (oneAccount (some "pending")).db.users 1).all User.isSsoPending =
        true := by decide +kernel
    have found : Table.find? (oneAccount (some "pending")).db.users 1 = some user := account
    rw [found] at waiting
    rw [Option.all_some, approved] at waiting
    cases waiting
  · rintro ⟨keeps, _⟩
    have gated := keeps { userId := 1 } (by decide +kernel)
    exact nomatch gated.secondFactor rfl

end SignIn
end CortenDesk
