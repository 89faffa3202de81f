import CortenDesk.Auth.Challenge

/-!
Single use of the second factors. A recovery code is claimed by the conditional update, so
no order of the requests redeems a row twice. A time step is compared with the pointer of the
copy that the request loaded and the pointer is then written without a condition, so it is
accepted once, and later than those before it, in the runs whose writes find the enrolment
they were compared with and a pointer still below.
-/
namespace CortenDesk
open Php

namespace Credentials

/-- An enrolled account has a pointer and another has none. -/
def Seeded (credentials : Credentials) : Prop :=
  (credentials.totpEnabled = true → ∃ last, credentials.totpLastTimestep = some last) ∧
    (credentials.totpEnabled = false → credentials.totpLastTimestep = none)

/-- An accepted time step changes the pointer and nothing else. -/
theorem save_timestep {user : Credentials} {timestep : Int} (row : Credentials)
    (fresh : TwoFactor.replayed user.totpLastTimestep timestep = false) :
    user.save { user with totpLastTimestep := some timestep } row =
      { row with totpLastTimestep := some timestep } := by
  have changed : some timestep ≠ user.totpLastTimestep := by
    intro same
    rw [← same] at fresh
    simp [TwoFactor.replayed] at fresh
  simp [save, changed]

/-- A confirmation from a copy that was not enrolled enrols the row and seeds its pointer. -/
theorem save_enrolment {user : Credentials} (secret : String) (timestep : Int) (row : Credentials)
    (seeded : user.Seeded) (unenrolled : user.totpEnabled = false) :
    (user.save (user.enrol secret timestep) row).totpEnabled = true ∧
      (user.save (user.enrol secret timestep) row).totpLastTimestep = some timestep := by
  simp [save, enrol, unenrolled, seeded.2 unenrolled]

/-- Clearing from a copy takes the enrolment and the pointer away together, or neither. -/
theorem save_clearTwoFactor {user : Credentials} (row : Credentials) (seeded : user.Seeded) :
    ((user.save user.clearTwoFactor row).totpEnabled = false ∧
        (user.save user.clearTwoFactor row).totpLastTimestep = none) ∨
      ((user.save user.clearTwoFactor row).totpEnabled = row.totpEnabled ∧
        (user.save user.clearTwoFactor row).totpLastTimestep = row.totpLastTimestep) := by
  cases enrolled : user.totpEnabled with
  | true =>
      obtain ⟨last, is⟩ := seeded.1 enrolled
      simp [save, clearTwoFactor, enrolled, is]
  | false => simp [save, clearTwoFactor, enrolled, seeded.2 enrolled]

end Credentials

namespace Challenge
variable {lib : Primitives} {userId : Nat}

/-- The pointer of an enrolled account bounds what its enrolment accepted. -/
structure Recorded (s : Account) : Prop where
  seeded : s.credentials.Seeded
  known : ∀ a ∈ s.accepted, a.enrolment ≤ s.enrolment
  bounded : s.credentials.totpEnabled = true → ∀ last, s.credentials.totpLastTimestep = some last →
    ∀ a ∈ s.accepted, a.enrolment = s.enrolment → a.timestep ≤ last
  increasing : s.accepted.Pairwise fun later earlier =>
    later.enrolment = earlier.enrolment → earlier.timestep < later.timestep

/-- What a request remembers of the account. -/
def Remembers (_ : Nat) (_ : Account) : Process → Prop
  | .loaded _ user _ | .resetting user | .clearingCodes user | .clearing user
  | .checking _ user | .disabling _ user => user.Seeded
  | .verified timestep user _ => TwoFactor.replayed user.totpLastTimestep timestep = false
  | .confirming _ _ user | .enrolling _ _ user => user.Seeded ∧ user.totpEnabled = false
  | _ => True

theorem Recorded.of_credentials {s : Account} (recorded : Recorded s)
    {codes : Table RecoveryCode} {redeemed : List Redemption} :
    Recorded { s with codes, redeemed } :=
  ⟨recorded.seeded, recorded.known, recorded.bounded, recorded.increasing⟩

theorem load_remembers {s : Account} (recorded : Recorded s) (pid : Nat) (request : Request) :
    Remembers pid s (load s request) := by
  cases request with
  | resetTwoFactor => exact recorded.seeded
  | twoFactorChallenge | regenerateRecoveryCodes | disable =>
      simp only [load]
      split
      · exact recorded.seeded
      · trivial
  | confirmSetup =>
      simp only [load]
      split
      · trivial
      · next unenrolled => exact ⟨recorded.seeded, Bool.eq_false_iff.mpr unenrolled⟩

/-- A time step accepted above the pointer of the enrolment it was compared with. -/
theorem recorded_accept {s : Account} (recorded : Recorded s) {timestep : Int} {enrolment : Nat}
    (request : Option Nat) (current : s.enrolment = enrolment)
    (enrolled : s.credentials.totpEnabled = true)
    (fresh : TwoFactor.replayed s.credentials.totpLastTimestep timestep = false) :
    Recorded
      { s with
        credentials := { s.credentials with totpLastTimestep := some timestep }
        accepted := { enrolment, timestep, request } :: s.accepted } := by
  subst current
  obtain ⟨last, is⟩ := recorded.seeded.1 enrolled
  have above : last < timestep := by
    simpa [TwoFactor.replayed, is] using fresh
  have below : ∀ a ∈ s.accepted, a.enrolment = s.enrolment → a.timestep < timestep :=
    fun a ha same => Int.lt_of_le_of_lt (recorded.bounded enrolled last is a ha same) above
  constructor
  · exact ⟨fun _ => ⟨timestep, rfl⟩, fun none' => by rw [enrolled] at none'; cases none'⟩
  · intro a ha
    rcases List.mem_cons.mp ha with rfl | ha
    · exact Nat.le_refl _
    · exact recorded.known a ha
  · intro _ last' is' a ha same
    obtain rfl := Option.some.inj is'
    rcases List.mem_cons.mp ha with rfl | ha
    · exact Int.le_refl _
    · exact Int.le_of_lt (below a ha same)
  · exact List.pairwise_cons.mpr ⟨fun a ha same => below a ha same.symm, recorded.increasing⟩

/-- A confirmation begins an enrolment that nothing was accepted for. -/
theorem recorded_enrol {s : Account} (recorded : Recorded s) {timestep : Int}
    {credentials : Credentials} (enrolled : credentials.totpEnabled = true)
    (pointer : credentials.totpLastTimestep = some timestep) :
    Recorded
      { s with
        credentials, enrolment := s.enrolment + 1
        accepted := { enrolment := s.enrolment + 1, timestep, request := none } :: s.accepted } := by
  have older : ∀ a ∈ s.accepted, a.enrolment ≠ s.enrolment + 1 :=
    fun a ha same => by have := recorded.known a ha; omega
  constructor
  · exact ⟨fun _ => ⟨timestep, pointer⟩, fun none' => by rw [enrolled] at none'; cases none'⟩
  · intro a ha
    rcases List.mem_cons.mp ha with rfl | ha
    · exact Nat.le_refl _
    · exact Nat.le_succ_of_le (recorded.known a ha)
  · intro _ last is a ha same
    rcases List.mem_cons.mp ha with rfl | ha
    · rw [pointer] at is
      exact Int.le_of_eq (Option.some.inj is)
    · exact absurd same (older a ha)
  · exact List.pairwise_cons.mpr
      ⟨fun a ha same => absurd same.symm (older a ha), recorded.increasing⟩

/-- An account that is cleared, or whose enrolment is left as it was. -/
theorem recorded_clear {s : Account} (recorded : Recorded s) {credentials : Credentials}
    (cleared : (credentials.totpEnabled = false ∧ credentials.totpLastTimestep = none) ∨
      (credentials.totpEnabled = s.credentials.totpEnabled ∧
        credentials.totpLastTimestep = s.credentials.totpLastTimestep)) :
    Recorded { s with credentials } := by
  rcases cleared with ⟨disabled, none'⟩ | ⟨same, pointer⟩
  · refine ⟨⟨fun enrolled => ?_, fun _ => none'⟩, recorded.known, fun enrolled => ?_,
      recorded.increasing⟩
    all_goals
      rw [disabled] at enrolled
      cases enrolled
  · refine ⟨?_, recorded.known, ?_, recorded.increasing⟩
    · unfold Credentials.Seeded
      simp only [same, pointer]
      exact recorded.seeded
    · simp only [same, pointer]
      exact recorded.bounded

/-- A statement that meets the condition keeps the record, and leaves its request with a copy
of the account that fits. -/
theorem act_recorded {pid : Nat} {s : Account} {process : Process} {input : Input}
    (recorded : Recorded s) (remembers : Remembers pid s process)
    (fresh : Fresh pid s process input) :
    Recorded (act lib userId pid s process input).1 ∧
      Remembers pid (act lib userId pid s process input).1
        (act lib userId pid s process input).2 := by
  cases process with
  | sent request => exact ⟨recorded, load_remembers recorded pid request⟩
  | loaded code user enrolment =>
      simp only [act]
      split
      · exact ⟨recorded, trivial⟩
      · split
        · exact ⟨recorded, trivial⟩
        · split
          · exact ⟨recorded, trivial⟩
          · split
            · exact ⟨recorded, trivial⟩
            · next unused => exact ⟨recorded, Bool.eq_false_iff.mpr unused⟩
  | verified timestep user enrolment =>
      obtain ⟨current, enrolled, unused⟩ := fresh
      refine ⟨?_, trivial⟩
      simp only [act, Credentials.save_timestep _ remembers]
      exact recorded_accept recorded (some pid) current enrolled unused
  | selecting code =>
      simp only [act]
      split <;> exact ⟨recorded, trivial⟩
  | matched row =>
      simp only [act]
      split
      · exact ⟨recorded, trivial⟩
      · exact ⟨recorded.of_credentials, trivial⟩
  | counting => exact ⟨recorded, trivial⟩
  | confirming secret code user =>
      simp only [act]
      split
      · exact ⟨recorded, trivial⟩
      · exact ⟨recorded, remembers⟩
  | enrolling secret timestep user =>
      obtain ⟨enrolled, pointer⟩ :=
        Credentials.save_enrolment secret timestep s.credentials remembers.1 remembers.2
      exact ⟨recorded_enrol recorded enrolled pointer, trivial⟩
  | checking password user =>
      simp only [act]
      split <;> exact ⟨recorded, trivial⟩
  | issuing => exact ⟨recorded.of_credentials, trivial⟩
  | creating left =>
      cases left with
      | zero => exact ⟨recorded, trivial⟩
      | succ left => exact ⟨recorded.of_credentials, trivial⟩
  | disabling password user =>
      simp only [act]
      split
      · exact ⟨recorded, trivial⟩
      · split
        · exact ⟨recorded, remembers⟩
        · exact ⟨recorded, trivial⟩
  | resetting user =>
      simp only [act]
      split
      · exact ⟨recorded, trivial⟩
      · exact ⟨recorded, remembers⟩
  | clearingCodes user => exact ⟨recorded.of_credentials, remembers⟩
  | clearing user =>
      exact ⟨recorded_clear recorded (Credentials.save_clearTwoFactor _ remembers), trivial⟩
  | signedIn warning => exact ⟨recorded, trivial⟩
  | refused message => exact ⟨recorded, trivial⟩
  | returned => exact ⟨recorded, trivial⟩

theorem Recorded.singleUse {s : Account} (recorded : Recorded s) : SingleUse s.accepted where
  once := by
    refine List.pairwise_map.mpr (recorded.increasing.imp fun above same => ?_)
    obtain ⟨enrolment, timestep⟩ := Prod.mk.inj same
    exact absurd timestep (Int.ne_of_gt (above enrolment))
  increasing := recorded.increasing

/-- A redeemed row stays used for as long as it exists. -/
structure Redeemed (s : Account) : Prop where
  known : ∀ r ∈ s.redeemed, r.row < s.codes.nextId
  used : ∀ r ∈ s.redeemed, ∀ row ∈ s.codes.rows, row.id = r.row → row.usedAt.isSome = true
  once : RedeemedOnce s.redeemed

theorem Redeemed.of_same {s s' : Account} (redeemed : Redeemed s) (codes : s'.codes = s.codes)
    (same : s'.redeemed = s.redeemed) : Redeemed s' := by
  obtain ⟨known, used, once⟩ := redeemed
  constructor
  · rwa [codes, same]
  · rwa [codes, same]
  · rwa [same]

theorem redeemed_delete {s : Account} (redeemed : Redeemed s) (p : RecoveryCode → Bool) :
    Redeemed { s with codes := s.codes.delete p } where
  known := redeemed.known
  used r hr row hrow := redeemed.used r hr row (Table.mem_delete.mp hrow).1
  once := redeemed.once

theorem redeemed_insert {s : Account} (redeemed : Redeemed s) (codeHash : String) :
    Redeemed { s with codes := s.codes.insert fun id => { id, userId, codeHash } } where
  known r hr := Nat.lt_succ_of_lt (redeemed.known r hr)
  used r hr row hrow same := by
    rcases List.mem_append.mp hrow with old | new
    · exact redeemed.used r hr row old same
    · rw [List.mem_singleton.mp new] at same
      exact absurd same (Nat.ne_of_gt (redeemed.known r hr))
  once := redeemed.once

/-- The update claims a row that was unused, so nobody had redeemed it. -/
theorem redeemed_claim {s : Account} (redeemed : Redeemed s) {row : Nat} (request : Nat)
    (now : Stamp) (claims : TwoFactor.claimed s.codes userId row ≠ 0) :
    Redeemed
      { s with
        codes := TwoFactor.burn s.codes userId row now
        redeemed := { row, request } :: s.redeemed } := by
  obtain ⟨claimed, present, burns⟩ := List.countP_pos_iff.mp (Nat.pos_of_ne_zero claims)
  simp only [TwoFactor.burnable, Bool.and_eq_true, decide_eq_true_eq,
    Option.isNone_iff_eq_none] at burns
  obtain ⟨⟨own, rfl⟩, unused⟩ := burns
  have unclaimed : ∀ r ∈ s.redeemed, r.row ≠ claimed.id := by
    intro r hr same
    have used := redeemed.used r hr claimed present same.symm
    rw [unused] at used
    cases used
  constructor
  · intro r hr
    rcases List.mem_cons.mp hr with rfl | hr
    · exact s.codes.below claimed present
    · exact redeemed.known r hr
  · intro r hr row' hrow same
    obtain ⟨before, hbefore, rfl⟩ := List.mem_map.mp hrow
    by_cases burns : TwoFactor.burnable userId claimed.id before = true
    · rw [if_pos burns]
      rfl
    · rw [if_neg burns] at same ⊢
      rcases List.mem_cons.mp hr with rfl | hr
      · obtain rfl := s.codes.eq_of_id_eq hbefore present same
        simp [TwoFactor.burnable, own, unused] at burns
      · exact redeemed.used r hr before hbefore same
  · refine List.nodup_cons.mpr ⟨fun mem => ?_, redeemed.once⟩
    obtain ⟨r, hr, same⟩ := List.mem_map.mp mem
    exact unclaimed r hr same

theorem act_redeemed {pid : Nat} {s : Account} {process : Process} {input : Input}
    (redeemed : Redeemed s) : Redeemed (act lib userId pid s process input).1 := by
  cases process with
  | matched row =>
      simp only [act]
      split
      · exact redeemed
      · next claims => exact redeemed_claim redeemed pid input.now claims
  | issuing => exact redeemed_delete redeemed _
  | clearingCodes user => exact redeemed_delete redeemed _
  | creating left =>
      cases left with
      | zero => exact redeemed
      | succ left => exact redeemed_insert redeemed input.codeHash
  | verified | enrolling | clearing => exact redeemed.of_same rfl rfl
  | sent | counting | signedIn | refused | returned => exact redeemed
  | loaded | selecting | confirming | checking | disabling | resetting =>
      simp only [act]
      repeat' split
      all_goals exact redeemed

open Interleaving

theorem step_redeemed (c : Config Account Process) (event : Event Input String)
    (redeemed : Redeemed c.shared) : Redeemed (step (system lib userId) c event).shared := by
  cases event with
  | act pid input => exact act_redeemed redeemed
  | environment password => exact redeemed.of_same rfl rfl

theorem step_recorded (c : Config Account Process) (event : Event Input String)
    (holds : Holds Recorded Remembers c) (fresh : Guarded Fresh c event) :
    Holds Recorded Remembers (step (system lib userId) c event) := by
  refine holds_step ?_ ?_ ?_ ?_ c event holds fresh
  · exact fun pid s process input recorded remembers fresh => act_recorded recorded remembers fresh
  · exact fun _ _ _ _ _ _ _ _ _ remembers _ => remembers
  · exact fun s password recorded =>
      ⟨recorded.seeded, recorded.known, recorded.bounded, recorded.increasing⟩
  · exact fun _ _ _ _ _ remembers => remembers

theorem start_recorded (password : String) (requests : Nat → Request) :
    Holds Recorded Remembers (start password requests) := by
  refine ⟨⟨⟨?_, fun _ => rfl⟩, ?_, ?_, List.Pairwise.nil⟩, fun _ => trivial⟩
  · exact fun enrolled => Bool.noConfusion enrolled
  · exact fun a ha => nomatch ha
  · exact fun enrolled => Bool.noConfusion enrolled

theorem start_redeemed (password : String) (requests : Nat → Request) :
    Redeemed (start password requests).shared :=
  ⟨fun _ hr => (List.not_mem_nil hr).elim, fun _ hr => (List.not_mem_nil hr).elim,
    List.nodup_nil⟩

/-- Each recovery code row lets one request through, in every run. In every run whose pointer
writes are fresh, each time step is accepted once for an enrolment and the accepted ones
increase from the one that confirmed it. -/
theorem second_factors_single_use (lib : Primitives) (userId : Nat) (password : String)
    (requests : Nat → Request) (events : List (Event Input String)) :
    Runs.Always (step (system lib userId)) (fun c => RedeemedOnce c.shared.redeemed)
        (start password requests) events ∧
      (Runs.Along (step (system lib userId)) (Guarded Fresh) (start password requests) events →
        Runs.Always (step (system lib userId)) (fun c => SingleUse c.shared.accepted)
          (start password requests) events) := by
  constructor
  · exact Runs.Always.of_invariant (fun c event redeemed => step_redeemed c event redeemed)
      (fun c redeemed => redeemed.once) events _ (start_redeemed password requests)
  · exact Runs.Always.of_invariant_along step_recorded
      (fun c holds => holds.1.singleUse) events _ (start_recorded password requests)

/-- An enrolment and two requests with one code. -/
def enrolAndSignIn : Nat → Request
  | 0 => .confirmSetup "314159" "314159"
  | _ => .twoFactorChallenge "314159"

def enrolled : List (Event Input String) := [.act 0 {}, .act 0 {}, .act 0 {}]

/-- One request after the other. -/
def inTurn : List (Event Input String) :=
  enrolled ++ [.act 1 {}, .act 1 { now := 60 }, .act 1 {}, .act 2 {}, .act 2 { now := 90 }, .act 2 {}]

/-- Both load the account before either writes. -/
def together : List (Event Input String) :=
  enrolled ++ [.act 1 {}, .act 2 {}, .act 1 { now := 60 }, .act 2 { now := 60 }, .act 1 {}, .act 2 {}]

theorem second_factors_in_turn :
    Runs.Always (step (system .plain 1)) (fun c => SingleUse c.shared.accepted)
      (start "secret" enrolAndSignIn) inTurn :=
  (second_factors_single_use .plain 1 "secret" enrolAndSignIn inTurn).2 (by decide +kernel)

/-- One code lets both through at one time step. -/
theorem second_factors_together :
    ¬ Runs.Always (step (system .plain 1)) (fun c => SingleUse c.shared.accepted)
      (start "secret" enrolAndSignIn) together := by
  decide +kernel

end Challenge
end CortenDesk
