import CortenDesk.Sso.HandOff

/-!
Redemption of a client's single sign-on. That a token goes to the device that started the
flow holds in every run. That it goes out once, and that a failure does not displace it,
depends on what lies between a read of the row and the write that follows it.
-/
namespace CortenDesk
open Php

namespace HandOff
open OidcAuthRequest Interleaving

theorem presents_eq_true {value : String} {given : Option String} (filled : value ≠ "")
    (presented : presents (some value) given = true) : given = some value := by
  simp only [presents, Option.all_some, filled, decide_false, Bool.false_or,
    decide_eq_true_eq] at presented
  cases given with
  | none => exact absurd presented filled
  | some text =>
      rw [presented]
      rfl

/-- The device of a flow never changes, and a poll that holds a token presented it. -/
structure Bound (id uuid : String) (s : Shared) : Prop where
  row : ∀ row, s.row = some row → row.deviceId = some id ∧ row.deviceUuid = some uuid
  redeemed : ∀ r ∈ s.redeemed, r.poll.id = some id ∧ r.poll.uuid = some uuid

def Carries (id uuid : String) (_ : Nat) (_ : Shared) : Process → Prop
  | .authorized poll _ | .redeeming poll _ => poll.id = some id ∧ poll.uuid = some uuid
  | _ => True

variable {id uuid : String}

theorem Bound.of_map {s s' : Shared} (bound : Bound id uuid s) {f : OidcAuthRequest → OidcAuthRequest}
    (row : s'.row = s.row.map f)
    (kept : ∀ r, (f r).deviceId = r.deviceId ∧ (f r).deviceUuid = r.deviceUuid)
    (redeemed : s'.redeemed = s.redeemed) : Bound id uuid s' := by
  refine ⟨fun r is => ?_, fun r hr => bound.redeemed r (redeemed ▸ hr)⟩
  rw [row] at is
  obtain ⟨before, was, rfl⟩ := Option.map_eq_some_iff.mp is
  rw [(kept before).1, (kept before).2]
  exact bound.row before was

theorem Bound.of_gone {s s' : Shared} (bound : Bound id uuid s) (row : s'.row = none)
    (redeemed : s'.redeemed = s.redeemed) : Bound id uuid s' where
  row r is := by
    rw [row] at is
    cases is
  redeemed r hr := bound.redeemed r (redeemed ▸ hr)

theorem query_carries {s : Shared} (bound : Bound id uuid s) (filledId : id ≠ "")
    (filledUuid : uuid ≠ "") (pid : Nat) (poll : Poll) :
    Carries id uuid pid s (query s poll) := by
  unfold query
  split
  · trivial
  · next row found =>
    split
    · trivial
    · split
      · trivial
      · next own =>
        split
        · trivial
        · split
          · trivial
          · obtain ⟨deviceId, deviceUuid⟩ := bound.row row (Option.filter_eq_some_iff.mp found).1
            simp only [belongsToDevice, deviceId, deviceUuid, Bool.not_eq_true', Bool.not_eq_false,
              Bool.and_eq_true] at own
            exact ⟨presents_eq_true filledId own.1, presents_eq_true filledUuid own.2⟩

theorem receive_carries (s : Shared) (pid : Nat) (callback : Callback) :
    Carries id uuid pid s (receive s callback) := by
  unfold receive
  repeat' split
  all_goals trivial

theorem act_bound {pid : Nat} {s : Shared} {process : Process}
    (filledId : id ≠ "") (filledUuid : uuid ≠ "") (input : Input) (bound : Bound id uuid s)
    (carries : Carries id uuid pid s process) :
    Bound id uuid (act pid s process input).1 ∧
      Carries id uuid pid (act pid s process input).1 (act pid s process input).2 := by
  cases process with
  | sent request =>
      cases request with
      | authQuery poll => exact ⟨bound, query_carries bound filledId filledUuid pid poll⟩
      | browserCallback callback => exact ⟨bound, receive_carries s pid callback⟩
  | reporting copy => exact ⟨bound.of_gone rfl rfl, trivial⟩
  | authorized poll copy =>
      refine ⟨bound, ?_⟩
      simp only [act]
      split
      · exact carries
      · trivial
  | unavailable => exact ⟨bound.of_gone rfl rfl, trivial⟩
  | redeeming poll copy =>
      refine ⟨⟨fun row is => absurd is.symm (Option.some_ne_none row), fun r hr => ?_⟩, trivial⟩
      rcases List.mem_cons.mp hr with rfl | old
      · exact carries
      · exact bound.redeemed r old
  | exchanging copy =>
      refine ⟨bound, ?_⟩
      simp only [act]
      split <;> trivial
  | issuing copy userId => exact ⟨⟨bound.row, bound.redeemed⟩, trivial⟩
  | authorizing copy userId token => exact ⟨bound.of_map rfl (fun _ => ⟨rfl, rfl⟩) rfl, trivial⟩
  | failing copy message => exact ⟨bound.of_map rfl (fun _ => ⟨rfl, rfl⟩) rfl, trivial⟩
  | answered | redeemed | shown => exact ⟨bound, trivial⟩

theorem environment_bound {s : Shared} (bound : Bound id uuid s) (change : Environment) :
    Bound id uuid (environment s change) := by
  cases change with
  | clock | createUser => exact ⟨bound.row, bound.redeemed⟩
  | deleteUser userId =>
      refine bound.of_map rfl (fun row => ?_) rfl
      split <;> exact ⟨rfl, rfl⟩
  | prune =>
      exact ⟨fun row is => bound.row row (Option.filter_eq_some_iff.mp is).1, bound.redeemed⟩

theorem step_bound (filledId : id ≠ "") (filledUuid : uuid ≠ "") (c : Config Shared Process)
    (event : Event Input Environment) (holds : Holds (Bound id uuid) (Carries id uuid) c) :
    Holds (Bound id uuid) (Carries id uuid) (step system c event) := by
  cases event with
  | act pid input =>
      have after := act_bound filledId filledUuid input holds.1 (holds.2 pid)
      exact holds_act holds after.1 after.2 fun _ _ carries => carries
  | environment change => exact ⟨environment_bound holds.1 change, holds.2⟩

/-- At most one poll holds a token, and none once a token went out, when the row is gone. -/
structure Single (c : Config Shared Process) : Prop where
  unique : ∀ p q, (c.process p).holds = true → (c.process q).holds = true → p = q
  spent : c.shared.redeemed ≠ [] → c.shared.row = none ∧ ∀ p, (c.process p).holds = false
  once : c.shared.redeemed.length ≤ 1
  kept : c.shared.overturned = []

/-- A statement that answers no poll with a token and gives none to hold. -/
theorem Single.of_quiet {c : Config Shared Process} (single : Single c) {pid : Nat} {s : Shared}
    {process : Process} (redeemed : s.redeemed = c.shared.redeemed)
    (overturned : s.overturned = c.shared.overturned)
    (gone : c.shared.row = none → s.row = none)
    (fewer : process.holds = true → (c.process pid).holds = true) :
    Single { shared := s, process := Function.update c.process pid process } := by
  have before : ∀ p, (Function.update c.process pid process p).holds = true →
      (c.process p).holds = true := by
    intro p held
    by_cases own : p = pid
    · subst own
      rw [Function.update_self] at held
      exact fewer held
    · rwa [Function.update_of_ne own] at held
  constructor
  · exact fun p q hp hq => single.unique p q (before p hp) (before q hq)
  · intro some'
    rw [redeemed] at some'
    obtain ⟨none', free⟩ := single.spent some'
    refine ⟨gone none', fun p => Bool.eq_false_iff.mpr fun held => ?_⟩
    have := before p held
    rw [free p] at this
    cases this
  · rw [redeemed]
    exact single.once
  · rw [overturned]
    exact single.kept

/-- A poll that reads a token to redeem, while no other holds one. -/
theorem Single.of_read {c : Config Shared Process} (single : Single c) {pid : Nat}
    {process : Process} (free : ∀ q, (c.process q).holds = false) (present : c.shared.row ≠ none) :
    Single { c with process := Function.update c.process pid process } := by
  have own : ∀ p, (Function.update c.process pid process p).holds = true → p = pid := by
    intro p held
    by_contra other
    rw [Function.update_of_ne other, free p] at held
    cases held
  have none' : c.shared.redeemed = [] := by
    by_contra some'
    exact present (single.spent some').1
  exact ⟨fun p q hp hq => (own p hp).trans (own q hq).symm, fun some' => absurd none' some',
    single.once, single.kept⟩

/-- The poll that holds the token answers with it and deletes the row. -/
theorem Single.of_redeem {c : Config Shared Process} (single : Single c) {pid : Nat} {poll : Poll}
    {copy : OidcAuthRequest} (holding : c.process pid = .redeeming poll copy) (r : Redemption)
    (token : Option String) :
    Single
      { shared := { c.shared with row := none, redeemed := r :: c.shared.redeemed }
        process := Function.update c.process pid (.redeemed token) } := by
  have held : (c.process pid).holds = true := by
    rw [holding]
    rfl
  have first : c.shared.redeemed = [] := by
    by_contra some'
    rw [(single.spent some').2 pid] at held
    cases held
  have free : ∀ p, (Function.update c.process pid (.redeemed token) p).holds = false := by
    intro p
    by_cases own : p = pid
    · subst own
      rw [Function.update_self]
      rfl
    · rw [Function.update_of_ne own, Bool.eq_false_iff]
      exact fun other => own (single.unique p pid other held)
  refine ⟨fun p q hp => ?_, fun _ => ⟨rfl, free⟩, ?_, single.kept⟩
  · rw [free p] at hp
    cases hp
  · rw [first]
    exact Nat.le_refl 1

theorem row_of_holds {s : Shared} {poll : Poll} (reads : (query s poll).holds = true) :
    s.row ≠ none := by
  intro none'
  rw [query, none'] at reads
  cases reads

theorem overturned_of_undisputed {s : Shared} {failed : Option OidcAuthRequest} {pid : Nat}
    (undisputed : s.row.all (fun row => ! (row.isAuthorized && ! row.failed)) = true) :
    (if s.row.any (fun row => row.isAuthorized && ! row.failed) &&
        failed.any OidcAuthRequest.failed then pid :: s.overturned else s.overturned) =
      s.overturned := by
  cases row : s.row with
  | none => rfl
  | some row' =>
      rw [row, Option.all_some, Bool.not_eq_true'] at undisputed
      rw [Option.any_some, undisputed]
      rfl

theorem step_single (c : Config Shared Process) (event : Event Input Environment)
    (single : Single c) (undisputed : Undisputed c event) : Single (step system c event) := by
  cases event with
  | act pid input =>
      unfold step
      simp only [system]
      simp only [Undisputed] at undisputed
      generalize is : c.process pid = process at undisputed ⊢
      cases process with
      | sent request =>
          cases request with
          | authQuery poll =>
              simp only [act]
              cases reads : (query c.shared poll).holds with
              | true => exact single.of_read (undisputed reads) (row_of_holds reads)
              | false =>
                  exact single.of_quiet rfl rfl id fun held => by rw [reads] at held; cases held
          | browserCallback callback =>
              refine single.of_quiet rfl rfl id fun held => ?_
              simp only [act, receive] at held
              split at held
              · cases held
              · split at held
                · cases held
                · split at held <;> cases held
      | reporting copy => exact single.of_quiet rfl rfl (fun _ => rfl) (nomatch ·)
      | authorized poll copy =>
          refine single.of_quiet rfl rfl id fun _ => ?_
          rw [is]
          rfl
      | unavailable => exact single.of_quiet rfl rfl (fun _ => rfl) (nomatch ·)
      | redeeming poll copy => exact single.of_redeem is _ _
      | exchanging copy =>
          refine single.of_quiet rfl rfl id fun held => ?_
          simp only [act] at held
          split at held <;> cases held
      | issuing copy userId => exact single.of_quiet rfl rfl id (nomatch ·)
      | authorizing copy userId token =>
          exact single.of_quiet rfl rfl (fun gone => by simp only [act, gone, Option.map_none])
            (nomatch ·)
      | failing copy message =>
          exact single.of_quiet rfl (overturned_of_undisputed undisputed)
            (fun gone => by simp only [act, gone, Option.map_none]) (nomatch ·)
      | answered | redeemed | shown => exact single.of_quiet rfl rfl id (nomatch ·)
  | environment change =>
      refine ⟨single.unique, fun some' => ?_, ?_, ?_⟩
      · have some : c.shared.redeemed ≠ [] := by cases change <;> exact some'
        obtain ⟨gone, free⟩ := single.spent some
        refine ⟨?_, free⟩
        cases change <;> simp [step, system, environment, gone]
      · cases change <;> exact single.once
      · cases change <;> exact single.kept

theorem start_bound (code state id uuid : String) (users : List Nat) (now : Instant)
    (requests : Nat → Request) :
    Holds (Bound id uuid) (Carries id uuid) (start code state id uuid users now requests) := by
  refine ⟨⟨fun row is => ?_, fun r hr => (List.not_mem_nil hr).elim⟩, fun _ => trivial⟩
  obtain rfl := Option.some.inj is
  exact ⟨rfl, rfl⟩

theorem start_single (code state id uuid : String) (users : List Nat) (now : Instant)
    (requests : Nat → Request) : Single (start code state id uuid users now requests) where
  unique _ _ held := nomatch held
  spent some' := absurd rfl some'
  once := Nat.zero_le 1
  kept := rfl

/-- A token goes to polls of the device that started the flow, in every run. In every
undisputed run one poll at most is answered with a token, and no failure displaces it. -/
theorem client_hand_off (code state id uuid : String) (filledId : id ≠ "") (filledUuid : uuid ≠ "")
    (users : List Nat) (now : Instant) (requests : Nat → Request)
    (events : List (Event Input Environment)) :
    Runs.Always (step system)
        (fun c => ∀ r ∈ c.shared.redeemed, r.poll.id = some id ∧ r.poll.uuid = some uuid)
        (start code state id uuid users now requests) events ∧
      (Runs.Along (step system) Undisputed (start code state id uuid users now requests) events →
        Runs.Always (step system) (fun c => OneShot id uuid c.shared)
          (start code state id uuid users now requests) events) := by
  have bound := start_bound code state id uuid users now requests
  constructor
  · exact Runs.Always.of_invariant (step_bound filledId filledUuid)
      (fun c holds => holds.1.redeemed) events _ bound
  · intro undisputed
    exact Runs.Always.of_invariant_along
      (I := fun c => Holds (Bound id uuid) (Carries id uuid) c ∧ Single c)
      (fun c event holds step =>
        ⟨step_bound filledId filledUuid c event holds.1, step_single c event holds.2 step⟩)
      (fun c holds => ⟨holds.2.once, holds.1.1.redeemed, holds.2.kept⟩) events _
      ⟨bound, start_single code state id uuid users now requests⟩ undisputed

/-- The browser's redirect, its replay with an error, and polls of the device. -/
def redirectAndPolls : Nat → Request
  | 0 => .browserCallback { state := "s" }
  | 1 => .browserCallback { state := "s", error := some "access_denied" }
  | _ => .authQuery { code := "c", id := some "100200300", uuid := some "u" }

def flow : Config Shared Process := start "c" "s" "100200300" "u" [7] 0 redirectAndPolls

/-- The callback authorizes the request. -/
def authorizes : List (Event Input Environment) :=
  [.act 0 {}, .act 0 { outcome := .signedIn 7 }, .act 0 { token := "t" }, .act 0 {}]

theorem client_hand_off_once :
    Runs.Always (step system) (fun c => OneShot "100200300" "u" c.shared) flow
      (authorizes ++ [.act 2 {}, .act 2 {}, .act 2 {}]) := by
  refine (client_hand_off "c" "s" "100200300" "u" (by decide) (by decide) [7] 0 redirectAndPolls
    _).2 ⟨trivial, trivial, trivial, trivial, ?_, trivial, trivial, trivial⟩
  refine fun _ q => ?_
  by_cases own : q = 0
  · subst own
    rfl
  · simp only [step, Function.update_of_ne own]
    rfl

/-- Two polls that both read before either deletes are both answered with the token; and a
replay of the redirect with an error turns the authorized request into a failure. -/
theorem client_hand_off_disputed :
    ¬ Runs.Always (step system) (fun c => OneShot "100200300" "u" c.shared) flow
        (authorizes ++ [.act 2 {}, .act 3 {}, .act 2 {}, .act 3 {}, .act 2 {}, .act 3 {}]) ∧
      ¬ Runs.Always (step system) (fun c => OneShot "100200300" "u" c.shared) flow
        (authorizes ++ [.act 1 {}, .act 1 {}]) := by
  constructor
  · intro always
    have once := (Runs.Always.last _ _ always).once
    exact absurd once (by decide +kernel)
  · intro always
    have kept := (Runs.Always.last _ _ always).kept
    exact absurd kept (by decide +kernel)

end HandOff
end CortenDesk
