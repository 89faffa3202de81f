import CortenDesk.Lib.Runs
import CortenDesk.Sso.ConsoleSignIn

/-!
A session that single sign-on opens was asked for by its own browser: the callback echoed the state
of a redirect of that browser, the code went out with the verifier of that redirect, and the ID token
names its nonce. No redirect opens two sessions.
-/
namespace CortenDesk
open Php

namespace OidcController
open OidcService (Failure Answers JwtLibrary castText)
open Except (bind_eq_ok)

/-- A session that was opened: for which redirect, and what was sent and received. -/
structure SignIn where
  browser : Nat
  redirect : Option Nat
  query : List (Key × Json)
  verifier : String
  settings : Settings
  answers : Answers
  userId : Nat
  idToken : String

/-- A run with its redirects, the sessions that it opened, and the redirect whose values a browser
has in its session. -/
structure Ledger where
  state : State
  started : List (Nat × Draw) := []
  pending : Nat → Option Nat := fun _ => none
  signIns : List SignIn := []

variable (decrypt : Decrypt) (challenge : String → String) (callbackUrl : String)
  {json : Bytes → Json} (library : JwtLibrary json)

/-- The handler is reached: a guest asks, and single sign-on is on. -/
def reached (s : State) (browser : Nat) : Bool :=
  (s.sessions browser).userId.isNone && OidcService.isEnabled decrypt s.accounts

def signIn? (ledger : Ledger) (browser : Nat) (query : List (Key × Json))
    (answers : Except Failure Answers) : Option SignIn :=
  match (callback decrypt library ledger.state browser query answers).2, answers with
  | .signedIn userId idToken, .ok answers =>
      some {
        browser, query, answers, userId, idToken
        redirect := ledger.pending browser
        verifier := (ledger.state.sessions browser).verifier.getD ""
        settings := ledger.state.accounts.settings }
  | _, _ => none

def record (ledger : Ledger) (event : Event) : Ledger :=
  let state := (handle decrypt challenge callbackUrl library ledger.state event).1
  match event with
  | .redirect browser draw _ =>
      if reached decrypt ledger.state browser then
        { ledger with
          state, started := ledger.started ++ [(browser, draw)]
          pending := Function.update ledger.pending browser (some ledger.started.length) }
      else { ledger with state }
  | .callback browser query answers =>
      if reached decrypt ledger.state browser then
        { ledger with
          state, pending := Function.update ledger.pending browser none
          signIns := ledger.signIns ++ (signIn? decrypt library ledger browser query answers).toList }
      else { ledger with state }
  | .logout browser => { ledger with state, pending := Function.update ledger.pending browser none }
  | .change _ => { ledger with state }

/-- The session was opened for a redirect of its browser. -/
structure Answered (library : JwtLibrary json) (draw : Draw) (signIn : SignIn) : Prop where
  state : castText (Json.get signIn.query (.str "state") (.string "")) = .ok draw.state
  verifier : signIn.verifier = draw.verifier
  token : ∃ claims, OidcService.verifyIdToken library signIn.settings
      (OidcService.clientSecret decrypt signIn.settings) signIn.answers.discovery signIn.answers.jwks
      signIn.idToken (some draw.nonce) = .ok claims ∧
    (draw.nonce ≠ "" → (Json.get claims.entries (.str "nonce") (.string "")).toText = some draw.nonce)

section Callback
variable {decrypt challenge callbackUrl library}

theorem state_of_callbackCode {expectedState : Option String} {query : List (Key × Json)} {code : String}
    (ran : callbackCode expectedState query = .ok code) : ∃ state, expectedState = some state ∧
      castText (Json.get query (.str "state") (.string "")) = .ok state := by
  unfold callbackCode at ran
  simp only at ran
  split at ran
  · obtain ⟨_, _, ran⟩ := bind_eq_ok.mp ran
    cases ran
  · obtain ⟨_, _, ran⟩ := bind_eq_ok.mp ran
    obtain ⟨state, cast, ran⟩ := bind_eq_ok.mp ran
    split at ran
    · cases ran
    · split at ran
      · cases ran
      · next same =>
        simp only [Bool.or_eq_true, decide_eq_true_eq, not_or, not_not] at same
        exact ⟨state, same.2, cast⟩

variable {s : State} {browser : Nat} {query : List (Key × Json)} {answers : Except Failure Answers}

theorem guarded_of_not_reached (away : reached decrypt s browser = false) (handled : State × Response) :
    (guarded decrypt s browser handled).1 = s ∧
      ∀ userId idToken, (guarded decrypt s browser handled).2 ≠ .signedIn userId idToken := by
  unfold guarded
  cases guest : (s.sessions browser).userId with
  | some userId => exact ⟨rfl, nofun⟩
  | none =>
      have off : OidcService.isEnabled decrypt s.accounts = false := by simpa [reached, guest] using away
      rw [off]
      exact ⟨rfl, nofun⟩

theorem guarded_of_reached (here : reached decrypt s browser = true) (handled : State × Response) :
    guarded decrypt s browser handled = handled := by
  simp only [reached, Bool.and_eq_true, Option.isNone_iff_eq_none] at here
  simp only [guarded, here.1, here.2, Option.isSome_none, Bool.false_eq_true, if_false, Bool.not_true]

theorem sessions_refuse (s : State) (claims : Arr Key Json) (message : String) :
    (refuse s claims message).1.sessions = s.sessions ∧
      ∀ userId idToken, (refuse s claims message).2 ≠ .signedIn userId idToken := by
  unfold refuse
  split
  · exact ⟨rfl, nofun⟩
  · exact ⟨rfl, nofun⟩

/-- However the claims are received, the other sessions stay, and the values that were taken out of
this one do not come back. -/
theorem sessions_outcome (claims : Arr Key Json) (idToken : String) :
    (∀ other, other ≠ browser → (outcome s browser claims idToken).1.sessions other = s.sessions other) ∧
      ((outcome s browser claims idToken).1.sessions browser).state = (s.sessions browser).state := by
  unfold outcome
  simp only
  split
  · refine ⟨fun other away => ?_, ?_⟩
    · simp only [signIn, setSession, Function.update_of_ne away]
    · simp only [signIn, setSession, Function.update_self]
  · rw [(sessions_refuse _ _ _).1]
    exact ⟨fun _ _ => rfl, rfl⟩
  · rw [(sessions_refuse _ _ _).1]
    exact ⟨fun _ _ => rfl, rfl⟩
  · exact ⟨fun _ _ => rfl, rfl⟩

theorem idToken_of_outcome {claims : Arr Key Json} {idToken told : String} {userId : Nat}
    (opened : (outcome s browser claims idToken).2 = .signedIn userId told) : told = idToken := by
  unfold outcome at opened
  simp only at opened
  split at opened
  · cases opened
    rfl
  · exact absurd opened ((sessions_refuse _ _ _).2 userId told)
  · exact absurd opened ((sessions_refuse _ _ _).2 userId told)
  · cases opened

theorem sessions_callback (here : reached decrypt s browser = true) :
    (∀ other, other ≠ browser →
      (callback decrypt library s browser query answers).1.sessions other = s.sessions other) ∧
      ((callback decrypt library s browser query answers).1.sessions browser).state = none := by
  have others (other : Nat) (away : other ≠ browser) :
      (setSession s browser (pulled (s.sessions browser))).sessions other = s.sessions other :=
    Function.update_of_ne away ..
  have own : ((setSession s browser (pulled (s.sessions browser))).sessions browser).state = none := by
    simp only [setSession, Function.update_self, pulled]
  unfold callback
  simp only [guarded_of_reached here]
  split
  · exact ⟨others, own⟩
  · exact ⟨others, own⟩
  · next claims idToken _ =>
    obtain ⟨stay, state⟩ := @sessions_outcome (setSession s browser (pulled (s.sessions browser))) browser
      claims idToken
    exact ⟨fun other away => (stay other away).trans (others other away), state.trans own⟩

/-- A session opens on the exchange of its own values. -/
theorem exchange_of_signedIn {userId : Nat} {idToken : String}
    (opened : (callback decrypt library s browser query answers).2 = .signedIn userId idToken) :
    ∃ claims, exchange decrypt library s.accounts (s.sessions browser) query answers =
      .ok (claims, idToken) := by
  by_cases here : reached decrypt s browser = true
  · unfold callback at opened
    simp only [guarded_of_reached here] at opened
    split at opened
    · cases opened
    · cases opened
    · next claims told ran =>
      rw [idToken_of_outcome opened]
      exact ⟨claims, ran⟩
  · exact absurd opened ((guarded_of_not_reached (Bool.not_eq_true _ ▸ here) _).2 userId idToken)

/-- What the session of a browser holds of a redirect. -/
structure Carries (session : Session) (draw : Draw) : Prop where
  state : session.state = some draw.state
  nonce : session.nonce = some draw.nonce
  verifier : session.verifier = some draw.verifier

theorem answered_of_signIn {ledger : Ledger} {opened : SignIn} {draw : Draw}
    (carries : Carries (ledger.state.sessions browser) draw)
    (made : signIn? decrypt library ledger browser query answers = some opened) :
    opened.browser = browser ∧ opened.redirect = ledger.pending browser ∧
      Answered decrypt library draw opened := by
  unfold signIn? at made
  split at made
  · next userId idToken received answered =>
    obtain rfl := Option.some.inj made
    obtain ⟨claims, ran⟩ := exchange_of_signedIn answered
    obtain ⟨code, checked, ran⟩ := bind_eq_ok.mp ran
    obtain ⟨_, given, ran⟩ := bind_eq_ok.mp ran
    obtain rfl := Except.ok.inj given
    obtain ⟨state, expected, echoed⟩ := state_of_callbackCode checked
    obtain ⟨token, _, _, verified, _⟩ := OidcService.exchangeCode_eq_ok ran
    rw [carries.nonce] at verified
    obtain ⟨_, _, _, _, _, _, _, _, nonce, _⟩ := OidcService.verifyIdToken_eq_ok verified
    refine ⟨rfl, rfl, ⟨?_, ?_, token, verified, OidcService.nonce_of_checkNonce nonce⟩⟩
    · rw [carries.state] at expected
      rw [echoed, Option.some.inj expected]
    · simp only [carries.verifier, Option.getD_some]
  · cases made

/-- A session opens only for a redirect that its browser holds. -/
theorem state_of_signIn {ledger : Ledger} {opened : SignIn}
    (made : signIn? decrypt library ledger browser query answers = some opened) :
    (ledger.state.sessions browser).state ≠ none := by
  unfold signIn? at made
  split at made
  · next answered =>
    obtain ⟨claims, ran⟩ := exchange_of_signedIn answered
    obtain ⟨code, checked, -⟩ := bind_eq_ok.mp ran
    obtain ⟨state, expected, -⟩ := state_of_callbackCode checked
    rw [expected]
    exact Option.some_ne_none _
  · cases made

end Callback

/-- What is known of a run. -/
structure Bound (ledger : Ledger) : Prop where
  idle : ∀ browser, ledger.pending browser = none → (ledger.state.sessions browser).state = none
  held : ∀ browser redirect, ledger.pending browser = some redirect →
    some redirect ∉ ledger.signIns.map SignIn.redirect ∧ ∃ draw,
      ledger.started[redirect]? = some (browser, draw) ∧ Carries (ledger.state.sessions browser) draw
  once : (ledger.signIns.map SignIn.redirect).Nodup
  answered : ∀ opened ∈ ledger.signIns, ∃ redirect draw, opened.redirect = some redirect ∧
    ledger.started[redirect]? = some (opened.browser, draw) ∧ Answered decrypt library draw opened


variable {decrypt challenge callbackUrl library}

theorem kept_started {started : List (Nat × Draw)} {redirect : Nat} {entry : Nat × Draw}
    (there : started[redirect]? = some entry) (new : Nat × Draw) :
    (started ++ [new])[redirect]? = some entry := by
  obtain ⟨below, -⟩ := List.getElem?_eq_some_iff.mp there
  rw [List.getElem?_append_left below, there]

/-- A redirect that has not started is in no session that opened. -/
theorem Bound.unused {ledger : Ledger} (bound : Bound decrypt library ledger) :
    some ledger.started.length ∉ ledger.signIns.map SignIn.redirect := by
  intro listed
  obtain ⟨opened, mem, same⟩ := List.mem_map.mp listed
  obtain ⟨redirect, draw, own, there, -⟩ := bound.answered opened mem
  obtain rfl := Option.some.inj (same.symm.trans own)
  simp at there

theorem Bound.redirect {ledger : Ledger} (bound : Bound decrypt library ledger) (browser : Nat)
    (draw : Draw) (discovery : Except Failure (List (Key × Json))) :
    Bound decrypt library
      (record decrypt challenge callbackUrl library ledger (.redirect browser draw discovery)) := by
  by_cases here : reached decrypt ledger.state browser = true
  · have state : (handle decrypt challenge callbackUrl library ledger.state
        (.redirect browser draw discovery)).1 = setSession ledger.state browser
          { ledger.state.sessions browser with
            state := some draw.state, nonce := some draw.nonce, verifier := some draw.verifier } := by
      simp only [handle, CortenDesk.OidcController.redirect, guarded_of_reached here]
    rw [CortenDesk.OidcController.record, if_pos here, state]
    refine ⟨fun other idle => ?_, fun other redirect held => ?_, bound.once, fun opened mem => ?_⟩
    · by_cases same : other = browser
      · subst same
        simp only [Function.update_self] at idle
        cases idle
      · simp only [Function.update_of_ne same] at idle
        simp only [setSession, Function.update_of_ne same]
        exact bound.idle other idle
    · by_cases same : other = browser
      · subst same
        simp only [Function.update_self, Option.some.injEq] at held
        subst held
        refine ⟨bound.unused, draw, by simp, ?_⟩
        simp only [setSession, Function.update_self]
        exact ⟨rfl, rfl, rfl⟩
      · simp only [Function.update_of_ne same] at held
        obtain ⟨unused, before, there, carries⟩ := bound.held other redirect held
        refine ⟨unused, before, kept_started there _, ?_⟩
        simp only [setSession, Function.update_of_ne same]
        exact carries
    · obtain ⟨redirect, before, own, there, answered⟩ := bound.answered opened mem
      exact ⟨redirect, before, own, kept_started there _, answered⟩
  · have state : (handle decrypt challenge callbackUrl library ledger.state
        (.redirect browser draw discovery)).1 = ledger.state :=
      (guarded_of_not_reached (Bool.not_eq_true _ ▸ here) _).1
    rw [CortenDesk.OidcController.record, if_neg here, state]
    exact bound

theorem Bound.callback {ledger : Ledger} (bound : Bound decrypt library ledger) (browser : Nat)
    (query : List (Key × Json)) (answers : Except Failure Answers) :
    Bound decrypt library
      (record decrypt challenge callbackUrl library ledger (.callback browser query answers)) := by
  by_cases here : reached decrypt ledger.state browser = true
  · obtain ⟨others, own⟩ := @sessions_callback decrypt json library ledger.state browser query answers here
    rw [CortenDesk.OidcController.record, if_pos here]
    -- the redirect that the session held is the one of the session that opens
    have opens : ∀ opened, signIn? decrypt library ledger browser query answers = some opened →
        ∃ redirect draw, ledger.pending browser = some redirect ∧ opened.browser = browser ∧
          opened.redirect = some redirect ∧ some redirect ∉ ledger.signIns.map SignIn.redirect ∧
          ledger.started[redirect]? = some (browser, draw) ∧ Answered decrypt library draw opened := by
      intro opened made
      cases pending : ledger.pending browser with
      | none => exact absurd (bound.idle browser pending) (state_of_signIn made)
      | some redirect =>
          obtain ⟨unused, draw, there, carries⟩ := bound.held browser redirect pending
          obtain ⟨of, own, answered⟩ := answered_of_signIn carries made
          exact ⟨redirect, draw, rfl, of, own.trans pending, unused, there, answered⟩
    refine ⟨fun other idle => ?_, fun other redirect held => ?_, ?_, fun opened mem => ?_⟩
    · by_cases same : other = browser
      · exact same ▸ own
      · simp only [Function.update_of_ne same] at idle
        rw [← bound.idle other idle]
        exact congrArg Session.state (others other same)
    · by_cases same : other = browser
      · subst same
        simp only [Function.update_self] at held
        cases held
      · simp only [Function.update_of_ne same] at held
        obtain ⟨unused, before, there, carries⟩ := bound.held other redirect held
        refine ⟨fun listed => ?_, before, there, (others other same).symm ▸ carries⟩
        rw [List.map_append, List.mem_append] at listed
        rcases listed with old | new
        · exact unused old
        · obtain ⟨opened, made, named⟩ := List.mem_map.mp new
          obtain ⟨redirect', draw, -, -, own, -, there', -⟩ := opens opened (Option.mem_toList.mp made)
          obtain rfl := Option.some.inj (named.symm.trans own)
          rw [there] at there'
          exact same (Prod.mk.inj (Option.some.inj there')).1
    · cases made : signIn? decrypt library ledger browser query answers with
      | none => simpa [made] using bound.once
      | some opened =>
          obtain ⟨redirect, draw, -, -, own, unused, -⟩ := opens opened made
          simp only [Option.toList_some, List.map_append, List.map_singleton]
          refine List.nodup_append.mpr ⟨bound.once, List.nodup_singleton _, ?_⟩
          intro a listed b single same
          rw [List.mem_singleton.mp single, own] at same
          exact unused (same ▸ listed)
    · rcases List.mem_append.mp mem with old | new
      · exact bound.answered opened old
      · obtain ⟨redirect, draw, -, of, own, -, there, answered⟩ := opens opened (Option.mem_toList.mp new)
        exact ⟨redirect, draw, own, of.symm ▸ there, answered⟩
  · have state : (handle decrypt challenge callbackUrl library ledger.state
        (.callback browser query answers)).1 = ledger.state :=
      (guarded_of_not_reached (Bool.not_eq_true _ ▸ here) _).1
    rw [CortenDesk.OidcController.record, if_neg here, state]
    exact bound

theorem Bound.logout {ledger : Ledger} (bound : Bound decrypt library ledger) (browser : Nat) :
    Bound decrypt library (record decrypt challenge callbackUrl library ledger (.logout browser)) := by
  refine ⟨fun other idle => ?_, fun other redirect held => ?_, bound.once, bound.answered⟩
  · by_cases same : other = browser
    · subst same
      simp only [CortenDesk.OidcController.record, handle, setSession, Function.update_self]
    · simp only [CortenDesk.OidcController.record, Function.update_of_ne same] at idle
      simp only [CortenDesk.OidcController.record, handle, setSession, Function.update_of_ne same]
      exact bound.idle other idle
  · by_cases same : other = browser
    · subst same
      simp only [CortenDesk.OidcController.record, Function.update_self] at held
      cases held
    · simp only [CortenDesk.OidcController.record, Function.update_of_ne same] at held
      obtain ⟨unused, before, there, carries⟩ := bound.held other redirect held
      refine ⟨unused, before, there, ?_⟩
      simp only [CortenDesk.OidcController.record, handle, setSession, Function.update_of_ne same]
      exact carries

theorem Bound.record {ledger : Ledger} (bound : Bound decrypt library ledger) (event : Event) :
    Bound decrypt library (record decrypt challenge callbackUrl library ledger event) := by
  cases event with
  | redirect browser draw discovery => exact bound.redirect browser draw discovery
  | callback browser query answers => exact bound.callback browser query answers
  | logout browser => exact bound.logout browser
  | change accounts => exact ⟨bound.idle, bound.held, bound.once, bound.answered⟩

/-- Whatever any number of browsers and the provider send, in any order, each session that opens was
asked for by a redirect of its own browser, whose state the callback echoed, whose verifier went out
with the code and whose nonce the verified token carries; and no redirect opens two sessions. -/
theorem sso_sessions_bound (decrypt : Decrypt) (challenge : String → String) (callbackUrl : String)
    (library : JwtLibrary json) (accounts : Accounts) (events : List Event) :
    let ledger := Runs.run (CortenDesk.OidcController.record decrypt challenge callbackUrl library)
      { state := { accounts } } events
    (∀ opened ∈ ledger.signIns, ∃ redirect draw, opened.redirect = some redirect ∧
      ledger.started[redirect]? = some (opened.browser, draw) ∧ Answered decrypt library draw opened) ∧
      (ledger.signIns.map SignIn.redirect).Nodup := by
  have start : Bound decrypt library { state := { accounts } } := {
    idle := fun _ _ => rfl
    held := fun _ _ none => nomatch none
    once := .nil
    answered := fun _ none => absurd none List.not_mem_nil }
  have bound : Bound decrypt library
      (Runs.run (CortenDesk.OidcController.record decrypt challenge callbackUrl library)
        { state := { accounts } } events) :=
    Runs.invariant (fun _ event before => before.record event) _ events start
  exact ⟨bound.answered, bound.once⟩

end OidcController
end CortenDesk
