import CortenDesk.Database.Rows
import CortenDesk.Lib.Interleaving

/-!
The hand-off of a client's single sign-on: one pending authorization that the app polls and
that the browser completes, statement by statement. A request works on the copy of the row it
read; a save writes the columns that differ from that copy, and a save or a deletion of a row
that is gone changes nothing. What the provider and the resolver make of the redirect is an
input. The shared state records which polls were answered with a token, and which callbacks
put a failure on an authorized row.
-/
namespace CortenDesk
open Php

structure OidcAuthRequest where
  code : String
  state : String
  deviceId : Option String := none
  deviceUuid : Option String := none
  userId : Option Nat := none
  accessToken : Option String := none
  failure : Option String := none
  authorizedAt : Option Stamp := none
  expiresAt : Stamp
  deriving DecidableEq

namespace OidcAuthRequest

def ttlSeconds : Int := 300

def isExpired (row : OidcAuthRequest) (now : Instant) : Bool := row.expiresAt.instant < now

def isAuthorized (row : OidcAuthRequest) : Bool := row.authorizedAt.isSome && row.accessToken.isSome

/-- Whether the poll carries a value the flow was started with, where there is one. -/
def presents (expected given : Option String) : Bool :=
  expected.all fun value => value = "" || value = given.getD ""

def belongsToDevice (row : OidcAuthRequest) (id uuid : Option String) : Bool :=
  presents row.deviceId id && presents row.deviceUuid uuid

/-- A failure the poll reports. -/
def failed (row : OidcAuthRequest) : Bool := row.failure.any truthy

/-- A column of a save: the stored value, unless it was changed since it was loaded. -/
def column {α : Type} [DecidableEq α] (loaded changed row : α) : α :=
  if changed = loaded then row else changed

/-- `save()` of a model. -/
def save (loaded changed row : OidcAuthRequest) : OidcAuthRequest :=
  { row with
    userId := column loaded.userId changed.userId row.userId
    accessToken := column loaded.accessToken changed.accessToken row.accessToken
    failure := column loaded.failure changed.failure row.failure
    authorizedAt := column loaded.authorizedAt changed.authorizedAt row.authorizedAt }

end OidcAuthRequest

namespace HandOff

structure Poll where
  code : String
  id : Option String := none
  uuid : Option String := none
  deriving DecidableEq

/-- The redirect of the provider; `error` is the query parameter. -/
structure Callback where
  state : String
  error : Option String := none
  deriving DecidableEq

/-- What came of the code exchange and of the claims. -/
inductive Outcome
  | failed (message : String)
  | refused (message : String)
  | signedIn (userId : Nat)

inductive Request
  | authQuery (poll : Poll)
  | browserCallback (callback : Callback)
  deriving DecidableEq

/-- A poll that was answered with an access token. -/
structure Redemption where
  poll : Poll
  token : Option String
  deriving DecidableEq

structure Shared where
  row : Option OidcAuthRequest
  users : List Nat := []
  now : Instant
  clientTokens : List (Nat × String) := []
  redeemed : List Redemption := []
  overturned : List Nat := []

inductive Process
  | sent (request : Request)
  | reporting (copy : OidcAuthRequest)
  | authorized (poll : Poll) (copy : OidcAuthRequest)
  | unavailable
  | redeeming (poll : Poll) (copy : OidcAuthRequest)
  | exchanging (copy : OidcAuthRequest)
  | issuing (copy : OidcAuthRequest) (userId : Nat)
  | authorizing (copy : OidcAuthRequest) (userId : Nat) (token : String)
  | failing (copy : OidcAuthRequest) (message : String)
  | answered (error : String)
  | redeemed (token : Option String)
  | shown (ok : Bool) (message : String)
  deriving DecidableEq

/-- What a step takes from outside: the outcome of the exchange and the token it mints. -/
structure Input where
  outcome : Outcome := .failed ""
  token : String := ""

/-- The clock runs, an account is deleted (which empties the row's reference to it), and an
expired row may be pruned. -/
inductive Environment
  | clock (microseconds : Nat)
  | deleteUser (id : Nat)
  | createUser (id : Nat)
  | prune

/-- The client's "keep polling" sentinel. -/
def pending : String := "No authed oidc is found"

def unavailableMessage : String := "That account is no longer available."

def expiredMessage : String :=
  "This sign-in request has expired. Start again from the RustDesk client."

def rejected : String := "The identity provider rejected the sign-in."

/-- Where a poll goes after its read of the row. -/
def query (s : Shared) (poll : Poll) : Process :=
  match s.row.filter fun row => row.code = poll.code with
  | none => .answered pending
  | some row =>
      if row.isExpired s.now then .answered pending
      else if ! row.belongsToDevice poll.id poll.uuid then .answered pending
      else if row.failed then .reporting row
      else if ! row.isAuthorized then .answered pending
      else .authorized poll row

/-- Where a callback goes after its read of the row. -/
def receive (s : Shared) (callback : Callback) : Process :=
  match s.row.filter fun row => row.state = callback.state with
  | none => .shown false expiredMessage
  | some row =>
      if row.isExpired s.now then .shown false expiredMessage
      else if callback.error.any truthy then .failing row rejected
      else .exchanging row

/-- One statement of a request, with what it computes before the next one. -/
def act (pid : Nat) (s : Shared) (process : Process) (input : Input) : Shared × Process :=
  match process with
  | .sent (.authQuery poll) => (s, query s poll)
  | .reporting copy => ({ s with row := none }, .answered (copy.failure.getD ""))
  | .authorized poll copy =>
      (s, if copy.userId.any (· ∈ s.users) then .redeeming poll copy else .unavailable)
  | .unavailable => ({ s with row := none }, .answered unavailableMessage)
  | .redeeming poll copy =>
      ({ s with row := none, redeemed := { poll, token := copy.accessToken } :: s.redeemed },
        .redeemed copy.accessToken)
  | .sent (.browserCallback callback) => (s, receive s callback)
  | .exchanging copy =>
      (s, match input.outcome with
        | .failed message => .failing copy message
        | .refused message => .failing copy message
        | .signedIn userId => .issuing copy userId)
  | .issuing copy userId =>
      ({ s with clientTokens := (userId, input.token) :: s.clientTokens },
        .authorizing copy userId input.token)
  | .authorizing copy userId token =>
      ({ s with
          row := s.row.map (copy.save
            { copy with
              userId := some userId
              accessToken := some token
              authorizedAt := some s.now.stored }) },
        .shown true "You are signed in")
  | .failing copy message =>
      let failed := s.row.map (copy.save { copy with failure := some message })
      ({ s with
          row := failed
          overturned :=
            if s.row.any (fun row => row.isAuthorized && ! row.failed) &&
                failed.any OidcAuthRequest.failed then pid :: s.overturned
            else s.overturned },
        .shown false message)
  | .answered _ | .redeemed _ | .shown _ _ => (s, process)

def environment (s : Shared) : Environment → Shared
  | .clock microseconds => { s with now := s.now + microseconds }
  | .deleteUser id =>
      { s with
        users := s.users.filter (· ≠ id)
        row := s.row.map fun row =>
          if row.userId = some id then { row with userId := none } else row }
  | .createUser id => { s with users := id :: s.users }
  | .prune => { s with row := s.row.filter fun row => ! row.isExpired s.now }

def system : Interleaving.System Shared Process Input Environment := ⟨act, environment⟩

/-- A flow started by a device, and the polls and callbacks that will reach it. -/
def start (code state id uuid : String) (users : List Nat) (now : Instant)
    (requests : Nat → Request) : Interleaving.Config Shared Process where
  shared :=
    { row := some
        { code, state, deviceId := some id, deviceUuid := some uuid
          expiresAt := now.stored + OidcAuthRequest.ttlSeconds }
      users, now }
  process pid := .sent (requests pid)

/-- A poll that will be answered with a token unless its account is gone. -/
def Process.holds : Process → Bool
  | .authorized _ _ | .redeeming _ _ => true
  | _ => false

/-- At most one poll is answered with a token, and it carries the device's id and uuid; no
callback puts a failure on the row once another has authorized it. -/
structure OneShot (id uuid : String) (s : Shared) : Prop where
  once : s.redeemed.length ≤ 1
  device : ∀ r ∈ s.redeemed, r.poll.id = some id ∧ r.poll.uuid = some uuid
  kept : s.overturned = []

/-- A poll that finds a token to redeem finds no other poll between its read and its
deletion; and a callback that fails does not find the row authorized, unless it had a failure
already. -/
def Undisputed (c : Interleaving.Config Shared Process) :
    Interleaving.Event Input Environment → Prop
  | .act pid _ =>
      match c.process pid with
      | .sent (.authQuery poll) => (query c.shared poll).holds = true →
          ∀ q, (c.process q).holds = false
      | .failing _ _ => c.shared.row.all (fun row => ! (row.isAuthorized && ! row.failed)) = true
      | _ => True
  | .environment _ => True

end HandOff
end CortenDesk
