import CortenDesk.Lib.Fallible
import CortenDesk.Lib.PhpBase64
import CortenDesk.Lib.PhpJson
import CortenDesk.Sso.Resolver

/-!
The verification of an ID token. The JWT library is a parameter, with what it promises of a
token that it decodes; the discovery document, the key set and the client secret are given. An
exception other than the service's own is a cast that PHP refuses.
-/
namespace CortenDesk
open Php
open Except (bind_eq_ok mapError_eq_ok)

namespace OidcService

/-- An `OidcException` with its message, or another exception. -/
inductive Failure
  | oidc (message : String)
  | threw
  deriving DecidableEq

/-- `trim((string) (Setting::get($key, '') ?? ''))`. -/
def setting (settings : Settings) (key : String) : String := trim (settings.get key "")

/-- `(string) $value`. -/
def castText (v : Json) : Except Failure String :=
  match v.toText with
  | some text => .ok text
  | none => .error .threw

/-- `base64_decode(strtr($s, '-_', '+/'))`, which passes by what is no digit. -/
def decodeUrlSafe (s : List Char) : Bytes :=
  let translated := s.map fun c => if c = '-' then '+' else if c = '_' then '/' else c
  base64Octets ((bytes (String.ofList translated)).filterMap fun b =>
    match base64Symbol b with
    | .digit value => some value
    | _ => none)

/-- The header of a token, without a look at its signature. -/
def decodeSegment (json : Bytes → Json) (jwt : String) : Except Failure (List (Key × Json)) :=
  match jwt.toList.splitOn '.' with
  | [header, _, _] =>
      match json (decodeUrlSafe header) with
      | .array entries => .ok entries
      | _ => .ok []
  | _ => .error (.oidc "The provider returned a malformed ID token.")

def headerAlgorithm (json : Bytes → Json) (jwt : String) : Except Failure String := do
  castText (Json.get (← decodeSegment json jwt) (.str "alg") (.string ""))

structure SigningKey where
  material : String
  algorithm : String
  deriving DecidableEq

/-- The JWT library. The claims are the payload as an array; the message of a failure is that
of its exception. -/
structure JwtLibrary (json : Bytes → Json) where
  decode : String → List SigningKey → Except String (Arr Key Json)
  parseKeySet : Json → String → Except String (List SigningKey)
  Verifies : String → SigningKey → Prop
  Expired : String → Prop
  sound : ∀ {token keys claims}, decode token keys = .ok claims → ¬ Expired token ∧
    ∃ key ∈ keys, Verifies token key ∧ headerAlgorithm json token = .ok key.algorithm

def acceptedSigningAlgorithms (discovery : List (Key × Json)) : Except Failure (List String) :=
  match Json.get discovery (.str "id_token_signing_alg_values_supported") .null with
  | .array (first :: rest) => do
      let texts ← ((first :: rest).map Prod.snd).mapM castText
      let algorithms := texts.filter fun alg => alg ≠ "" && alg ≠ "none"
      return if algorithms = [] then ["RS256"] else algorithms
  | _ => .ok ["RS256"]

def symmetric (alg : String) : Bool := ['H', 'S'].isPrefixOf alg.toList

def unadvertised (alg : String) : String :=
  "The ID token was signed with an algorithm this provider does not advertise" ++
    if alg = "" then "." else " (" ++ alg ++ ")."

variable {json : Bytes → Json}

/-- The decoding under the client secret or the published keys; the keys may fail to load. -/
def decodeSigned (library : JwtLibrary json) (secret : String) (jwks : Except String Json)
    (idToken alg : String) : Except Failure (Arr Key Json) :=
  let decoded :=
    if symmetric alg then library.decode idToken [⟨secret, alg⟩]
    else do library.decode idToken (← library.parseKeySet (← jwks) alg)
  decoded.mapError fun message => .oidc ("The ID token failed verification: " ++ message)

def checkIssuer (discovery : List (Key × Json)) (claims : Arr Key Json) : Except Failure Unit := do
  let refusal := Failure.oidc "The ID token was issued by an unexpected issuer."
  let issuer ← castText (Json.get discovery (.str "issuer") (.string ""))
  if issuer = "" then throw refusal
  else if issuer = (← castText (Json.get claims.entries (.str "iss") (.string ""))) then return
  else throw refusal

def checkAudience (settings : Settings) (claims : Arr Key Json) : Except Failure Unit := do
  let audiences := match Json.get claims.entries (.str "aud") .null with
    | .array entries => entries.map Prod.snd
    | audience => [audience]
  if setting settings "oidc_client_id" ∈ (← audiences.mapM castText) then return
  else throw (.oidc "The ID token was not issued for this client.")

def checkNonce (expectedNonce : Option String) (claims : Arr Key Json) : Except Failure Unit := do
  let expected := expectedNonce.getD ""
  if expected = "" then return
  else if expected = (← castText (Json.get claims.entries (.str "nonce") (.string ""))) then return
  else throw (.oidc "The ID token nonce did not match. Please try signing in again.")

def checkSubject (claims : Arr Key Json) : Except Failure Unit :=
  if (Json.get claims.entries (.str "sub") .null).truthy then .ok ()
  else .error (.oidc "The ID token carried no subject claim.")

/-- `OidcService::verifyIdToken`. -/
def verifyIdToken (library : JwtLibrary json) (settings : Settings) (secret : String)
    (discovery : List (Key × Json)) (jwks : Except String Json) (idToken : String)
    (expectedNonce : Option String) : Except Failure (Arr Key Json) := do
  let alg ← headerAlgorithm json idToken
  let accepted ← acceptedSigningAlgorithms discovery
  if alg ∈ accepted then
    let claims ← decodeSigned library secret jwks idToken alg
    checkIssuer discovery claims
    checkAudience settings claims
    checkNonce expectedNonce claims
    checkSubject claims
    return claims
  else throw (.oidc (unadvertised alg))

/-- The algorithms that the document lists, but blank ones and `none`. -/
def advertised (discovery : List (Key × Json)) : List String :=
  match Json.get discovery (.str "id_token_signing_alg_values_supported") .null with
  | .array entries => (entries.filterMap fun e => e.2.toText).filter fun alg =>
      alg ≠ "" && alg ≠ "none"
  | _ => []

/-- The audiences that the claims name. -/
def audiencesOf (claims : Arr Key Json) : List Json :=
  match claims.get? (.str "aud") with
  | none | some .null => []
  | some (.array entries) => entries.map Prod.snd
  | some audience => [audience]

/-- What an accepted token is: signed with an advertised algorithm, under the client secret or a
published key of that algorithm, and issued by the provider for this client, this request and a
subject. Values are compared by their string casts. -/
structure Accepted (library : JwtLibrary json) (settings : Settings) (secret : String)
    (discovery : List (Key × Json)) (jwks : Except String Json) (idToken : String)
    (expectedNonce : Option String) (claims : Arr Key Json) (alg : String) : Prop where
  header : headerAlgorithm json idToken = .ok alg
  advertised : alg ∈ advertised discovery ∨ (advertised discovery = [] ∧ alg = "RS256")
  signed : alg ≠ "none"
  unexpired : ¬ library.Expired idToken
  secret : symmetric alg → library.Verifies idToken ⟨secret, alg⟩
  published : symmetric alg = false → ∃ document keys key, jwks = .ok document ∧
    library.parseKeySet document alg = .ok keys ∧ key ∈ keys ∧ key.algorithm = alg ∧
    library.Verifies idToken key
  issuer : ∃ issuer, issuer ≠ "" ∧
    (Json.get discovery (.str "issuer") (.string "")).toText = some issuer ∧
    (Json.get claims.entries (.str "iss") (.string "")).toText = some issuer
  audience : setting settings "oidc_client_id" ≠ "" →
    ∃ v ∈ audiencesOf claims, v.toText = some (setting settings "oidc_client_id")
  nonce : ∀ expected, expectedNonce = some expected → expected ≠ "" →
    (Json.get claims.entries (.str "nonce") (.string "")).toText = some expected
  subject : ∃ v, claims.get? (.str "sub") = some v ∧ v.truthy

theorem castText_eq_ok {v : Json} {text : String} : castText v = .ok text ↔ v.toText = some text := by
  unfold castText
  cases v.toText with
  | none => exact iff_of_false (fun failed => by cases failed) fun failed => by cases failed
  | some s => exact ⟨fun ok => by cases ok; rfl, fun ok => by cases ok; rfl⟩

theorem mapM_castText {values : List Json} {texts : List String}
    (cast : values.mapM castText = .ok texts) : values.filterMap Json.toText = texts := by
  induction values generalizing texts with
  | nil =>
      cases cast
      rfl
  | cons v values ih =>
      rw [List.mapM_cons] at cast
      obtain ⟨text, read, cast⟩ := bind_eq_ok.mp cast
      obtain ⟨rest, later, cast⟩ := bind_eq_ok.mp cast
      cases cast
      rw [List.filterMap_cons, castText_eq_ok.mp read]
      exact congrArg (text :: ·) (ih later)

theorem mem_accepted {discovery : List (Key × Json)} {accepted : List String} {alg : String}
    (listed : acceptedSigningAlgorithms discovery = .ok accepted) (mem : alg ∈ accepted) :
    (alg ∈ advertised discovery ∨ (advertised discovery = [] ∧ alg = "RS256")) ∧ alg ≠ "none" := by
  have fallback {alg : String} (mem : alg ∈ ["RS256"]) : alg = "RS256" ∧ alg ≠ "none" := by
    obtain rfl := List.mem_singleton.mp mem
    exact ⟨rfl, by decide⟩
  unfold acceptedSigningAlgorithms at listed
  split at listed
  · next first rest published =>
    obtain ⟨texts, cast, listed⟩ := bind_eq_ok.mp listed
    have usable : advertised discovery = texts.filter fun alg => alg ≠ "" && alg ≠ "none" := by
      rw [advertised, published, ← mapM_castText cast, List.filterMap_map]
      rfl
    obtain rfl := Except.ok.inj listed
    rw [← usable] at mem
    split at mem
    · next none => exact ⟨.inr ⟨none, (fallback mem).1⟩, (fallback mem).2⟩
    · refine ⟨.inl mem, ?_⟩
      rw [usable] at mem
      rintro rfl
      exact absurd (List.mem_filter.mp mem).2 (by decide)
  · next other =>
    obtain rfl := Except.ok.inj listed
    refine ⟨.inr ⟨?_, (fallback mem).1⟩, (fallback mem).2⟩
    unfold advertised
    split
    · next entries published =>
      cases entries with
      | nil => rfl
      | cons first rest => exact absurd published (other first rest)
    · rfl

section Checks
variable {discovery : List (Key × Json)} {claims : Arr Key Json} {settings : Settings}

theorem get_eq (entries : List (Key × Json)) (key : Key) :
    Json.get entries key .null = (entries.lookup key).getD .null := by
  unfold Json.get
  cases entries.lookup key with
  | none => rfl
  | some v => cases v <;> rfl

theorem issuer_of_checkIssuer (passed : checkIssuer discovery claims = .ok ()) :
    ∃ issuer, issuer ≠ "" ∧
      (Json.get discovery (.str "issuer") (.string "")).toText = some issuer ∧
      (Json.get claims.entries (.str "iss") (.string "")).toText = some issuer := by
  obtain ⟨issuer, known, passed⟩ := bind_eq_ok.mp passed
  split at passed
  · cases passed
  · next named =>
    obtain ⟨iss, claimed, passed⟩ := bind_eq_ok.mp passed
    split at passed
    · next same => exact ⟨issuer, named, castText_eq_ok.mp known, same ▸ castText_eq_ok.mp claimed⟩
    · cases passed

theorem audience_of_checkAudience (passed : checkAudience settings claims = .ok ())
    (configured : setting settings "oidc_client_id" ≠ "") :
    ∃ v ∈ audiencesOf claims, v.toText = some (setting settings "oidc_client_id") := by
  obtain ⟨texts, cast, passed⟩ := bind_eq_ok.mp passed
  split at passed
  · next mem =>
    rw [← mapM_castText cast] at mem
    obtain ⟨v, listed, spelt⟩ := List.mem_filterMap.mp mem
    refine ⟨v, ?_, spelt⟩
    rw [get_eq] at listed
    have held : claims.entries.lookup (Key.str "aud") = claims.get? (.str "aud") := rfl
    rw [held] at listed
    have present : v ≠ .null := by
      rintro rfl
      exact configured (Option.some.inj spelt).symm
    unfold audiencesOf
    cases given : claims.get? (.str "aud") with
    | none =>
        rw [given] at listed
        exact absurd (List.mem_singleton.mp listed) present
    | some audience =>
        rw [given] at listed
        cases audience with
        | null => exact absurd (List.mem_singleton.mp listed) present
        | bool _ | int _ | float _ _ _ | string _ | array _ => exact listed
  · cases passed

theorem nonce_of_checkNonce {expected : String} (passed : checkNonce (some expected) claims = .ok ())
    (sent : expected ≠ "") :
    (Json.get claims.entries (.str "nonce") (.string "")).toText = some expected := by
  simp only [checkNonce, Option.getD_some, if_neg sent] at passed
  obtain ⟨nonce, claimed, passed⟩ := bind_eq_ok.mp passed
  split at passed
  · next same => exact same ▸ castText_eq_ok.mp claimed
  · cases passed

theorem subject_of_checkSubject (passed : checkSubject claims = .ok ()) :
    ∃ v, claims.get? (.str "sub") = some v ∧ v.truthy := by
  unfold checkSubject at passed
  split at passed
  · next named =>
    rw [get_eq] at named
    have held : claims.entries.lookup (Key.str "sub") = claims.get? (.str "sub") := rfl
    rw [held] at named
    cases given : claims.get? (.str "sub") with
    | none =>
        rw [given] at named
        cases named
    | some v => exact ⟨v, rfl, by rwa [given] at named⟩
  · cases passed

end Checks

section Verify
variable {library : JwtLibrary json} {settings : Settings} {secret : String}
  {discovery : List (Key × Json)} {jwks : Except String Json} {idToken : String}
  {expectedNonce : Option String} {claims : Arr Key Json}

theorem verifyIdToken_eq_ok
    (ran : verifyIdToken library settings secret discovery jwks idToken expectedNonce = .ok claims) :
    ∃ alg accepted, headerAlgorithm json idToken = .ok alg ∧
      acceptedSigningAlgorithms discovery = .ok accepted ∧ alg ∈ accepted ∧
      decodeSigned library secret jwks idToken alg = .ok claims ∧
      checkIssuer discovery claims = .ok () ∧ checkAudience settings claims = .ok () ∧
      checkNonce expectedNonce claims = .ok () ∧ checkSubject claims = .ok () := by
  obtain ⟨alg, header, ran⟩ := bind_eq_ok.mp ran
  obtain ⟨accepted, listed, ran⟩ := bind_eq_ok.mp ran
  split at ran
  · next mem =>
    obtain ⟨decoded, signed, ran⟩ := bind_eq_ok.mp ran
    obtain ⟨⟨⟩, issuer, ran⟩ := bind_eq_ok.mp ran
    obtain ⟨⟨⟩, audience, ran⟩ := bind_eq_ok.mp ran
    obtain ⟨⟨⟩, nonce, ran⟩ := bind_eq_ok.mp ran
    obtain ⟨⟨⟩, subject, ran⟩ := bind_eq_ok.mp ran
    obtain rfl := Except.ok.inj ran
    exact ⟨alg, accepted, header, listed, mem, signed, issuer, audience, nonce, subject⟩
  · cases ran

/-- Claims are returned for an accepted token only. -/
theorem accepted_of_verifyIdToken
    (ran : verifyIdToken library settings secret discovery jwks idToken expectedNonce = .ok claims) :
    ∃ alg, Accepted library settings secret discovery jwks idToken expectedNonce claims alg := by
  obtain ⟨alg, accepted, header, listed, mem, signed, issuer, audience, nonce, subject⟩ :=
    verifyIdToken_eq_ok ran
  obtain ⟨advertised, notNone⟩ := mem_accepted listed mem
  have decoded := mapError_eq_ok.mp signed
  have common : ¬ library.Expired idToken ∧
      (symmetric alg → library.Verifies idToken ⟨secret, alg⟩) ∧
      (symmetric alg = false → ∃ document keys key, jwks = .ok document ∧
        library.parseKeySet document alg = .ok keys ∧ key ∈ keys ∧ key.algorithm = alg ∧
        library.Verifies idToken key) := by
    cases shared : symmetric alg with
    | true =>
        rw [if_pos shared] at decoded
        obtain ⟨unexpired, key, among, verifies, _⟩ := library.sound decoded
        obtain rfl := List.mem_singleton.mp among
        exact ⟨unexpired, fun _ => verifies, (by intro other; cases other)⟩
    | false =>
        rw [if_neg (by simp [shared])] at decoded
        obtain ⟨document, fetched, decoded⟩ := bind_eq_ok.mp decoded
        obtain ⟨keys, parsed, decoded⟩ := bind_eq_ok.mp decoded
        obtain ⟨unexpired, key, among, verifies, named⟩ := library.sound decoded
        rw [header] at named
        exact ⟨unexpired, (by intro other; cases other), fun _ =>
          ⟨document, keys, key, fetched, parsed, among, (Except.ok.inj named).symm, verifies⟩⟩
  refine ⟨alg, header, advertised, notNone, common.1, common.2.1, common.2.2,
    issuer_of_checkIssuer issuer, audience_of_checkAudience audience, ?_,
    subject_of_checkSubject subject⟩
  rintro expected rfl sent
  exact nonce_of_checkNonce nonce sent

end Verify

def signedToken : String := "eyJhbGciOiJSUzI1NiJ9.e30.c2ln"

def providerKey : SigningKey := ⟨"corp", "RS256"⟩

/-- The one header that is met below. -/
def headerJson (text : Bytes) : Json :=
  if text = bytes "\x7b\"alg\":\"RS256\"\x7d" then .array [(.str "alg", .string "RS256")] else .null

/-- A library that knows one token under one key. -/
def oneToken (claims : Arr Key Json) : JwtLibrary headerJson where
  decode token keys :=
    if token = signedToken ∧ keys = [providerKey] then .ok claims
    else .error "Signature verification failed"
  parseKeySet _ _ := .ok [providerKey]
  Verifies token key := token = signedToken ∧ key = providerKey
  Expired _ := False
  sound := by
    intro token keys decoded ran
    split at ran
    · next known =>
      obtain ⟨rfl, rfl⟩ := known
      exact ⟨not_false, providerKey, List.mem_singleton_self _, ⟨rfl, rfl⟩, by rfl⟩
    · cases ran

def corpDiscovery : List (Key × Json) := [(.str "issuer", .string "https://idp.example")]

def corpSettings : Settings := OrderedMap.ofList [("oidc_client_id", "console")]

def corpClaims (audience : List (Key × Json)) : Arr Key Json :=
  OrderedMap.ofList ([(.str "iss", .string "https://idp.example"), (.str "sub", .string "42")] ++ audience)

/-- Without a client id a token without an audience passes. -/
theorem unaddressed_accepted :
    verifyIdToken (oneToken (corpClaims [])) ∅ "" corpDiscovery (.ok .null) signedToken none =
      .ok (corpClaims []) ∧ ¬ ∃ v ∈ audiencesOf (corpClaims []),
        v.toText = some (setting ∅ "oidc_client_id") := by
  refine ⟨by rfl, ?_⟩
  rintro ⟨v, mem, _⟩
  rw [show audiencesOf (corpClaims []) = [] from rfl] at mem
  cases mem

theorem accepted_corp : ∃ alg, Accepted (oneToken (corpClaims [(.str "aud", .string "console")]))
    corpSettings "" corpDiscovery (.ok .null) signedToken none
    (corpClaims [(.str "aud", .string "console")]) alg :=
  accepted_of_verifyIdToken (by rfl)

end OidcService
end CortenDesk
