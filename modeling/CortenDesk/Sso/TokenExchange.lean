import CortenDesk.Lib.PhpMerge
import CortenDesk.Sso.IdToken

/-!
The exchange of an authorization code for claims: those of the verified ID token, merged into
what the userinfo endpoint answers. Nothing compares the subjects of the two.
-/
namespace CortenDesk
open Php
open Except (bind_eq_ok)

namespace OidcService

/-- A response of the provider: its status, whether that is a success, and its body. -/
structure Response where
  status : Int
  successful : Bool
  body : Json

/-- `$response->json($key)`, for a key without a dot. -/
def Response.json (response : Response) (key : String) : Json :=
  match response.body with
  | .array entries => Json.get entries (.str key) .null
  | _ => .null

/-- What the userinfo endpoint tells; a request that throws has no response. -/
def userInfo (discovery : List (Key × Json)) (accessToken : String) (response : Option Response) :
    Except Failure (Arr Key Json) :=
  if accessToken = "" then .ok ∅
  else do
    let endpoint ← castText (Json.get discovery (.str "userinfo_endpoint") (.string ""))
    if endpoint = "" then return ∅
    else match response with
      | none => return ∅
      | some response =>
          match response.successful, response.body with
          | true, .array entries => return OrderedMap.ofList entries
          | _, _ => return ∅

variable {json : Bytes → Json}

/-- What the provider answers with during an exchange. -/
structure Answers where
  discovery : List (Key × Json)
  jwks : Except String Json
  token : Response
  userInfo : Option Response

/-- `OidcService::exchangeCode`. -/
def exchangeCode (library : JwtLibrary json) (settings : Settings) (secret : String)
    (answers : Answers) (nonce : Option String) : Except Failure (Arr Key Json × String) :=
  if ! answers.token.successful then
    .error (.oidc ("Token exchange failed (" ++ toString answers.token.status ++ "). " ++
      "Check the client ID and secret."))
  else do
    let idToken ← castText (answers.token.json "id_token")
    if idToken = "" then
      throw (.oidc "The provider returned no ID token. Ensure the \"openid\" scope is granted.")
    else
      let claims ← verifyIdToken library settings secret answers.discovery answers.jwks idToken nonce
      let accessToken ← castText (answers.token.json "access_token")
      let info ← userInfo answers.discovery accessToken answers.userInfo
      return (arrayMerge info claims, idToken)

/-- Where a claim comes from. -/
inductive Source
  | idToken
  | userInfo
  deriving DecidableEq

/-- The merged claims with their sources. -/
def sourced (info claims : Arr Key Json) : Arr Key (Json × Source) :=
  arrayMerge (info.map (·, .userInfo)) (claims.map (·, .idToken))

/-- Both name one subject. -/
def SameSubject (info claims : Arr Key Json) : Prop :=
  ∃ sub, info.get? (.str "sub") = some sub ∧ claims.get? (.str "sub") = some sub

/-- Every claim is of the ID token, or of a userinfo answer about its subject. -/
def Authenticated (info claims : Arr Key Json) : Prop :=
  ∀ key v, (sourced info claims).get? key = some (v, .userInfo) → SameSubject info claims

/-- The ID token has every key of the userinfo answer, all of them strings. -/
def Covered (info claims : Arr Key Json) : Prop :=
  ∀ key ∈ info.keys, ∃ s, key = .str s ∧ (claims.get? key).isSome

theorem map_fst_sourced (info claims : Arr Key Json) :
    (sourced info claims).map Prod.fst = arrayMerge info claims := by
  have same (source : Source) (a : Arr Key Json) : (a.map (·, source)).map Prod.fst = a := by
    apply OrderedMap.ext
    simp only [OrderedMap.map, List.map_map]
    exact List.map_id _
  rw [sourced, map_arrayMerge, same, same]

theorem numbered_map {α β : Type} (f : α → β) (a : Arr Key α) :
    numbered (a.map f).entries = (numbered a.entries).map f := by
  simp only [numbered, OrderedMap.map, List.filterMap_map, List.map_filterMap]
  refine List.filterMap_congr fun e _ => ?_
  obtain ⟨key, v⟩ := e
  cases key <;> rfl

/-- Every key of an uncovered answer is in the merged claims as its own. -/
theorem uncovered_sourced {info claims : Arr Key Json} (uncovered : ¬ Covered info claims) :
    ∃ key v, (sourced info claims).get? key = some (v, .userInfo) := by
  unfold Covered at uncovered
  push Not at uncovered
  obtain ⟨key, mem, unmatched⟩ := uncovered
  obtain ⟨v, held⟩ := (info.mem_keys_iff key).mp mem
  cases key with
  | str s =>
      refine ⟨.str s, v, ?_⟩
      have absent : claims.get? (.str s) = none := by
        exact Option.not_isSome_iff_eq_none.mp (unmatched s rfl)
      rw [sourced, get?_arrayMerge_str, OrderedMap.get?_map, OrderedMap.get?_map, absent, held]
      rfl
  | int i =>
      have listed : v ∈ numbered info.entries :=
        List.mem_filterMap.mpr ⟨(.int i, v), (info.get?_eq_some_iff _ v).mp held, rfl⟩
      obtain ⟨place, below, here⟩ := List.getElem_of_mem listed
      refine ⟨.int place, v, ?_⟩
      rw [sourced, get?_arrayMerge_int, if_neg (by omega), numbered_map, numbered_map,
        Int.toNat_natCast, List.getElem?_append_left (by rwa [List.length_map]), List.getElem?_map,
        List.getElem?_eq_getElem below, here]
      rfl

theorem sourced_of_covered {info claims : Arr Key Json} (covered : Covered info claims) (key : Key)
    (v : Json) : (sourced info claims).get? key ≠ some (v, .userInfo) := by
  have strings : numbered info.entries = [] := by
    refine List.filterMap_eq_nil_iff.mpr fun e mem => ?_
    obtain ⟨s, string, _⟩ := covered e.1 (List.mem_map_of_mem mem)
    rw [string]
  cases key with
  | int i =>
      rw [sourced, get?_arrayMerge_int, numbered_map, numbered_map, strings]
      split
      · intro found
        cases found
      · intro found
        obtain ⟨w, _, same⟩ := List.mem_map.mp (List.mem_of_getElem? found)
        cases same
  | str s =>
      rw [sourced, get?_arrayMerge_str, OrderedMap.get?_map, OrderedMap.get?_map]
      intro found
      cases own : claims.get? (.str s) with
      | some w =>
          rw [own] at found
          cases found
      | none =>
          cases given : info.get? (.str s) with
          | none =>
              rw [own, given] at found
              cases found
          | some w =>
              obtain ⟨t, _, matched⟩ := covered (.str s) ((info.mem_keys_iff _).mpr ⟨w, given⟩)
              rw [own] at matched
              cases matched

theorem authenticated_iff (info claims : Arr Key Json) :
    Authenticated info claims ↔ SameSubject info claims ∨ Covered info claims := by
  constructor
  · intro authenticated
    by_cases covered : Covered info claims
    · exact .inr covered
    · obtain ⟨key, v, found⟩ := uncovered_sourced covered
      exact .inl (authenticated key v found)
  · rintro (same | covered) key v found
    · exact same
    · exact absurd found (sourced_of_covered covered key v)

theorem exchangeCode_eq_ok {library : JwtLibrary json} {settings : Settings} {secret : String}
    {answers : Answers} {nonce : Option String} {result : Arr Key Json × String}
    (ran : exchangeCode library settings secret answers nonce = .ok result) :
    ∃ claims accessToken info, verifyIdToken library settings secret answers.discovery
        answers.jwks result.2 nonce = .ok claims ∧
      castText (answers.token.json "access_token") = .ok accessToken ∧
      userInfo answers.discovery accessToken answers.userInfo = .ok info ∧
      result.1 = arrayMerge info claims := by
  unfold exchangeCode at ran
  split at ran
  · cases ran
  · obtain ⟨idToken, _, ran⟩ := bind_eq_ok.mp ran
    split at ran
    · cases ran
    · obtain ⟨claims, verified, ran⟩ := bind_eq_ok.mp ran
      obtain ⟨accessToken, cast, ran⟩ := bind_eq_ok.mp ran
      obtain ⟨info, told, ran⟩ := bind_eq_ok.mp ran
      obtain rfl := Except.ok.inj ran
      exact ⟨claims, accessToken, info, verified, cast, told, rfl⟩

/-- The claims of an exchange are all of the authenticated subject exactly when the userinfo
answer names the subject of the ID token, or tells nothing that the ID token does not. -/
theorem exchanged_authenticated_iff {library : JwtLibrary json} {settings : Settings}
    {secret : String} {answers : Answers} {nonce : Option String} {result : Arr Key Json × String}
    (ran : exchangeCode library settings secret answers nonce = .ok result) :
    ∃ token accessToken info, verifyIdToken library settings secret answers.discovery
        answers.jwks result.2 nonce = .ok token ∧
      castText (answers.token.json "access_token") = .ok accessToken ∧
      userInfo answers.discovery accessToken answers.userInfo = .ok info ∧
      result.1 = (sourced info token).map Prod.fst ∧
      (Authenticated info token ↔ SameSubject info token ∨ Covered info token) := by
  obtain ⟨token, accessToken, info, verified, cast, told, merged⟩ := exchangeCode_eq_ok ran
  exact ⟨token, accessToken, info, verified, cast, told, by rw [map_fst_sourced, merged],
    authenticated_iff info token⟩

def corpToken : Arr Key Json := corpClaims [(.str "aud", .string "console")]

/-- A userinfo answer about a subject. -/
def told (sub : String) : List (Key × Json) :=
  [(.str "sub", .string sub), (.str "email", .string "boss@corp.example"),
    (.str "email_verified", .bool true)]

def corpAnswers (sub : String) : Answers where
  discovery := corpDiscovery ++ [(.str "userinfo_endpoint", .string "https://idp.example/userinfo")]
  jwks := .ok .null
  token := ⟨200, true, .array
    [(.str "id_token", .string signedToken), (.str "access_token", .string "opaque")]⟩
  userInfo := some ⟨200, true, .array (told sub)⟩

/-- The address of subject 43 comes with the ID token of subject 42. -/
theorem foreign_email_merged : ∃ result,
    exchangeCode (oneToken corpToken) corpSettings "" (corpAnswers "43") none = .ok result ∧
      result.1 = (sourced (OrderedMap.ofList (told "43")) corpToken).map Prod.fst ∧
      (sourced (OrderedMap.ofList (told "43")) corpToken).get? (.str "email") =
        some (.string "boss@corp.example", .userInfo) ∧
      ¬ Authenticated (OrderedMap.ofList (told "43")) corpToken := by
  refine ⟨_, by rfl, by rfl, by rfl, fun authenticated => ?_⟩
  obtain ⟨sub, theirs, own⟩ := authenticated (.str "email") (.string "boss@corp.example") (by rfl)
  obtain rfl := Option.some.inj (theirs.symm.trans
    (show (OrderedMap.ofList (told "43")).get? (.str "sub") = some (.string "43") by rfl))
  have other := own.symm.trans (show corpToken.get? (.str "sub") = some (.string "42") by rfl)
  exact absurd (Json.string.inj (Option.some.inj other)) (by decide)

theorem exchanged_authenticated_corp : ∃ result token info,
    exchangeCode (oneToken corpToken) corpSettings "" (corpAnswers "42") none = .ok result ∧
      result.1 = (sourced info token).map Prod.fst ∧
      (Authenticated info token ↔ SameSubject info token ∨ Covered info token) := by
  have ran : exchangeCode (oneToken corpToken) corpSettings "" (corpAnswers "42") none =
    .ok (arrayMerge (OrderedMap.ofList (told "42")) corpToken, signedToken) := by rfl
  obtain ⟨token, _, info, _, _, _, merged, exact⟩ := exchanged_authenticated_iff ran
  exact ⟨_, token, info, ran, merged, exact⟩

end OidcService
end CortenDesk
