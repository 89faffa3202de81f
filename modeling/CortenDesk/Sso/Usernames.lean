import Mathlib.Data.Finset.Card
import CortenDesk.Lib.PhpJson
import CortenDesk.Sso.Resolver

/-!
The username of a provisioned account. The loop of the code looks for a name nobody has without a
bound of its own: what ends it is that the names it tries differ and the users are finitely many.
The suffix is an integer of the machine, which becomes a float behind the greatest one.
-/
namespace CortenDesk
open Php
namespace OidcUserResolver

/-- `[a-z0-9_]`. -/
def isUsernameChar (c : Char) : Bool := c.isLower || c.isDigit || c = '_'

/-- A name that is not empty and made of the characters of a username. -/
def IsUsername (username : String) : Prop :=
  username ≠ "" ∧ ∀ c ∈ username.toList, isUsernameChar c = true

/-- The text of `$suffix`: behind `PHP_INT_MAX` it is the float 2 ^ 63, which adding one does not
change. -/
def suffixText (suffix : Nat) : String :=
  if suffix < 2 ^ 63 then toString suffix else "9.2233720368548E+18"

/-- The names the loop tries one after the other. -/
def attempt (base : String) : Nat → String
  | 0 => base
  | n + 1 => base ++ "_" ++ suffixText (n + 1)

/-- `while (… ->exists())` with the suffix and the name it has come to, and the name it ends
with. -/
inductive SuffixLoop (taken : List String) (base : String) : Nat → String → String → Prop
  | done (suffix : Nat) (username : String) (free : username ∉ taken) :
      SuffixLoop taken base suffix username username
  | next (suffix : Nat) (username result : String) (exists_ : username ∈ taken)
      (rest : SuffixLoop taken base (suffix + 1) (base ++ "_" ++ suffixText suffix) result) :
      SuffixLoop taken base suffix username result

/-- `uniqueUsername` ends with the name `result` where the users have the names `taken`. -/
def ReturnsUsername (taken : List String) (claims : Claims) (email result : String) : Prop :=
  ∃ candidate, usernameCandidate claims email = some candidate ∧
    SuffixLoop taken (usernameBase candidate) 1 (usernameBase candidate) result

/-- The claims the derivation reads can be cast: the preferred name, and the full name where the
preferred one is empty or `0`. -/
def Castable (claims : Claims) : Prop :=
  claims.get? "preferred_username" ≠ some .array ∧
    ((claims.text "preferred_username").any truthy = false → claims.get? "name" ≠ some .array)

theorem text_isSome (claims : Claims) (key : String) :
    (claims.text key).isSome ↔ claims.get? key ≠ some .array := by
  rw [Claims.text, Option.isSome_map]
  cases claims.get? key with
  | none => simp [Value.toText]
  | some value => cases value <;> simp [Value.toText]

theorem usernameCandidate_isSome (claims : Claims) (email : String) :
    (usernameCandidate claims email).isSome ↔ Castable claims := by
  rw [Castable, ← text_isSome, ← text_isSome, usernameCandidate]
  cases claims.text "preferred_username" with
  | none => simp
  | some preferred =>
      by_cases true_ : truthy preferred = true
      · simp [true_]
      · simp [true_]

theorem isLower_iff {c : Char} :
    c.isLower = true ↔ 97 ≤ c.val.toNat ∧ c.val.toNat ≤ 122 := by
  change (decide (c.val ≥ 'a'.val) && decide (c.val ≤ 'z'.val)) = true ↔ _
  rw [Bool.and_eq_true, decide_eq_true_iff, decide_eq_true_iff, ge_iff_le,
    UInt32.le_iff_toNat_le, UInt32.le_iff_toNat_le]
  exact Iff.rfl

theorem usernameChar_lower {c : Char} (alphanumeric : c.isAlphanum = true) :
    isUsernameChar c.toLower = true := by
  by_cases upper : 'A'.val ≤ c.val ∧ c.val ≤ 'Z'.val
  · have lower : c.toLower.isLower = true := by
      rw [show c.toLower = _ from dif_pos upper, isLower_iff]
      simp only [UInt32.le_iff_toNat_le, UInt32.toNat_add] at upper ⊢
      simp at upper ⊢
      omega
    simp [isUsernameChar, lower]
  · have same : c.toLower = c := dif_neg upper
    have noUpper : c.isUpper = false := by
      change decide (c.val ≥ 'A'.val ∧ c.val ≤ 'Z'.val) = false
      exact decide_eq_false upper
    have rest : c.isLower = true ∨ c.isDigit = true := by
      change ((c.isUpper || c.isLower) || c.isDigit) = true at alphanumeric
      simpa [noUpper] using alphanumeric
    rw [same]
    simpa [isUsernameChar] using Or.inl rest

theorem mem_squeezeUnderscores {c : Char} {l : List Char} (mem : c ∈ squeezeUnderscores l) :
    c ∈ l := by
  induction l with
  | nil => cases mem
  | cons d rest ih =>
      rw [squeezeUnderscores] at mem
      split at mem
      · exact List.mem_cons_of_mem d (ih mem)
      · cases mem with
        | head => exact List.mem_cons_self
        | tail _ mem => exact List.mem_cons_of_mem d (ih mem)

/-- Whatever the candidate is, the base is a username. -/
theorem isUsername_usernameBase (candidate : String) : IsUsername (usernameBase candidate) := by
  have replaced : ∀ c ∈ candidate.toList.map (fun c =>
      if c.isAlphanum || c = '_' then c.toLower else '_'), isUsernameChar c = true := by
    intro c mem
    obtain ⟨d, -, rfl⟩ := List.mem_map.mp mem
    by_cases kept : d.isAlphanum = true
    · simpa [kept] using usernameChar_lower kept
    · have stroke : isUsernameChar '_' = true := by decide
      by_cases same : d = '_'
      · rw [same]
        decide
      · simpa [kept, same] using stroke
  have fallback : ∀ c ∈ "user".toList, isUsernameChar c = true :=
    List.all_eq_true.mp (by decide)
  rw [IsUsername, usernameBase]
  split
  · refine ⟨by decide, fun c mem => fallback c ?_⟩
    rw [String.toList_ofList] at mem
    exact List.mem_of_mem_take mem
  · next some =>
      refine ⟨fun empty => ?_, fun c mem => ?_⟩
      · have none := congrArg String.toList empty
        rw [String.toList_ofList, String.toList_empty, List.take_eq_nil_iff] at none
        exact some (none.resolve_left (by decide))
      · rw [String.toList_ofList] at mem
        have inner := List.dropWhile_sublist _ |>.subset
          ((List.rdropWhile_prefix _ _).subset (List.mem_of_mem_take mem))
        exact replaced c (mem_squeezeUnderscores inner)

theorem isUsername_suffixed {base : String} (valid : IsUsername base) (n : Nat) :
    IsUsername (base ++ "_" ++ toString n) := by
  refine ⟨fun empty => ?_, fun c mem => ?_⟩
  · have none := congrArg String.toList empty
    simp at none
  · rw [String.toList_append, String.toList_append, List.mem_append, List.mem_append] at mem
    obtain (front | stroke) | digit := mem
    · exact valid.2 c front
    · rw [List.mem_singleton.mp stroke]
      decide
    · rw [Nat.toString_eq_repr, Nat.toList_repr] at digit
      have decimal := Nat.isDigit_of_mem_toDigits (by decide) (by decide) digit
      simp [isUsernameChar, decimal]

theorem attempt_small {base : String} {n : Nat} (small : n < 2 ^ 63) :
    attempt base n = usernameAttempt base n := by
  cases n with
  | zero => rfl
  | succ n => rw [attempt, suffixText, if_pos small, usernameAttempt]

/-- Before the suffix leaves the integers every name tried is a username. -/
theorem isUsername_attempt {base : String} (valid : IsUsername base) (n : Nat) :
    IsUsername (usernameAttempt base n) := by
  cases n with
  | zero => exact valid
  | succ n => exact isUsername_suffixed valid (n + 1)

/-- Behind the integers no name tried is one: it has a point. -/
theorem attempt_large {base : String} {n : Nat} (large : 2 ^ 63 ≤ n) :
    ¬ IsUsername (attempt base n) := by
  intro valid
  cases n with
  | zero => omega
  | succ n =>
      rw [attempt, suffixText, if_neg (by omega)] at valid
      have point : '.' ∈ "9.2233720368548E+18".toList := by decide
      have allowed := valid.2 '.' (by
        rw [String.toList_append]
        exact List.mem_append_right _ point)
      exact absurd allowed (by decide)

theorem attempt_injective {base : String} {m n : Nat}
    (same : usernameAttempt base m = usernameAttempt base n) : m = n := by
  have texts := congrArg String.toList same
  cases m with
  | zero =>
      cases n with
      | zero => rfl
      | succ n => simp [usernameAttempt] at texts
  | succ m =>
      cases n with
      | zero => simp [usernameAttempt] at texts
      | succ n =>
          simp only [usernameAttempt, String.toList_append] at texts
          have digits := String.toList_injective (List.append_cancel_left texts)
          exact toString_nat_injective digits

/-- Of more names than are taken one is free. -/
theorem attempt_free (taken : List String) (base : String) {limit : Nat}
    (fewer : taken.length < limit) : ∃ n < limit, usernameAttempt base n ∉ taken := by
  by_contra none
  push Not at none
  have tried : ((List.range limit).map (usernameAttempt base)).Nodup :=
    List.nodup_range.map fun _ _ => attempt_injective
  have inside : (List.range limit).map (usernameAttempt base) ⊆ taken := by
    intro username mem
    obtain ⟨n, early, rfl⟩ := List.mem_map.mp mem
    exact none n (List.mem_range.mp early)
  have count := (tried.subperm inside).length_le
  rw [List.length_map, List.length_range] at count
  omega

/-- From an attempt on, the loop ends with the first attempt that is free. -/
theorem suffixLoop_iff (taken : List String) (base : String) (n : Nat) (result : String) :
    SuffixLoop taken base (n + 1) (attempt base n) result ↔
      ∃ k, n ≤ k ∧ attempt base k ∉ taken ∧ result = attempt base k ∧
        ∀ i, n ≤ i → i < k → attempt base i ∈ taken := by
  constructor
  · intro loop
    generalize suffix : n + 1 = m at loop
    generalize name : attempt base n = username at loop
    induction loop generalizing n with
    | done m username free =>
        subst name
        exact ⟨n, Nat.le_refl n, free, rfl, fun i lower upper => by omega⟩
    | next m username result exists_ rest ih =>
        obtain rfl := suffix
        obtain ⟨k, lower, free, found, before⟩ := ih (n + 1) rfl rfl
        refine ⟨k, by omega, free, found, fun i above below => ?_⟩
        by_cases first : i = n
        · rw [first, name]
          exact exists_
        · exact before i (by omega) below
  · intro first
    obtain ⟨k, lower, free, rfl, before⟩ := first
    induction h : k - n generalizing n with
    | zero =>
        have same : n = k := by omega
        exact same ▸ .done (n + 1) (attempt base n) (same ▸ free)
    | succ distance ih =>
        refine .next (n + 1) (attempt base n) _ (before n (Nat.le_refl n) (by omega)) ?_
        exact ih (n + 1) (by omega) (fun i above below => before i (by omega) below) (by omega)

/-- Not all of the names that a base and an integer can spell are taken. -/
def SuffixFree (taken : List String) (base : String) : Prop :=
  ∃ n < 2 ^ 63, usernameAttempt base n ∉ taken

/-- The loop ends with a free username exactly where one can be spelt. -/
theorem suffixLoop_username (taken : List String) {base : String} (valid : IsUsername base) :
    (∃ result, SuffixLoop taken base 1 base result ∧ IsUsername result ∧ result ∉ taken) ↔
      SuffixFree taken base := by
  constructor
  · intro ended
    obtain ⟨result, loop, username, free⟩ := ended
    obtain ⟨k, -, -, rfl, -⟩ := (suffixLoop_iff taken base 0 result).mp loop
    by_cases small : k < 2 ^ 63
    · exact ⟨k, small, attempt_small small ▸ free⟩
    · exact absurd username (attempt_large (by omega))
  · intro free
    have least := Nat.find_spec free
    have small := least.1
    refine ⟨attempt base (Nat.find free), ?_, ?_, ?_⟩
    · refine (suffixLoop_iff taken base 0 _).mpr ⟨Nat.find free, Nat.zero_le _, ?_, rfl, ?_⟩
      · rw [attempt_small small]
        exact least.2
      · intro i _ early
        have tried := Nat.find_min free early
        rw [attempt_small (early.trans small)]
        by_contra untaken
        exact tried ⟨early.trans small, untaken⟩
    · rw [attempt_small small]
      exact isUsername_attempt valid _
    · rw [attempt_small small]
      exact least.2

theorem suffixLoop_unique {taken : List String} {base result other : String}
    (loop : SuffixLoop taken base 1 base result) (again : SuffixLoop taken base 1 base other) :
    result = other := by
  obtain ⟨k, -, free, rfl, before⟩ := (suffixLoop_iff taken base 0 result).mp loop
  obtain ⟨l, -, free', rfl, before'⟩ := (suffixLoop_iff taken base 0 other).mp again
  obtain earlier | rfl | later := Nat.lt_trichotomy k l
  · exact absurd (before' k (Nat.zero_le k) earlier) free
  · rfl
  · exact absurd (before l (Nat.zero_le l) later) free'

/-- With the claims cast and a name free a username is derived, and in no other case; a free name
there is with fewer users than integers. -/
theorem username_derived (taken : List String) (claims : Claims) (email : String) :
    (((∃ result, ReturnsUsername taken claims email result) ∧
        ∀ result, ReturnsUsername taken claims email result →
          IsUsername result ∧ result ∉ taken) ↔
      Castable claims ∧ ∀ candidate, usernameCandidate claims email = some candidate →
        SuffixFree taken (usernameBase candidate)) ∧
      (taken.length < 2 ^ 63 → ∀ base, SuffixFree taken base) := by
  refine ⟨⟨fun derived => ?_, fun free => ?_⟩, fun fewer base => attempt_free taken base fewer⟩
  · obtain ⟨⟨result, candidate, cast, loop⟩, each⟩ := derived
    refine ⟨(usernameCandidate_isSome claims email).mp (by rw [cast]; rfl), fun other same => ?_⟩
    obtain rfl := Option.some.inj (cast.symm.trans same)
    have good := each result ⟨candidate, cast, loop⟩
    exact (suffixLoop_username taken (isUsername_usernameBase candidate)).mp
      ⟨result, loop, good.1, good.2⟩
  · obtain ⟨castable, free⟩ := free
    obtain ⟨candidate, cast⟩ :=
      Option.isSome_iff_exists.mp ((usernameCandidate_isSome claims email).mpr castable)
    obtain ⟨result, loop, username, untaken⟩ :=
      (suffixLoop_username taken (isUsername_usernameBase candidate)).mpr (free candidate cast)
    refine ⟨⟨result, candidate, cast, loop⟩, fun other returned => ?_⟩
    obtain ⟨candidate', cast', loop'⟩ := returned
    obtain rfl := Option.some.inj (cast.symm.trans cast')
    exact suffixLoop_unique loop loop' ▸ ⟨username, untaken⟩

/-- The claims of a provider that sends the preferred names as a list. -/
def listedNames : Claims where
  entries := [("preferred_username", .array)]
  nodup := by decide

/-- The cast of the list throws, so no name comes out even where there are no users. -/
theorem listed_names_throw : ¬ ∃ result, ReturnsUsername [] listedNames "a@b" result := by
  intro returned
  obtain ⟨result, candidate, cast, -⟩ := returned
  have castable := (usernameCandidate_isSome listedNames "a@b").mp (by rw [cast]; rfl)
  exact castable.1 rfl

/-- Without claims the name before the address is derived where nobody has it. -/
theorem username_derived_address :
    ∃ result, ReturnsUsername [] ∅ "a@b" result ∧ IsUsername result := by
  have derived := username_derived [] ∅ "a@b"
  have free := derived.2 (by decide)
  have castable : Castable ∅ := ⟨by decide, fun _ => by decide⟩
  obtain ⟨⟨result, returned⟩, each⟩ := derived.1.mpr ⟨castable, fun _ _ => free _⟩
  exact ⟨result, returned, (each result returned).1⟩

/-- The resolver's bounded search finds what the loop ends with. -/
theorem search_loop (users : Table User) (base : String) (fewer : users.rows.length < 2 ^ 63) :
    SuffixLoop (users.rows.map (·.username)) base 1 base
      ((((List.range (users.rows.length + 1)).map (usernameAttempt base)).find? fun username =>
        users.rows.all (·.username ≠ username)).getD base) := by
  have free := attempt_free (users.rows.map (·.username)) base
    (by rw [List.length_map]; exact Nat.lt_succ_self users.rows.length)
  have least := Nat.find_spec free
  have untaken : ∀ username, users.rows.all (fun user => user.username ≠ username) = true ↔
      username ∉ users.rows.map (·.username) := by
    intro username
    simp
  have found : (List.range (users.rows.length + 1)).find?
      ((fun username => users.rows.all (·.username ≠ username)) ∘ usernameAttempt base) =
        some (Nat.find free) := by
    refine List.find?_range_eq_some.mpr ⟨(untaken _).mpr least.2, List.mem_range.mpr least.1, ?_⟩
    intro i early
    have tried := Nat.find_min free early
    rw [Bool.not_eq_true', ← Bool.not_eq_true, Function.comp_apply, untaken]
    exact fun unused => tried ⟨early.trans least.1, unused⟩
  rw [List.find?_map, found]
  have small : Nat.find free < 2 ^ 63 := by omega
  refine (suffixLoop_iff _ base 0 _).mpr ⟨Nat.find free, Nat.zero_le _, ?_, ?_, ?_⟩
  · rw [attempt_small small]
    exact least.2
  · rw [attempt_small small]
    rfl
  · intro i _ early
    have tried := Nat.find_min free early
    rw [attempt_small (early.trans small)]
    by_contra unused
    exact tried ⟨early.trans least.1, unused⟩

theorem uniqueUsername_eq (users : Table User) (claims : Claims) (email username : String)
    (fewer : users.rows.length < 2 ^ 63) :
    uniqueUsername users claims email = some username ↔
      ReturnsUsername (users.rows.map (·.username)) claims email username := by
  rw [uniqueUsername, Option.map_eq_some_iff]
  constructor
  · intro searched
    obtain ⟨candidate, cast, rfl⟩ := searched
    exact ⟨candidate, cast, search_loop users (usernameBase candidate) fewer⟩
  · intro returned
    obtain ⟨candidate, cast, loop⟩ := returned
    exact ⟨candidate, cast,
      suffixLoop_unique (search_loop users (usernameBase candidate) fewer) loop⟩

end OidcUserResolver
end CortenDesk
