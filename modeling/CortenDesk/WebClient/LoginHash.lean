import CortenDesk.WebClient.Sha256

/-!
The login credential: the hash of the password and the salt, which is what is remembered, and its
hash with the challenge of a session. Strings are their UTF-16 code units, and `utf8` is the text
encoder.
-/
namespace CortenDesk
namespace WebClient
namespace LoginHash
open Sha256

variable (utf8 : List UInt16 → List UInt8)

def cat (a b : List UInt8) : List UInt8 := a ++ b

def computeLoginH1 (password salt : List UInt16) : Option (List UInt8) :=
  sha256 (cat (utf8 password) (utf8 salt))

def loginHashFromH1 (h1 : List UInt8) (challenge : List UInt16) : Option (List UInt8) :=
  sha256 (cat h1 (utf8 challenge))

def loginPasswordHash (password salt challenge : List UInt16) : Option (List UInt8) :=
  if password.length = 0 then some []
  else (computeLoginH1 utf8 password salt).bind fun h1 => loginHashFromH1 utf8 h1 challenge

theorem digest_length (message : List UInt8) : (digest message).length = 32 :=
  flatMap_wordBytes_length (hashWords message).toList

theorem sha256_iff (data : List UInt8) :
    sha256 data = some (digest data) ↔ data.length < 2 ^ 31 - 72 := by
  rw [sha256_eq]
  split
  · next bounded => exact iff_of_true rfl bounded
  · next large => exact iff_of_false (fun same => by cases same) large

/-- The two calls of a login give the standard's hashes below the bound. -/
theorem login_iff (password salt challenge : List UInt16) :
    (computeLoginH1 utf8 password salt).bind (fun h1 => loginHashFromH1 utf8 h1 challenge) =
        some (digest (digest (utf8 password ++ utf8 salt) ++ utf8 challenge)) ↔
      (utf8 password).length + (utf8 salt).length < 2 ^ 31 - 72 ∧
        32 + (utf8 challenge).length < 2 ^ 31 - 72 := by
  simp only [computeLoginH1, loginHashFromH1, cat]
  rw [sha256_eq (utf8 password ++ utf8 salt), List.length_append]
  by_cases first : (utf8 password).length + (utf8 salt).length < 2 ^ 31 - 72
  · rw [if_pos first, Option.bind_some, sha256_iff, List.length_append, digest_length]
    exact ⟨fun second => ⟨first, second⟩, fun both => both.2⟩
  · rw [if_neg first, Option.bind_none]
    exact iff_of_false (fun same => by cases same) fun both => first both.1

/-- So does a login with a password; without one nothing is hashed. -/
theorem loginPasswordHash_iff (password salt challenge : List UInt16) (typed : password.length ≠ 0) :
    loginPasswordHash utf8 password salt challenge =
        some (digest (digest (utf8 password ++ utf8 salt) ++ utf8 challenge)) ↔
      (utf8 password).length + (utf8 salt).length < 2 ^ 31 - 72 ∧
        32 + (utf8 challenge).length < 2 ^ 31 - 72 := by
  rw [loginPasswordHash, if_neg typed]
  exact login_iff utf8 password salt challenge

/-- The client's SHA-256 is the standard's below the bound and nowhere else, and so are the hashes
of a login. -/
theorem login_hash_standard (data : List UInt8) (password salt challenge : List UInt16) :
    (sha256 data = some (digest data) ↔ data.length < 2 ^ 31 - 72) ∧
      ((computeLoginH1 utf8 password salt).bind (fun h1 => loginHashFromH1 utf8 h1 challenge) =
          some (digest (digest (utf8 password ++ utf8 salt) ++ utf8 challenge)) ↔
        (utf8 password).length + (utf8 salt).length < 2 ^ 31 - 72 ∧
          32 + (utf8 challenge).length < 2 ^ 31 - 72) :=
  ⟨sha256_iff data, login_iff utf8 password salt challenge⟩

/-- A message of 2 ^ 31 - 72 zero bytes: the size of its copy is cut to a negative number. -/
theorem long_message_throws :
    (List.replicate (2 ^ 31 - 72) (0 : UInt8)).length < 2 ^ 31 - 8 ∧
      sha256 (List.replicate (2 ^ 31 - 72) 0) = none := by
  rw [sha256_eq, List.length_replicate]
  exact ⟨by decide, if_neg (by decide)⟩

end LoginHash
end WebClient
end CortenDesk
