import Mathlib.Data.List.Infix
import CortenDesk.Lib.PhpJson
import CortenDesk.Lib.Replace

/-!
The redaction of delivery errors: three replacements, of URLs, of quoted members and of
key=value pairs, each in what the one before has made. A text is a list of the characters that
PCRE sees; that PCRE gives up on a text, which the code answers with a fixed one, is left out.
-/
namespace CortenDesk
namespace AppriseNotifications
open Php Replace

/-- `\w`, which a `\b` before a letter asks about. -/
def isWord (c : Char) : Bool := c.isAlphanum || c = '_'

def sensitive : List (List Char) :=
  ["token", "secret", "password", "authorization", "apikey", "api_key", "api-key", "accesstoken",
    "access_token", "access-token"].map String.toList

/-- The name at the start of a text, in either case, and what follows; none of the names begins
another. -/
def keyAt (l : List Char) : Option (List Char × List Char) :=
  (sensitive.find? fun key => (l.take key.length).map Char.toLower = key).map fun key =>
    (l.take key.length, l.drop key.length)

def isScheme (c : Char) : Bool := c.isAlphanum || c = '+' || c = '.' || c = '-'

def inUrl (c : Char) : Bool := ! isSpace c && c ≠ '"' && c ≠ '\''

def inValue (c : Char) : Bool := ! isSpace c && c ≠ ',' && c ≠ ';'

/-- `~\b[a-z][a-z0-9+.-]*://[^\s"']+~i`. -/
def urls : Pattern Char
  | prev, c :: l =>
      if prev.any isWord || ! c.isAlpha then none
      else match l.dropWhile isScheme with
        | ':' :: '/' :: '/' :: rest =>
            if rest.takeWhile inUrl = [] then none
            else some ((l.takeWhile isScheme).length + 3 + (rest.takeWhile inUrl).length,
              "[redacted URL]".toList)
        | _ => none
  | _, [] => none

/-- `(?:\\.|[^"\\])*"`: what follows the string. -/
def closes : List Char → Option (List Char)
  | '"' :: l => some l
  | '\\' :: '\n' :: _ => none
  | '\\' :: _ :: l => closes l
  | ['\\'] => none
  | _ :: l => closes l
  | [] => none

/-- `"(?:token|…)"\s*:\s*"`: the member up to the quote that opens its value, and what follows. -/
def memberHead : List Char → Option (List Char × List Char)
  | '"' :: l =>
      match keyAt l with
      | some (key, '"' :: l) =>
          match l.dropWhile isSpace with
          | ':' :: l' =>
              match l'.dropWhile isSpace with
              | '"' :: body => some ('"' :: key ++ '"' :: l.takeWhile isSpace ++
                  ':' :: l'.takeWhile isSpace ++ ['"'], body)
              | _ => none
          | _ => none
      | _ => none
  | _ => none

/-- `/("(?:token|…)"\s*:\s*)"(?:\\.|[^"\\])*"/i`. -/
def members : Pattern Char := fun _ l =>
  match memberHead l with
  | some (head, body) =>
      (closes body).map fun rest =>
        (l.length - rest.length - 1, head ++ "[redacted]\"".toList)
  | none => none

/-- `(token|…)\s*[=:]\s*`: the name, and the value with what follows. -/
def valueHead (l : List Char) : Option (List Char × List Char) :=
  match keyAt l with
  | some (key, l) =>
      match l.dropWhile isSpace with
      | c :: l => if c = '=' || c = ':' then some (key, l.dropWhile isSpace) else none
      | [] => none
  | none => none

/-- `/\b(token|…)\s*[=:]\s*[^\s,;]+/i`. -/
def values : Pattern Char := fun prev l =>
  if prev.any isWord then none
  else match valueHead l with
    | some (key, l') =>
        if l'.takeWhile inValue = [] then none
        else some (l.length - (l'.dropWhile inValue).length - 1, key ++ "=[redacted]".toList)
    | none => none

def redact (value : List Char) : List Char := replaceAll [urls, members, values] value

/-- A sensitive name in any case. -/
def IsKey (key : List Char) : Prop := key.map Char.toLower ∈ sensitive

/-- A string without the quote that ends it. -/
def IsBody (body : List Char) : Prop := ∀ rest, closes (body ++ '"' :: rest) = some rest

/-- A member up to the quote that opens its value. -/
structure IsMemberHead (head : List Char) : Prop where
  parts : ∃ key before after, IsKey key ∧ (∀ c ∈ before, isSpace c) ∧ (∀ c ∈ after, isSpace c) ∧
    head = '"' :: (key ++ '"' :: (before ++ ':' :: (after ++ ['"'])))

/-- The name of a pair up to its value. -/
structure IsValueHead (key head : List Char) : Prop where
  isKey : IsKey key
  parts : ∃ before sep after, (∀ c ∈ before, isSpace c) ∧ (sep = '=' ∨ sep = ':') ∧
    (∀ c ∈ after, isSpace c) ∧ head = key ++ (before ++ sep :: after)

section Keys

theorem sensitive_spelled : sensitive = [
      ['t', 'o', 'k', 'e', 'n'],
      ['s', 'e', 'c', 'r', 'e', 't'],
      ['p', 'a', 's', 's', 'w', 'o', 'r', 'd'],
      ['a', 'u', 't', 'h', 'o', 'r', 'i', 'z', 'a', 't', 'i', 'o', 'n'],
      ['a', 'p', 'i', 'k', 'e', 'y'],
      ['a', 'p', 'i', '_', 'k', 'e', 'y'],
      ['a', 'p', 'i', '-', 'k', 'e', 'y'],
      ['a', 'c', 'c', 'e', 's', 's', 't', 'o', 'k', 'e', 'n'],
      ['a', 'c', 'c', 'e', 's', 's', '_', 't', 'o', 'k', 'e', 'n'],
      ['a', 'c', 'c', 'e', 's', 's', '-', 't', 'o', 'k', 'e', 'n']] := by
  decide +kernel

theorem sensitive_apart : ∀ key ∈ sensitive, ∀ other ∈ sensitive, key <+: other → key = other := by
  rw [sensitive_spelled]
  decide

theorem keyAt_eq_some {l key rest : List Char} (found : keyAt l = some (key, rest)) :
    l = key ++ rest ∧ IsKey key := by
  obtain ⟨name, first, same⟩ := Option.map_eq_some_iff.mp found
  obtain ⟨rfl, rfl⟩ := Prod.mk.inj same
  refine ⟨(List.take_append_drop _ _).symm, ?_⟩
  have spelled : (l.take name.length).map Char.toLower = name := by
    simpa using List.find?_some first
  rw [IsKey, spelled]
  exact List.mem_of_find?_eq_some first

theorem keyAt_append {key : List Char} (isKey : IsKey key) (rest : List Char) :
    keyAt (key ++ rest) = some (key, rest) := by
  have found : sensitive.find? (fun name =>
      ((key ++ rest).take name.length).map Char.toLower = name) = some (key.map Char.toLower) := by
    have some : (sensitive.find? fun name =>
        ((key ++ rest).take name.length).map Char.toLower = name).isSome :=
      List.find?_isSome.mpr ⟨_, isKey, by simp⟩
    obtain ⟨name, first⟩ := Option.isSome_iff_exists.mp some
    have spelled : ((key ++ rest).take name.length).map Char.toLower = name := by
      simpa using List.find?_some first
    have mem := List.mem_of_find?_eq_some first
    rw [first]
    -- Of two names at one place, one begins the other.
    have whole : name <+: (key ++ rest).map Char.toLower := by
      rw [← spelled]
      exact (List.take_prefix _ _).map _
    have own : key.map Char.toLower <+: (key ++ rest).map Char.toLower :=
      (List.prefix_append key rest).map _
    obtain shorter | longer := List.prefix_or_prefix_of_prefix whole own
    · rw [sensitive_apart name mem _ isKey shorter]
    · rw [sensitive_apart _ isKey name mem longer]
  rw [keyAt, found]
  simp

/-- A character that no name has is in no sensitive name. -/
theorem not_mem_key {key : List Char} (isKey : IsKey key) {c : Char}
    (foreign : ∀ name ∈ sensitive, c.toLower ∉ name) : c ∉ key :=
  fun mem => foreign _ isKey (List.mem_map_of_mem mem)

/-- Characters that are in no name, and no spaces. -/
def marks : List Char := "\"\\/[]=:".toList

theorem marks_apart : marks.all fun c => ! isSpace c && sensitive.all fun name =>
    ! name.contains c.toLower := by
  rw [sensitive_spelled]
  decide

theorem isSpace_of_mark {c : Char} (mark : c ∈ marks) : isSpace c = false := by
  have apart := List.all_eq_true.mp marks_apart c mark
  rw [Bool.and_eq_true, Bool.not_eq_true'] at apart
  exact apart.1

theorem mark_not_mem {key : List Char} (isKey : IsKey key) {c : Char} (mark : c ∈ marks) : c ∉ key := by
  refine not_mem_key isKey fun name listed mem => ?_
  have apart := List.all_eq_true.mp marks_apart c mark
  rw [Bool.and_eq_true] at apart
  have absent := List.all_eq_true.mp apart.2 name listed
  rw [Bool.not_eq_true', List.contains_eq_mem, decide_eq_false_iff_not] at absent
  exact absent mem

theorem isSpace_of_mem_key {key : List Char} (isKey : IsKey key) {c : Char} (mem : c ∈ key) :
    isSpace c = false ∧ c ≠ '=' ∧ c ≠ ':' := by
  refine ⟨?_, ?_, ?_⟩
  · cases space : isSpace c with
    | false => rfl
    | true =>
        refine absurd mem (not_mem_key isKey fun name listed => ?_)
        have blank : c.toLower = c := by
          have low : c.toNat = 32 ∨ (9 ≤ c.toNat ∧ c.toNat ≤ 13) := by
            simpa [isSpace, ← Char.toNat_inj] using space
          exact dif_neg fun upper => by
            have first : 65 ≤ c.toNat := upper.1
            omega
        rw [blank]
        intro inside
        have spaceless : ∀ name ∈ sensitive, name.all (! isSpace ·) := by
          rw [sensitive_spelled]
          decide
        have other := List.all_eq_true.mp (spaceless name listed) c inside
        rw [space] at other
        cases other
  · rintro rfl
    exact mark_not_mem isKey (by decide) mem
  · rintro rfl
    exact mark_not_mem isKey (by decide) mem

theorem key_ne_nil {key : List Char} (isKey : IsKey key) : key ≠ [] := by
  rintro rfl
  exact absurd (show [] ∈ sensitive from isKey) (by decide)

theorem isAlpha_of_space {c : Char} (space : isSpace c) : c.isAlpha = false := by
  have low : c.toNat = 32 ∨ (9 ≤ c.toNat ∧ c.toNat ≤ 13) := by
    simpa [isSpace, ← Char.toNat_inj] using space
  cases alpha : c.isAlpha with
  | false => rfl
  | true =>
      have letter : (65 ≤ c.toNat ∧ c.toNat ≤ 90) ∨ (97 ≤ c.toNat ∧ c.toNat ≤ 122) := by
        change (decide (c.val ≥ 'A'.val ∧ c.val ≤ 'Z'.val) ||
          (decide (c.val ≥ 'a'.val) && decide (c.val ≤ 'z'.val))) = true at alpha
        simpa [UInt32.le_iff_toNat_le] using alpha
      omega

/-- A name begins with a letter. -/
theorem isAlpha_of_key {c : Char} {key : List Char} (isKey : IsKey (c :: key)) : c.isAlpha := by
  have letters : ∀ name ∈ sensitive, name.head?.all Char.isLower := by
    rw [sensitive_spelled]
    decide
  have lower : c.toLower.isLower := letters _ isKey
  change (c.isUpper || c.isLower) = true
  by_cases upper : c.isUpper
  · rw [upper, Bool.true_or]
  · have same : c.toLower = c := dif_neg fun both => upper (decide_eq_true both)
    rw [same] at lower
    rw [lower, Bool.or_true]

/-- What ends with a name ends with a character of one. -/
theorem end_of_key {key start l : List Char} {d : Char} (isKey : IsKey key)
    (same : start ++ key = l ++ [d]) : d ∈ key := by
  refine List.mem_of_getLast? ?_
  have last := congrArg List.getLast? same
  rwa [List.getLast?_append_of_ne_nil _ (key_ne_nil isKey), List.getLast?_concat] at last

end Keys

section Members

theorem closes_plain {c : Char} (quote : c ≠ '"') (slash : c ≠ '\\') (l : List Char) :
    closes (c :: l) = closes l :=
  closes.eq_5 c l quote (fun _ same => (slash same).elim) (fun _ _ same => (slash same).elim)
    fun same => (slash same).elim

theorem closes_escaped {c : Char} (escaped : c ≠ '\n') (l : List Char) :
    closes ('\\' :: c :: l) = closes l :=
  closes.eq_3 c l escaped

/-- The induction over a string: its end, an escape, a line that is broken, a plain character. -/
theorem closes_cases {motive : List Char → Prop} (nil : motive []) (slash : motive ['\\'])
    (quote : ∀ l, motive ('"' :: l)) (broken : ∀ l, motive ('\\' :: '\n' :: l))
    (escape : ∀ c l, c ≠ '\n' → motive l → motive ('\\' :: c :: l))
    (plain : ∀ c l, c ≠ '"' → c ≠ '\\' → motive l → motive (c :: l)) (l : List Char) :
    motive l := by
  induction l using closes.induct with
  | case1 l => exact quote l
  | case2 l => exact broken l
  | case3 c l other ih => exact escape c l other ih
  | case4 => exact slash
  | case5 c l other _ escaped single ih =>
      refine plain c l other (fun same => ?_) ih
      cases l with
      | nil => exact single same rfl
      | cons d l => exact escaped d l same rfl
  | case6 => exact nil

theorem closes_eq_some {l rest : List Char} (closed : closes l = some rest) :
    ∃ body, IsBody body ∧ l = body ++ '"' :: rest := by
  induction l using closes_cases with
  | nil => cases closed
  | slash => cases closed
  | quote l =>
      obtain rfl := Option.some.inj closed
      exact ⟨[], fun _ => rfl, rfl⟩
  | broken l => cases closed
  | escape c l other ih =>
      rw [closes_escaped other] at closed
      obtain ⟨body, isBody, rfl⟩ := ih closed
      exact ⟨'\\' :: c :: body, fun rest => (closes_escaped other _).trans (isBody rest), rfl⟩
  | plain c l quote slash ih =>
      rw [closes_plain quote slash] at closed
      obtain ⟨body, isBody, rfl⟩ := ih closed
      exact ⟨c :: body, fun rest => (closes_plain quote slash _).trans (isBody rest), rfl⟩

/-- A quote that no backslash stands before ends what is open, if nothing before it does: what
follows it does not matter. -/
theorem closes_isSome_congr (a b b' : List Char) (unescaped : a.getLast? ≠ some '\\') :
    (closes (a ++ '"' :: b)).isSome = (closes (a ++ '"' :: b')).isSome := by
  induction a using closes_cases with
  | nil => rfl
  | slash => exact absurd rfl unescaped
  | quote l => rfl
  | broken l => rfl
  | escape c l other ih =>
      rw [List.cons_append, List.cons_append, List.cons_append, List.cons_append,
        closes_escaped other, closes_escaped other]
      cases l with
      | nil => rfl
      | cons d l => exact ih (by simpa using unescaped)
  | plain c l quote slash ih =>
      rw [List.cons_append, List.cons_append, closes_plain quote slash, closes_plain quote slash]
      cases l with
      | nil => rfl
      | cons d l => exact ih (by simpa using unescaped)

/-- What begins a text and lacks a character begins what stands before that character. -/
theorem append_of_not_mem {d : Char} {a head rest tail : List Char} (absent : d ∉ head)
    (text : a ++ d :: rest = head ++ tail) : ∃ w, a = head ++ w ∧ w ++ d :: rest = tail := by
  obtain ⟨w, longer, same⟩ | ⟨w, whole, same⟩ := List.append_eq_append_iff.mp text
  · cases w with
    | nil => exact ⟨[], by simpa using longer.symm, by simpa using same⟩
    | cons e w =>
        have here : e = d := (List.cons.inj same).1.symm
        exact absurd (by rw [longer, here]; simp) absent
  · exact ⟨w, whole, same.symm⟩

theorem take_drop_of_append {c : Char} {l taken rest : List Char} {n : Nat}
    (text : c :: l = taken ++ rest) (size : n + 1 = taken.length) :
    c :: l.take n = taken ∧ l.drop n = rest := by
  have first := congrArg (List.take (n + 1)) text
  have left := congrArg (List.drop (n + 1)) text
  rw [List.take_left' size.symm] at first
  rw [List.drop_left' size.symm] at left
  exact ⟨first, left⟩

theorem takeWhile_run {p : Char → Bool} {run rest : List Char} (all : ∀ c ∈ run, p c)
    (stops : ∀ c ∈ rest.head?, p c = false) :
    (run ++ rest).takeWhile p = run ∧ (run ++ rest).dropWhile p = rest := by
  rw [List.takeWhile_append_of_pos all, List.dropWhile_append_of_pos all]
  cases rest with
  | nil => exact ⟨List.append_nil _, rfl⟩
  | cons d rest =>
      have stop : ¬ p d := by simp [stops d rfl]
      rw [List.takeWhile_cons_of_neg stop, List.dropWhile_cons_of_neg stop]
      exact ⟨List.append_nil _, rfl⟩

theorem stops_dropWhile (p : Char → Bool) (l : List Char) :
    ∀ c ∈ (l.dropWhile p).head?, p c = false := by
  intro c first
  have stops := List.head?_dropWhile_not p l
  rw [Option.mem_def.mp first] at stops
  simpa using stops

theorem takeWhile_spaces {spaces : List Char} (all : ∀ c ∈ spaces, isSpace c) {d : Char}
    (other : isSpace d = false) (rest : List Char) :
    (spaces ++ d :: rest).takeWhile isSpace = spaces ∧
      (spaces ++ d :: rest).dropWhile isSpace = d :: rest :=
  takeWhile_run all fun _ same => Option.some.inj same ▸ other

theorem memberHead_eq_some {l head body : List Char} (found : memberHead l = some (head, body)) :
    l = head ++ body ∧ IsMemberHead head := by
  unfold memberHead at found
  split at found
  · next l =>
    split at found
    · next key after named =>
      obtain ⟨rfl, isKey⟩ := keyAt_eq_some named
      split at found
      · next after' colon =>
        split at found
        · next body' quote =>
          obtain ⟨rfl, rfl⟩ := Prod.mk.inj (Option.some.inj found)
          refine ⟨?_, key, after.takeWhile isSpace, after'.takeWhile isSpace, isKey,
            fun c mem => List.mem_takeWhile_imp mem,
            fun c mem => List.mem_takeWhile_imp mem, by simp⟩
          have first : after.takeWhile isSpace ++ after.dropWhile isSpace = after :=
            List.takeWhile_append_dropWhile
          have second : after'.takeWhile isSpace ++ after'.dropWhile isSpace = after' :=
            List.takeWhile_append_dropWhile
          rw [colon] at first
          rw [quote] at second
          conv_lhs => rw [← first, ← second]
          simp
        · cases found
      · cases found
    · cases found
  · cases found

theorem memberHead_append {head : List Char} (isHead : IsMemberHead head) (body : List Char) :
    memberHead (head ++ body) = some (head, body) := by
  obtain ⟨key, before, after, isKey, blank, blank', rfl⟩ := isHead
  have first := takeWhile_spaces blank (d := ':') (by decide) (after ++ '"' :: body)
  have second := takeWhile_spaces blank' (d := '"') (by decide) body
  simp only [List.cons_append, List.append_assoc, List.nil_append, memberHead, keyAt_append isKey,
    first, second]

/-- A member is a head, a string and its quote. -/
theorem members_eq_some_iff {prev : Option Char} {l r : List Char} {n : Nat} :
    members prev l = some (n, r) ↔ ∃ head body rest, IsMemberHead head ∧ IsBody body ∧
      l = head ++ (body ++ '"' :: rest) ∧ n = head.length + body.length ∧
      r = head ++ "[redacted]\"".toList := by
  constructor
  · intro found
    unfold members at found
    split at found
    · next head after named =>
      obtain ⟨rfl, isHead⟩ := memberHead_eq_some named
      obtain ⟨rest, closed, same⟩ := Option.map_eq_some_iff.mp found
      obtain ⟨body, isBody, rfl⟩ := closes_eq_some closed
      obtain ⟨rfl, rfl⟩ := Prod.mk.inj same
      refine ⟨head, body, rest, isHead, isBody, rfl, ?_, rfl⟩
      simp only [List.length_append, List.length_cons]
      omega
    · cases found
  · rintro ⟨head, body, rest, isHead, isBody, rfl, rfl, rfl⟩
    simp only [members, memberHead_append isHead, isBody rest, Option.map_some, Option.some.injEq,
      Prod.mk.injEq, and_true, List.length_append, List.length_cons]
    omega

theorem members_ne_none {prev : Option Char} {l head body rest : List Char}
    (isHead : IsMemberHead head) (isBody : IsBody body)
    (text : l = head ++ (body ++ '"' :: rest)) : members prev l ≠ none := by
  rw [members_eq_some_iff.mpr ⟨head, body, rest, isHead, isBody, text, rfl, rfl⟩]
  exact Option.some_ne_none _

theorem not_mem_memberHead {head : List Char} (isHead : IsMemberHead head) {c : Char}
    (mark : c ∈ marks) (quote : c ≠ '"') (colon : c ≠ ':') : c ∉ head := by
  obtain ⟨key, before, after, isKey, blank, blank', rfl⟩ := isHead
  have unnamed := mark_not_mem isKey mark
  have apart (spaces : List Char) (all : ∀ c ∈ spaces, isSpace c) : c ∉ spaces := by
    intro mem
    have space := all c mem
    rw [isSpace_of_mark mark] at space
    cases space
  simp [unnamed, quote, colon, apart before blank, apart after blank']

/-- The quote at the end of a head is not escaped. -/
theorem memberHead_quote {head : List Char} (isHead : IsMemberHead head) :
    ∃ start, head = start ++ ['"'] ∧ start ≠ [] ∧ start.getLast? ≠ some '\\' := by
  obtain ⟨key, before, after, _, _, blank, rfl⟩ := isHead
  refine ⟨'"' :: (key ++ '"' :: (before ++ ':' :: after)), by simp, by simp, ?_⟩
  cases after using List.reverseRecOn with
  | nil =>
      rw [show '"' :: (key ++ '"' :: (before ++ [':'])) = ('"' :: (key ++ '"' :: before)) ++ [':'] by
        simp, List.getLast?_concat]
      decide
  | append_singleton after d =>
      have space := blank d (by simp)
      rw [show '"' :: (key ++ '"' :: (before ++ ':' :: (after ++ [d]))) =
        ('"' :: (key ++ '"' :: (before ++ ':' :: after))) ++ [d] by simp, List.getLast?_concat]
      intro escaped
      rw [Option.some.inj escaped] at space
      exact absurd space (by decide)

/-- Up to the first member that is replaced, the result is the text. -/
theorem scan_members_cases (prev : Option Char) (l : List Char) : scan members 0 prev l = l ∨
    ∃ start head body rest out, IsMemberHead head ∧ IsBody body ∧
      l = start ++ (head ++ (body ++ '"' :: rest)) ∧
      scan members 0 prev l = start ++ (head ++ ("[redacted]\"".toList ++ out)) := by
  refine (scan_cases l prev).imp id ?_
  rintro ⟨start, c, l', n, r, out, rfl, found, result⟩
  obtain ⟨head, body, rest, isHead, isBody, text, _, rfl⟩ := members_eq_some_iff.mp found
  exact ⟨start, head, body, rest, out, isHead, isBody, by rw [text], by rw [result, List.append_assoc]⟩

/-- Where a member begins and closes in the text, its body may be another one's head: the quote
that opens that one's value ends it in either text. -/
theorem closes_of_replaced (start rest : List Char) {head body out body' rest' : List Char}
    (isHead : IsMemberHead head) (isBody : IsBody body) (isBody' : IsBody body')
    {z : List Char} (overlap : z = [] ∨ ∃ y, start ++ head = y ++ z)
    (closed : z ++ ("[redacted]\"".toList ++ out) = body' ++ '"' :: rest') :
    (closes (z ++ (body ++ '"' :: rest))).isSome := by
  obtain rfl | ⟨y, overlap⟩ := overlap
  · rw [List.nil_append, isBody rest]
    rfl
  obtain rfl | ⟨z, last, rfl⟩ := List.eq_nil_or_concat z
  · rw [List.nil_append, isBody rest]
    rfl
  obtain ⟨opening, rfl, nonempty, unescaped⟩ := memberHead_quote isHead
  rw [List.concat_eq_append, ← List.append_assoc, ← List.append_assoc] at overlap
  obtain ⟨before, same⟩ := List.append_inj' overlap rfl
  obtain rfl := (List.cons.inj same).1
  have plain : z.getLast? ≠ some '\\' := by
    intro escaped
    have tail : (start ++ opening).getLast? = some '\\' := by
      rw [before, List.getLast?_append, escaped]
      rfl
    rw [List.getLast?_append_of_ne_nil _ nonempty] at tail
    exact unescaped tail
  have open' : (closes (z ++ '"' :: ("[redacted]\"".toList ++ out))).isSome := by
    rw [List.concat_eq_append, List.append_assoc] at closed
    rw [show z ++ '"' :: ("[redacted]\"".toList ++ out) = body' ++ '"' :: rest' from closed,
      isBody' rest']
    rfl
  rw [List.concat_eq_append, List.append_assoc]
  rw [closes_isSome_congr z _ (body ++ '"' :: rest) plain] at open'
  exact open'

/-- The replacement makes no member of what was none. -/
theorem members_scan_none {prev prev' : Option Char} {c : Char} {l : List Char}
    (none : members prev (c :: l) = none) (q : Option Char) :
    members prev' (c :: scan members 0 q l) = Option.none := by
  cases found : members prev' (c :: scan members 0 q l) with
  | none => rfl
  | some match_ =>
      exfalso
      obtain ⟨head', body', rest', isHead', isBody', text, _⟩ := members_eq_some_iff.mp found
      obtain same | ⟨start, head, body, rest, out, isHead, isBody, before, after⟩ :=
        scan_members_cases q l
      · rw [same] at text
        exact members_ne_none isHead' isBody' text none
      · rw [after, ← List.append_assoc start, ← List.cons_append] at text
        have unbracketed : '[' ∉ head' :=
          not_mem_memberHead isHead' (by decide) (by decide) (by decide)
        -- The head of the new member lies before the brackets.
        obtain ⟨z, whole, closed⟩ := append_of_not_mem unbracketed text
        have closes' := closes_of_replaced (c :: start) rest isHead isBody isBody'
          (.inr ⟨head', whole⟩) closed
        obtain ⟨rest'', closed'⟩ := Option.isSome_iff_exists.mp closes'
        obtain ⟨body'', isBody'', split⟩ := closes_eq_some closed'
        have text' : c :: l = head' ++ (body'' ++ '"' :: rest'') := by
          rw [before, ← split, ← List.append_assoc start, ← List.cons_append, whole,
            List.append_assoc]
        exact members_ne_none isHead' isBody'' text' none

theorem isBody_redacted : IsBody "[redacted]".toList := fun _ => rfl

theorem members_redacted {head : List Char} (isHead : IsMemberHead head) (prev : Option Char)
    (rest : List Char) : members prev ((head ++ "[redacted]\"".toList) ++ rest) =
      some (head.length + 10, head ++ "[redacted]\"".toList) := by
  refine members_eq_some_iff.mpr ⟨head, "[redacted]".toList, rest, isHead, isBody_redacted, ?_, rfl,
    rfl⟩
  rw [List.append_assoc]
  rfl

theorem members_steady (c : Char) : Steady members c where
  blind _ _ _ := rfl
  keeps prev l n r found := by
    obtain ⟨head, body, rest, isHead, _, text, _, rfl⟩ := members_eq_some_iff.mp found
    obtain ⟨key, before, after, _, _, _, rfl⟩ := isHead.parts
    rw [(List.cons.inj text).1]
    rfl

/-- A text whose members are redacted is left alone by their redaction. -/
theorem clean_members (l : List Char) : Clean members 0 none (replace members l) := by
  refine clean_scan (fun prev c l none => members_scan_none none (some c)) ?_ l 0 none none
    fun _ _ _ => rfl
  intro prev c l n r found
  refine ⟨fun d _ => members_steady d, ?_⟩
  obtain ⟨head, body, rest, isHead, _, text, _, rfl⟩ := members_eq_some_iff.mp found
  have again := members_redacted isHead prev
  obtain ⟨key, before, after, _, _, _, rfl⟩ := isHead.parts
  obtain rfl := (List.cons.inj text).1
  refine ⟨_, rfl, fun out _ => ?_⟩
  rw [← List.cons_append]
  have size : ('"' :: (key ++ '"' :: (before ++ ':' :: (after ++ ['"'])))).length + 10 =
      ((key ++ '"' :: (before ++ ':' :: (after ++ ['"']))) ++ "[redacted]\"".toList).length := by
    simp
    omega
  exact (again out).trans (congrArg some (Prod.ext size rfl))

end Members

section Values

theorem valueHead_eq_some {l key rest : List Char} (found : valueHead l = some (key, rest)) :
    ∃ head, IsValueHead key head ∧ l = head ++ rest := by
  unfold valueHead at found
  split at found
  · next key' after named =>
    obtain ⟨rfl, isKey⟩ := keyAt_eq_some named
    split at found
    · next sep after' separated =>
      split at found
      · next equals =>
        obtain ⟨rfl, rfl⟩ := Prod.mk.inj (Option.some.inj found)
        rw [Bool.or_eq_true, decide_eq_true_eq, decide_eq_true_eq] at equals
        have first : after.takeWhile isSpace ++ after.dropWhile isSpace = after :=
          List.takeWhile_append_dropWhile
        rw [separated] at first
        refine ⟨key' ++ (after.takeWhile isSpace ++ sep :: after'.takeWhile isSpace),
          ⟨isKey, _, sep, _, fun c mem => List.mem_takeWhile_imp mem, equals,
            fun c mem => List.mem_takeWhile_imp mem, rfl⟩, ?_⟩
        conv_lhs => rw [← first]
        simp
      · cases found
    · cases found
  · cases found

theorem valueHead_append {key head : List Char} (isHead : IsValueHead key head) {c : Char}
    (value : isSpace c = false) (rest : List Char) :
    valueHead (head ++ c :: rest) = some (key, c :: rest) := by
  obtain ⟨before, sep, after, blank, equals, blank', rfl⟩ := isHead.parts
  have separates : isSpace sep = false := by
    obtain rfl | rfl := equals
    · decide
    · decide
  have first := takeWhile_spaces blank separates (after ++ c :: rest)
  have second := takeWhile_spaces blank' value rest
  have equals' : (decide (sep = '=') || decide (sep = ':')) = true := by
    rwa [Bool.or_eq_true, decide_eq_true_eq, decide_eq_true_eq]
  simp only [List.append_assoc, List.cons_append, valueHead, keyAt_append isHead.isKey, first,
    second, equals', if_true]

/-- A pair, and what follows its value. -/
theorem values_eq_some_iff {prev : Option Char} {l r : List Char} {n : Nat} :
    values prev l = some (n, r) ↔ prev.any isWord = false ∧ ∃ key head run rest,
      IsValueHead key head ∧ run ≠ [] ∧ (∀ c ∈ run, inValue c) ∧
      (∀ c ∈ rest.head?, inValue c = false) ∧ l = head ++ (run ++ rest) ∧
      n + 1 = head.length + run.length ∧ r = key ++ "=[redacted]".toList := by
  constructor
  · intro found
    unfold values at found
    split at found
    · cases found
    next start =>
    split at found
    · next key after named =>
      obtain ⟨head, isHead, rfl⟩ := valueHead_eq_some named
      split at found
      · cases found
      next nonempty =>
      obtain ⟨size, rfl⟩ := Prod.mk.inj (Option.some.inj found)
      have whole : after.takeWhile inValue ++ after.dropWhile inValue = after :=
        List.takeWhile_append_dropWhile
      refine ⟨by simpa using start, key, head, after.takeWhile inValue, after.dropWhile inValue,
        isHead, nonempty, fun c mem => List.mem_takeWhile_imp mem, stops_dropWhile inValue after,
        by rw [whole], ?_, rfl⟩
      · have length := congrArg List.length whole
        have some : 0 < (after.takeWhile inValue).length := List.length_pos_iff.mpr nonempty
        rw [List.length_append] at length
        rw [← size, List.length_append]
        omega
    · cases found
  · rintro ⟨start, key, head, run, rest, isHead, nonempty, all, stops, rfl, size, rfl⟩
    cases run with
    | nil => exact absurd rfl nonempty
    | cons c run =>
        have spaceless : isSpace c = false := by
          have value := all c List.mem_cons_self
          rw [inValue, Bool.and_eq_true, Bool.and_eq_true, Bool.not_eq_true'] at value
          exact value.1.1
        obtain ⟨taken, left⟩ := takeWhile_run all stops
        have named := valueHead_append isHead spaceless (run ++ rest)
        rw [← List.cons_append] at named
        simp only [values, start, Bool.false_eq_true, if_false, named, taken, left, reduceCtorEq,
          Option.some.injEq, Prod.mk.injEq, and_true, List.length_append]
        omega

theorem values_ne_none {prev : Option Char} {l key head rest : List Char} {c : Char}
    (start : prev.any isWord = false) (isHead : IsValueHead key head) (value : inValue c)
    (text : l = head ++ c :: rest) : values prev l ≠ none := by
  have found : values prev l = some (head.length + ((c :: rest).takeWhile inValue).length - 1,
      key ++ "=[redacted]".toList) := by
    refine values_eq_some_iff.mpr ⟨start, key, head, (c :: rest).takeWhile inValue,
      (c :: rest).dropWhile inValue, isHead, ?_, fun c mem => List.mem_takeWhile_imp mem,
      stops_dropWhile inValue (c :: rest), ?_, ?_, rfl⟩
    · rw [List.takeWhile_cons_of_pos value]
      exact List.cons_ne_nil _ _
    · rw [List.takeWhile_append_dropWhile, text]
    · rw [List.takeWhile_cons_of_pos value, List.length_cons]
      omega
  rw [found]
  exact Option.some_ne_none _

/-- A pair begins with its name. -/
theorem values_eq_none (prev : Option Char) {c : Char} (other : c.isAlpha = false) (l : List Char) :
    values prev (c :: l) = none := by
  cases found : values prev (c :: l) with
  | none => rfl
  | some match_ =>
      obtain ⟨_, key, head, run, rest, isHead, _, _, _, text, _⟩ := values_eq_some_iff.mp found
      obtain ⟨before, sep, after, _, _, _, rfl⟩ := isHead.parts
      cases key with
      | nil => exact absurd rfl (key_ne_nil isHead.isKey)
      | cons d key =>
          obtain rfl := (List.cons.inj text).1
          rw [isAlpha_of_key isHead.isKey] at other
          cases other

/-- Up to the first pair that is replaced, the result is the text. -/
theorem scan_values_cases (prev : Option Char) (l : List Char) : scan values 0 prev l = l ∨
    ∃ start key head c rest out, IsValueHead key head ∧ inValue c ∧
      l = start ++ (head ++ c :: rest) ∧
      scan values 0 prev l = start ++ (key ++ ("=[redacted]".toList ++ out)) := by
  refine (scan_cases l prev).imp id ?_
  rintro ⟨start, c, l', n, r, out, rfl, found, result⟩
  obtain ⟨_, key, head, run, rest, isHead, nonempty, all, _, text, _, rfl⟩ :=
    values_eq_some_iff.mp found
  cases run with
  | nil => exact absurd rfl nonempty
  | cons d run =>
      exact ⟨start, key, head, d, run ++ rest, out, isHead, all d List.mem_cons_self, by rw [text]; rfl,
        by rw [result, List.append_assoc]⟩

/-- Of two texts that agree up to a name, the one in which a value follows has a pair wherever the
other one, in which `=` follows, has. -/
theorem valueHead_of_replaced (start rest : List Char) {key head out head' rest' : List Char}
    {c c' : Char} {key' : List Char} (isHead : IsValueHead key head) (value : inValue c)
    (isHead' : IsValueHead key' head') (value' : inValue c')
    (text : start ++ (key ++ '=' :: out) = head' ++ c' :: rest') :
    ∃ head'' c'' rest'', IsValueHead key' head'' ∧ inValue c'' ∧
      start ++ (head ++ c :: rest) = head'' ++ c'' :: rest'' := by
  obtain ⟨before, sep, after, blank, equals, blank', rfl⟩ := isHead.parts
  obtain ⟨before', sep', after', blankb, equals', blanka, whole⟩ := isHead'.parts
  have open' : start ++ key ≠ head' := by
    intro same
    rw [whole] at same
    rcases List.eq_nil_or_concat after' with rfl | ⟨spaces, d, rfl⟩
    · obtain ⟨_, unequal, uncolon⟩ := isSpace_of_mem_key isHead.isKey
        (end_of_key isHead.isKey (same.trans (List.append_assoc key' before' [sep']).symm))
      obtain rfl | rfl := equals'
      · exact unequal rfl
      · exact uncolon rfl
    · rw [List.concat_eq_append, ← List.cons_append, ← List.append_assoc, ← List.append_assoc] at same
      have spaceless := (isSpace_of_mem_key isHead.isKey (end_of_key isHead.isKey same)).1
      rw [blanka d (by simp)] at spaceless
      cases spaceless
  rw [← List.append_assoc] at text
  obtain ⟨z, longer, tail⟩ | ⟨z, shorter, tail⟩ := List.append_eq_append_iff.mp text
  · -- The new pair's name ends where the `=` stands.
    cases z with
    | nil => exact absurd (by simpa using longer.symm) open'
    | cons d z =>
        obtain rfl := (List.cons.inj tail).1
        have named : start ++ key = key' ++ before' := by
          have notBefore : '=' ∉ key' ++ before' := by
            intro mem
            obtain inKey | inSpaces := List.mem_append.mp mem
            · exact (isSpace_of_mem_key isHead'.isKey inKey).2.1 rfl
            · exact absurd (blankb _ inSpaces) (by decide)
          have notAfter : '=' ∉ after' := fun mem => absurd (blanka _ mem) (by decide)
          rw [whole, ← List.append_assoc] at longer
          obtain ⟨w, same, _⟩ | ⟨w, same, rest⟩ := List.append_eq_append_iff.mp longer
          · cases w with
            | nil => simpa using same
            | cons d w =>
                obtain ⟨rfl, _⟩ := List.cons.inj ‹sep' :: after' = d :: w ++ '=' :: z›
                exact absurd (by simp_all) notAfter
          · cases w with
            | nil => simpa using same.symm
            | cons d w =>
                obtain ⟨rfl, _⟩ := List.cons.inj rest
                exact absurd (by rw [same]; simp) notBefore
        rcases List.eq_nil_or_concat before' with rfl | ⟨spaces, d, rfl⟩
        · rw [List.append_nil] at named
          refine ⟨key' ++ (before ++ sep :: after), c, rest,
            ⟨isHead'.isKey, before, sep, after, blank, equals, blank', rfl⟩, value, ?_⟩
          rw [List.append_assoc key, ← List.append_assoc, named, List.append_assoc key']
        · rw [List.concat_eq_append, ← List.append_assoc] at named
          have spaceless := (isSpace_of_mem_key isHead.isKey (end_of_key isHead.isKey named)).1
          rw [blankb d (by simp)] at spaceless
          cases spaceless
  · cases z with
    | nil => exact absurd (by simpa using shorter) open'
    | cons d z =>
        obtain rfl := (List.cons.inj tail).1
        refine ⟨head', c', z ++ (before ++ sep :: after) ++ c :: rest, isHead', value', ?_⟩
        rw [List.append_assoc key, ← List.append_assoc, shorter]
        simp

/-- The replacement makes no pair of what was none. -/
theorem values_scan_none {prev : Option Char} {c : Char} {l : List Char}
    (none : values prev (c :: l) = none) (q : Option Char) :
    values prev (c :: scan values 0 q l) = Option.none := by
  cases found : values prev (c :: scan values 0 q l) with
  | none => rfl
  | some match_ =>
      exfalso
      obtain ⟨boundary, key', head', run, rest', isHead', nonempty, all, _, text, _⟩ :=
        values_eq_some_iff.mp found
      cases run with
      | nil => exact nonempty rfl
      | cons d run =>
          have value' := all d List.mem_cons_self
          obtain same | ⟨start, key, head, c', rest, out, isHead, value, before, after⟩ :=
            scan_values_cases q l
          · rw [same] at text
            exact values_ne_none boundary isHead' value' text none
          · rw [after] at text
            obtain ⟨_, _, _, isHead'', value'', text''⟩ :=
              valueHead_of_replaced (c :: start) rest isHead value isHead' value' text
            rw [before] at none
            exact values_ne_none boundary isHead'' value'' text'' none

theorem separator_cases {c : Char} (separates : inValue c = false) :
    isSpace c ∨ c = ',' ∨ c = ';' := by
  simpa [inValue, or_assoc, imp_iff_not_or] using separates

theorem isAlpha_of_separator {c : Char} (separates : inValue c = false) : c.isAlpha = false := by
  obtain space | rfl | rfl := separator_cases separates
  · exact isAlpha_of_space space
  · decide
  · decide

theorem values_redacted {prev : Option Char} (boundary : prev.any isWord = false) {key : List Char}
    (isKey : IsKey key) {rest : List Char} (separated : ∀ c ∈ rest.head?, inValue c = false) :
    values prev ((key ++ "=[redacted]".toList) ++ rest) =
      some (key.length + 10, key ++ "=[redacted]".toList) := by
  refine values_eq_some_iff.mpr ⟨boundary, key, key ++ ['='], "[redacted]".toList, rest,
    ⟨isKey, [], '=', [], by simp, .inl rfl, by simp, rfl⟩, by decide,
    List.all_eq_true.mp (by decide), separated, by simp, by simp, rfl⟩

theorem values_steady {c : Char} (other : c.isAlpha = false) : Steady values c where
  blind prev prev' l := by rw [values_eq_none prev other, values_eq_none prev' other]
  keeps prev l n r found := by
    rw [values_eq_none prev other] at found
    cases found

/-- What a pair takes, and what it leaves. -/
theorem values_span {prev : Option Char} {c : Char} {l r : List Char} {n : Nat}
    (found : values prev (c :: l) = some (n, r)) : prev.any isWord = false ∧ ∃ key head run rest,
      IsValueHead key head ∧ run ≠ [] ∧ (∀ d ∈ run, inValue d) ∧
      (∀ d ∈ rest.head?, inValue d = false) ∧ c :: l.take n = head ++ run ∧
      (l.take n).length = n ∧ l.drop n = rest ∧ r = key ++ "=[redacted]".toList := by
  obtain ⟨boundary, key, head, run, rest, isHead, nonempty, all, stops, text, size, replaced⟩ :=
    values_eq_some_iff.mp found
  obtain ⟨taken, left⟩ := take_drop_of_append (text.trans (List.append_assoc head run rest).symm)
    (size.trans List.length_append.symm)
  have length := congrArg List.length taken
  rw [List.length_append, ← size] at length
  exact ⟨boundary, key, head, run, rest, isHead, nonempty, all, stops, taken, Nat.succ.inj length, left,
    replaced⟩

/-- A pair keeps its name, and so its first letter. -/
theorem scan_values_cons (prev : Option Char) (c : Char) (l : List Char) :
    ∃ out, scan values 0 prev (c :: l) = c :: out := by
  rw [scan]
  cases found : values prev (c :: l) with
  | none => exact ⟨_, rfl⟩
  | some match_ =>
      obtain ⟨_, key, head, run, rest, isHead, _, _, _, span, _, _, replaced⟩ := values_span found
      obtain ⟨before, sep, after, _, _, _, rfl⟩ := isHead.parts
      cases key with
      | nil => exact absurd rfl (key_ne_nil isHead.isKey)
      | cons d key =>
          obtain rfl := (List.cons.inj span).1
          dsimp only
          rw [replaced]
          exact ⟨_, rfl⟩

/-- A text whose pairs are redacted is left alone by their redaction. -/
theorem clean_values (l : List Char) : Clean values 0 none (replace values l) := by
  refine clean_scan (fun prev c l none => values_scan_none none (some c)) ?_ l 0 none none
    fun _ _ _ => rfl
  intro prev c l n r found
  obtain ⟨boundary, key, head, run, rest, isHead, _, _, stops, span, _, left, rfl⟩ := values_span found
  refine ⟨fun d first => values_steady (isAlpha_of_separator (stops d (left ▸ first))), ?_⟩
  have again {out : List Char} (separated : ∀ d ∈ out.head?, inValue d = false) :=
    values_redacted boundary isHead.isKey separated
  obtain ⟨before, sep, after, _, _, _, rfl⟩ := isHead.parts
  cases key with
  | nil => exact absurd rfl (key_ne_nil isHead.isKey)
  | cons d key =>
      obtain rfl := (List.cons.inj span).1
      refine ⟨_, rfl, fun out same => ?_⟩
      rw [left] at same
      refine (again (by rwa [same])).trans ?_
      simp

end Values

end AppriseNotifications
end CortenDesk
