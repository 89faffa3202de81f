import CortenDesk.Notifications.Redaction

/-!
The URLs of an error: none of the three replacements leaves or makes one, and one that begins at
the start of a word is gone whatever its remainder is.
-/
namespace CortenDesk
namespace AppriseNotifications
open Php Replace

/-- A URL up to its remainder. -/
structure IsUrlHead (head : List Char) : Prop where
  parts : ∃ c scheme, c.isAlpha ∧ (∀ d ∈ scheme, isScheme d) ∧ head = c :: (scheme ++ "://".toList)

/-- A character that a URL has in its remainder only. -/
structure Foreign (c : Char) : Prop where
  scheme : isScheme c = false
  colon : c ≠ ':'
  slash : c ≠ '/'

section Urls

theorem isScheme_of_isAlpha {c : Char} (alpha : c.isAlpha) : isScheme c := by
  simp [isScheme, Char.isAlphanum, alpha]

theorem Foreign.isAlpha {c : Char} (foreign : Foreign c) : c.isAlpha = false := by
  cases alpha : c.isAlpha with
  | false => rfl
  | true => exact absurd (isScheme_of_isAlpha alpha) (by simp [foreign.scheme])

theorem Foreign.not_mem {c : Char} (foreign : Foreign c) {head : List Char}
    (isHead : IsUrlHead head) : c ∉ head := by
  obtain ⟨d, scheme, alpha, all, rfl⟩ := isHead.parts
  have first : c ≠ d := by
    rintro rfl
    exact absurd foreign.isAlpha (by simp [alpha])
  have inside : c ∉ scheme := fun mem => absurd (all c mem) (by simp [foreign.scheme])
  simp [first, inside, foreign.colon, foreign.slash]

theorem slash_mem_urlHead {head : List Char} (isHead : IsUrlHead head) : '/' ∈ head := by
  obtain ⟨d, scheme, _, _, rfl⟩ := isHead.parts
  simp

/-- Behind the characters of the scheme, `://` and a remainder make the match. -/
theorem urls_of_scheme {prev : Option Char} {c : Char} {scheme : List Char}
    (boundary : prev.any isWord = false) (alpha : c.isAlpha) (all : ∀ d ∈ scheme, isScheme d)
    (rest : List Char) : urls prev (c :: (scheme ++ ':' :: '/' :: '/' :: rest)) =
      if rest.takeWhile inUrl = [] then none
      else some (scheme.length + 3 + (rest.takeWhile inUrl).length, "[redacted URL]".toList) := by
  have stops : ∀ d ∈ (':' :: '/' :: '/' :: rest).head?, isScheme d = false :=
    fun d first => Option.some.inj first ▸ by decide
  obtain ⟨taken, left⟩ := takeWhile_run all stops
  rw [urls, taken, left, boundary, alpha, if_neg (by decide)]
  rfl

theorem urls_of_other {prev : Option Char} {c : Char} {scheme l : List Char}
    (all : ∀ d ∈ scheme, isScheme d) (stops : ∀ d ∈ l.head?, isScheme d = false)
    (other : ∀ rest, l ≠ ':' :: '/' :: '/' :: rest) : urls prev (c :: (scheme ++ l)) = none := by
  obtain ⟨_, left⟩ := takeWhile_run all stops
  rw [urls, left]
  split
  · rfl
  · split
    · exact absurd rfl (other _)
    · rfl

/-- A URL, and what follows it. -/
theorem urls_eq_some_iff {prev : Option Char} {l r : List Char} {n : Nat} :
    urls prev l = some (n, r) ↔ prev.any isWord = false ∧ ∃ head run rest,
      IsUrlHead head ∧ run ≠ [] ∧ (∀ c ∈ run, inUrl c) ∧ (∀ c ∈ rest.head?, inUrl c = false) ∧
      l = head ++ (run ++ rest) ∧ n + 1 = head.length + run.length ∧
      r = "[redacted URL]".toList := by
  constructor
  · intro found
    cases l with
    | nil => cases found
    | cons c l =>
        rw [urls] at found
        split at found
        · cases found
        next start =>
        split at found
        · next rest colon =>
          split at found
          · cases found
          next nonempty =>
          obtain ⟨size, rfl⟩ := Prod.mk.inj (Option.some.inj found)
          rw [Bool.or_eq_true, not_or, Bool.not_eq_true, Bool.not_eq_true, Bool.not_eq_false'] at start
          have scheme : l.takeWhile isScheme ++ l.dropWhile isScheme = l :=
            List.takeWhile_append_dropWhile
          have path : rest.takeWhile inUrl ++ rest.dropWhile inUrl = rest :=
            List.takeWhile_append_dropWhile
          refine ⟨start.1, c :: (l.takeWhile isScheme ++ "://".toList), rest.takeWhile inUrl,
            rest.dropWhile inUrl, ⟨c, _, start.2, fun d mem => List.mem_takeWhile_imp mem, rfl⟩,
            nonempty, fun d mem => List.mem_takeWhile_imp mem, stops_dropWhile inUrl rest, ?_, ?_, rfl⟩
          · rw [path, List.cons_append, List.append_assoc]
            conv_lhs => rw [← scheme, colon]
            rfl
          · rw [← size]
            simp
            omega
        · cases found
  · rintro ⟨boundary, head, run, rest, isHead, nonempty, all, stops, rfl, size, rfl⟩
    obtain ⟨c, scheme, alpha, schemes, rfl⟩ := isHead.parts
    obtain ⟨path, _⟩ := takeWhile_run all stops
    have whole : c :: (scheme ++ "://".toList) ++ (run ++ rest) =
        c :: (scheme ++ (':' :: '/' :: '/' :: (run ++ rest))) := by simp
    rw [whole, urls_of_scheme boundary alpha schemes]
    rw [path, if_neg nonempty]
    refine congrArg some (Prod.ext ?_ rfl)
    simp at size ⊢
    omega

/-- The first character of the remainder is enough. -/
theorem urls_ne_none {prev : Option Char} {l head rest : List Char} {c : Char}
    (boundary : prev.any isWord = false) (isHead : IsUrlHead head) (inside : inUrl c)
    (text : l = head ++ c :: rest) : urls prev l ≠ none := by
  have whole : (c :: rest).takeWhile inUrl ++ (c :: rest).dropWhile inUrl = c :: rest :=
    List.takeWhile_append_dropWhile
  have nonempty : (c :: rest).takeWhile inUrl ≠ [] := by
    rw [List.takeWhile_cons_of_pos inside]
    exact List.cons_ne_nil _ _
  have found : urls prev l = some (head.length + ((c :: rest).takeWhile inUrl).length - 1,
      "[redacted URL]".toList) := by
    refine urls_eq_some_iff.mpr ⟨boundary, head, (c :: rest).takeWhile inUrl,
      (c :: rest).dropWhile inUrl, isHead, nonempty, fun d mem => List.mem_takeWhile_imp mem,
      stops_dropWhile inUrl (c :: rest), by rw [whole, text], ?_, rfl⟩
    have some := List.length_pos_iff.mpr nonempty
    omega
  rw [found]
  exact Option.some_ne_none _

theorem urls_eq_none (prev : Option Char) {c : Char} (other : c.isAlpha = false) (l : List Char) :
    urls prev (c :: l) = none := by
  rw [urls, other, Bool.not_false, Bool.or_true, if_pos rfl]

theorem urls_steady {c : Char} (other : c.isAlpha = false) : Steady urls c where
  blind prev prev' l := by rw [urls_eq_none prev other, urls_eq_none prev' other]
  keeps prev l n r found := by
    rw [urls_eq_none prev other] at found
    cases found

/-- A URL that a foreign character follows begins before it: all of its head does, and it is a URL
whatever follows unless its head is all that does. -/
theorem urls_before {prev : Option Char} {c d : Char} {l rest : List Char} (foreign : Foreign d)
    (found : urls prev (c :: (l ++ d :: rest)) ≠ none) : prev.any isWord = false ∧
      ∃ head, IsUrlHead head ∧ ((inUrl d ∧ c :: l = head) ∨
        ∃ e l', inUrl e ∧ c :: l = head ++ e :: l') := by
  obtain ⟨match_, some⟩ := Option.ne_none_iff_exists'.mp found
  obtain ⟨boundary, head, run, rest', isHead, nonempty, all, _, text, _⟩ :=
    urls_eq_some_iff.mp some
  refine ⟨boundary, head, isHead, ?_⟩
  rw [← List.cons_append] at text
  obtain ⟨w, whole, same⟩ := append_of_not_mem (foreign.not_mem isHead) text
  cases run with
  | nil => exact absurd rfl nonempty
  | cons e run =>
      have inside := all e List.mem_cons_self
      cases w with
      | nil => exact .inl ⟨(List.cons.inj same).1 ▸ inside, by rw [whole, List.append_nil]⟩
      | cons f w => exact .inr ⟨f, w, (List.cons.inj same).1 ▸ inside, whole⟩

/-- No URL begins before a foreign character if no `/` stands there. -/
theorem free_of_quiet {d : Char} {l rest : List Char} (foreign : Foreign d) (quiet : '/' ∉ l)
    (free : Free urls (some d) rest) (prev : Option Char) : Free urls prev (l ++ d :: rest) := by
  induction l generalizing prev with
  | nil => exact ⟨urls_eq_none prev foreign.isAlpha rest, free⟩
  | cons c l ih =>
      refine ⟨?_, ih (fun mem => quiet (List.mem_cons_of_mem c mem)) (some c)⟩
      by_contra found
      obtain ⟨_, head, isHead, ⟨_, whole⟩ | ⟨e, l', _, whole⟩⟩ := urls_before foreign found
      · exact quiet (whole ▸ slash_mem_urlHead isHead)
      · exact quiet (whole ▸ List.mem_append_left _ (slash_mem_urlHead isHead))

theorem free_of_ended {d : Char} {l whole rest : List Char} (shape : whole = l ++ [d])
    (foreign : Foreign d) (quiet : '/' ∉ l) {prev : Option Char}
    (free : Free urls (last prev whole) rest) : Free urls prev (whole ++ rest) := by
  rw [shape, last_append] at free
  rw [shape, List.append_assoc]
  exact free_of_quiet foreign quiet free prev

/-- A foreign character in the place of what followed makes no URL where there was none, unless a
URL's head ends there. -/
theorem urls_still {prev : Option Char} {c d : Char} {l rest : List Char}
    (none : urls prev (c :: (l ++ rest)) = none) (foreign : Foreign d)
    (closed : inUrl d → IsUrlHead (c :: l) → ∃ e rest', inUrl e ∧ rest = e :: rest')
    (rest' : List Char) : urls prev (c :: (l ++ d :: rest')) = Option.none := by
  by_contra found
  obtain ⟨boundary, head, isHead, ⟨inside, rfl⟩ | ⟨e, l', inside, whole⟩⟩ := urls_before foreign found
  · obtain ⟨e, rest, inside, rfl⟩ := closed inside isHead
    exact urls_ne_none boundary isHead inside rfl none
  · have text : c :: (l ++ rest) = head ++ e :: (l' ++ rest) := by
      rw [← List.cons_append, whole, List.append_assoc, List.cons_append]
    exact urls_ne_none boundary isHead inside text none

theorem inUrl_of_isAlpha {c : Char} (alpha : c.isAlpha) : inUrl c := by
  have spaceless : isSpace c = false := by
    cases space : isSpace c with
    | false => rfl
    | true =>
        rw [isAlpha_of_space space] at alpha
        cases alpha
  have plain : c ≠ '"' ∧ c ≠ '\'' := by
    constructor <;> rintro rfl <;> exact absurd alpha (by decide)
  simp [inUrl, spaceless, plain]

theorem foreign_bracket : Foreign '[' := ⟨by decide, by decide, by decide⟩

theorem foreign_closing : Foreign ']' := ⟨by decide, by decide, by decide⟩

theorem foreign_quote : Foreign '"' := ⟨by decide, by decide, by decide⟩

theorem blind_of_head {prev prev' : Option Char} {l : List Char}
    (other : ∀ c ∈ l.head?, c.isAlpha = false) : Blind urls prev prev' l :=
  fun c first _ => (urls_steady (other c first)).blind prev prev' _

/-- The first replacement leaves no URL. -/
theorem free_urls (l : List Char) : Free urls none (replace urls l) := by
  refine free_scan ?still ?made l 0 none none (idle_self l none) fun _ _ _ => rfl
  case still =>
    intro prev c l none _
    obtain same | ⟨start, d, l', n, r, out, rfl, found, result⟩ := scan_cases (P := urls) l (some c)
    · rw [same]
      exact none
    · obtain ⟨_, head, run, rest, isHead, _, _, _, text, _, rfl⟩ := urls_eq_some_iff.mp found
      obtain ⟨e, scheme, alpha, _, rfl⟩ := isHead.parts
      rw [result]
      refine urls_still none foreign_bracket (fun _ _ => ⟨d, l', ?_, rfl⟩) _
      rw [(List.cons.inj text).1]
      exact inUrl_of_isAlpha alpha
  case made =>
    intro prev c l n r found prev'
    obtain ⟨_, head, run, rest, isHead, _, _, stops, text, size, rfl⟩ := urls_eq_some_iff.mp found
    rw [← List.append_assoc] at text
    obtain ⟨_, left⟩ := take_drop_of_append text (size.trans List.length_append.symm)
    refine ⟨blind_of_head fun d first => ?_, fun out free => ?_⟩
    · cases alpha : d.isAlpha with
      | false => rfl
      | true =>
          have stop := stops d (left ▸ first)
          rw [inUrl_of_isAlpha alpha] at stop
          cases stop
    · have shape : "[redacted URL]".toList = "[redacted URL".toList ++ [']'] := by decide
      exact free_of_ended shape foreign_closing (by decide) free

/-- The second one makes none. -/
theorem free_urls_members {l : List Char} (free : Free urls none l) :
    Free urls none (replace members l) := by
  refine free_scan ?still ?made l 0 none none (idle_of_free l none free) fun _ _ _ => rfl
  case still =>
    intro prev c l _ none
    obtain same | ⟨start, head, body, rest, out, isHead, _, text, result⟩ :=
      scan_members_cases (some c) l
    · rw [same]
      exact none
    · obtain ⟨opening, rfl, _⟩ := memberHead_quote isHead
      rw [result, ← List.append_assoc start, ← List.append_assoc start, List.append_assoc]
      rw [text, ← List.append_assoc start, ← List.append_assoc start, List.append_assoc] at none
      exact urls_still none foreign_quote (fun inside => absurd inside (by decide)) _
  case made =>
    intro prev c l n r found prev'
    obtain ⟨head, body, rest, isHead, _, text, size, rfl⟩ := members_eq_some_iff.mp found
    have before : last prev' (head ++ "[redacted]\"".toList) = some '"' := by
      rw [last_append]
      rfl
    refine ⟨?_, fun out free => ?_⟩
    · have whole : c :: l = (head ++ (body ++ ['"'])) ++ rest := by simp [text]
      obtain ⟨taken, _⟩ := take_drop_of_append (n := n) whole (by simp [size]; omega)
      have behind : last (some c) (l.take n) = some '"' := by
        change last none (c :: l.take n) = some '"'
        rw [taken, last_append, last_append]
        rfl
      rw [before, behind]
      exact fun _ _ _ => rfl
    · have quiet : '/' ∉ head ++ "[redacted]".toList := by
        have absent := not_mem_memberHead isHead (c := '/') (by decide) (by decide)
          (by decide)
        simp [absent]
      have shape : "[redacted]\"".toList = "[redacted]".toList ++ ['"'] := by decide
      refine free_of_ended ?_ foreign_quote quiet free
      rw [shape, List.append_assoc]

/-- The third one makes none. -/
theorem free_urls_values {l : List Char} (free : Free urls none l) :
    Free urls none (replace values l) := by
  refine free_scan ?still ?made l 0 none none (idle_of_free l none free) fun _ _ _ => rfl
  case still =>
    intro prev c l _ none
    obtain same | ⟨start, key, head, d, rest, out, isHead, _, text, result⟩ :=
      scan_values_cases (some c) l
    · rw [same]
      exact none
    · obtain ⟨before, sep, after, _, _, _, rfl⟩ := isHead.parts
      rw [result, ← List.append_assoc]
      rw [text, List.append_assoc, ← List.append_assoc start] at none
      refine urls_still none ⟨by decide, by decide, by decide⟩ (fun _ isHead' => ?_) _
      -- A URL's head ends with a `/`, and a name does not.
      obtain ⟨e, scheme, _, _, whole⟩ := isHead'.parts
      have ends : (c :: start) ++ key = (e :: (scheme ++ ":/".toList)) ++ ['/'] := by
        simpa using whole
      exact absurd (end_of_key isHead.isKey ends) (mark_not_mem isHead.isKey (by decide))
  case made =>
    intro prev c l n r found prev'
    obtain ⟨_, key, head, run, rest, isHead, _, _, stops, _, _, left, rfl⟩ := values_span found
    refine ⟨blind_of_head fun d first => isAlpha_of_separator (stops d (left ▸ first)),
      fun out free => ?_⟩
    have quiet : '/' ∉ key ++ "=[redacted".toList := by
      have absent : '/' ∉ key := mark_not_mem isHead.isKey (by decide)
      simp [absent]
    have shape : "=[redacted]".toList = "=[redacted".toList ++ [']'] := by decide
    refine free_of_ended ?_ foreign_closing quiet free
    rw [shape, List.append_assoc]

end Urls

/-- The remainder of a URL, and what follows it. -/
structure IsRemainder (run rest : List Char) : Prop where
  nonempty : run ≠ []
  inside : ∀ c ∈ run, inUrl c
  stops : ∀ c ∈ rest.head?, inUrl c = false

section Hidden
variable {head : List Char}

theorem inUrl_of_isScheme {c : Char} (scheme : isScheme c) : inUrl c := by
  have shape : ((c.isAlpha ∨ c.isDigit) ∨ c = '+' ∨ c = '.') ∨ c = '-' := by
    simpa [isScheme, Char.isAlphanum, or_assoc] using scheme
  obtain ((alpha | digit) | rfl | rfl) | rfl := shape
  · exact inUrl_of_isAlpha alpha
  · have number : 48 ≤ c.toNat ∧ c.toNat ≤ 57 := by
      simpa [Char.isDigit, UInt32.le_iff_toNat_le] using digit
    have spaceless : c.toNat ≠ 32 ∧ (c.toNat < 9 ∨ 13 < c.toNat) := by omega
    have quotes : c.toNat ≠ 34 ∧ c.toNat ≠ 39 := by omega
    simpa [inUrl, isSpace, ← Char.toNat_inj, and_assoc] using And.intro spaceless quotes
  · decide
  · decide
  · decide

theorem inUrl_of_mem_head (isHead : IsUrlHead head) {c : Char} (mem : c ∈ head) : inUrl c := by
  obtain ⟨d, scheme, alpha, all, rfl⟩ := isHead.parts
  have places : c = d ∨ c ∈ scheme ∨ c = ':' ∨ c = '/' := by
    simpa [or_comm, or_left_comm] using mem
  obtain rfl | mem | rfl | rfl := places
  · exact inUrl_of_isAlpha alpha
  · exact inUrl_of_isScheme (all c mem)
  · decide
  · decide

/-- A match that begins before a URL ends before it or takes it whole, whatever its remainder is. -/
theorem urls_toward (isHead : IsUrlHead head) (prev : Option Char) (c : Char) (a : List Char) :
    (∀ run rest, IsRemainder run rest → urls prev (c :: (a ++ (head ++ (run ++ rest)))) = none) ∨
    (∃ n ≤ a.length, ∀ run rest, IsRemainder run rest →
      urls prev (c :: (a ++ (head ++ (run ++ rest)))) = some (n, "[redacted URL]".toList)) ∨
    (∀ run rest, IsRemainder run rest → urls prev (c :: (a ++ (head ++ (run ++ rest)))) =
      some (a.length + head.length + run.length, "[redacted URL]".toList)) := by
  by_cases start : prev.any isWord = false ∧ c.isAlpha
  case neg =>
    refine .inl fun run rest _ => ?_
    rw [urls, if_pos]
    simpa [imp_iff_not_or, or_comm] using start
  obtain ⟨boundary, alpha⟩ := start
  obtain ⟨d, scheme, alpha', schemes, rfl⟩ := isHead.parts
  have split : a.takeWhile isScheme ++ a.dropWhile isScheme = a := List.takeWhile_append_dropWhile
  have all : ∀ e ∈ a.takeWhile isScheme, isScheme e := fun e mem => List.mem_takeWhile_imp mem
  have stops := stops_dropWhile isScheme a
  generalize a.takeWhile isScheme = before at split all
  cases behind : a.dropWhile isScheme with
  | nil =>
      rw [behind, List.append_nil] at split
      subst split
      refine .inr (.inr fun run rest remainder => ?_)
      refine urls_eq_some_iff.mpr ⟨boundary, c :: ((before ++ d :: scheme) ++ "://".toList), run, rest,
        ⟨c, before ++ d :: scheme, alpha, ?_, rfl⟩, remainder.nonempty, remainder.inside,
        remainder.stops, by simp, ?_, rfl⟩
      · intro e mem
        obtain mem | rfl | mem : e ∈ before ∨ e = d ∨ e ∈ scheme := by simpa using mem
        · exact all e mem
        · exact isScheme_of_isAlpha alpha'
        · exact schemes e mem
      · simp
        omega
  | cons e behind' =>
      rw [behind] at split stops
      subst split
      by_cases colon : ∃ path, e :: behind' = ':' :: '/' :: '/' :: path
      case neg =>
        refine .inl fun run rest _ => ?_
        rw [List.append_assoc]
        refine urls_of_other all (fun f first => stops f first) fun path same => colon ?_
        -- A `:` or `:/` at the end has the URL's letter behind it.
        have letter : d ≠ '/' := by rintro rfl; exact absurd alpha' (by decide)
        obtain ⟨rfl, slashes⟩ := List.cons.inj same
        cases behind' with
        | nil => exact absurd (List.cons.inj slashes).1 letter
        | cons f behind' =>
            obtain ⟨rfl, slash⟩ := List.cons.inj slashes
            cases behind' with
            | nil => exact absurd (List.cons.inj slash).1 letter
            | cons g behind' => exact ⟨behind', by rw [(List.cons.inj slash).1]⟩
      obtain ⟨path, whole⟩ := colon
      rw [whole]
      have text (rest : List Char) : (before ++ ':' :: '/' :: '/' :: path) ++ rest =
          before ++ ':' :: '/' :: '/' :: (path ++ rest) := by simp
      have cut : path.takeWhile inUrl ++ path.dropWhile inUrl = path := List.takeWhile_append_dropWhile
      have inside : ∀ f ∈ path.takeWhile inUrl, inUrl f := fun f mem => List.mem_takeWhile_imp mem
      have stops' := stops_dropWhile inUrl path
      generalize path.takeWhile inUrl = taken at cut inside
      cases left : path.dropWhile inUrl with
      | nil =>
          rw [left, List.append_nil] at cut
          subst cut
          refine .inr (.inr fun run rest remainder => ?_)
          have reaches : ∀ f ∈ (taken ++ (d :: (scheme ++ "://".toList))) ++ run, inUrl f := by
            intro f mem
            obtain mem | mem := List.mem_append.mp mem
            · obtain mem | mem := List.mem_append.mp mem
              · exact inside f mem
              · exact inUrl_of_mem_head isHead mem
            · exact remainder.inside f mem
          obtain ⟨longest, _⟩ := takeWhile_run reaches remainder.stops
          rw [List.append_assoc, List.append_assoc] at longest
          rw [text, urls_of_scheme boundary alpha all, longest, if_neg (by simp)]
          refine congrArg some (Prod.ext ?_ rfl)
          simp
          omega
      | cons g left' =>
          rw [left] at cut stops'
          subst cut
          have longest (rest : List Char) : ((taken ++ g :: left') ++ rest).takeWhile inUrl = taken := by
            have stop : ∀ f ∈ (g :: (left' ++ rest)).head?, inUrl f = false :=
              fun f first => stops' f first
            rw [List.append_assoc]
            exact (takeWhile_run inside stop).1
          by_cases empty : taken = []
          · refine .inl fun run rest _ => ?_
            rw [text, urls_of_scheme boundary alpha all, longest, if_pos empty]
          · refine .inr (.inl ⟨before.length + 3 + taken.length, ?_, fun run rest _ => ?_⟩)
            · simp
              omega
            · rw [text, urls_of_scheme boundary alpha all, longest, if_neg empty]

theorem urls_at (isHead : IsUrlHead head) {prev : Option Char} (boundary : prev.any isWord = false)
    {run rest : List Char} (remainder : IsRemainder run rest) : urls prev (head ++ (run ++ rest)) =
      some (head.length + run.length - 1, "[redacted URL]".toList) := by
  refine urls_eq_some_iff.mpr ⟨boundary, head, run, rest, isHead, remainder.nonempty,
    remainder.inside, remainder.stops, rfl, ?_, rfl⟩
  have some := List.length_pos_iff.mpr remainder.nonempty
  omega

/-- What stands before a URL's remainder is treated alike whatever the remainder is, and a match
takes the remainder to its end. -/
theorem url_hidden (isHead : IsUrlHead head) {run run' rest : List Char}
    (remainder : IsRemainder run rest) (remainder' : IsRemainder run' rest) (a : List Char)
    (skip : Nat) (prev : Option Char) (inside : skip ≤ a.length)
    (boundary : (last prev a).any isWord = false) :
    pending urls skip prev (a ++ head) (run ++ rest) = run.length ∧
      Alike urls skip prev (a ++ head) (run ++ rest) (run' ++ rest) := by
  induction a generalizing skip prev with
  | nil =>
      obtain rfl := Nat.le_zero.mp inside
      have found := urls_at isHead boundary remainder
      have found' := urls_at isHead boundary remainder'
      obtain ⟨c, scheme, _, _, rfl⟩ := isHead.parts
      have size : (c :: (scheme ++ "://".toList)).length = (scheme ++ "://".toList).length + 1 := rfl
      refine ⟨?_, alike_of_some found found' (by omega) (alike_of_le _ _ _ _ _ (by omega))⟩
      refine (pending_of_some found).trans ((pending_of_le _ _ _ _ (by omega)).trans ?_)
      omega
  | cons c a ih =>
      cases skip with
      | succ skip => exact ih skip (some c) (Nat.le_of_succ_le_succ inside) boundary
      | zero =>
          rw [List.cons_append]
          obtain other | ⟨n, ends, same⟩ | reaches := urls_toward isHead prev c a
          · have found := other run rest remainder
            have found' := other run' rest remainder'
            rw [← List.append_assoc] at found found'
            obtain ⟨later, alike⟩ := ih 0 (some c) (Nat.zero_le _) boundary
            exact ⟨(pending_of_none found).trans later, alike_of_none found found' alike⟩
          · have found := same run rest remainder
            have found' := same run' rest remainder'
            rw [← List.append_assoc] at found found'
            obtain ⟨later, alike⟩ := ih n (some c) ends boundary
            exact ⟨(pending_of_some found).trans later, alike_of_some found found' rfl alike⟩
          · have found := reaches run rest remainder
            have found' := reaches run' rest remainder'
            rw [← List.append_assoc] at found found'
            have size : (a ++ head).length = a.length + head.length := List.length_append
            refine ⟨?_, alike_of_some found found' (by omega) (alike_of_le _ _ _ _ _ (by omega))⟩
            rw [pending_of_some found, pending_of_le _ _ _ _ (by omega)]
            omega

/-- A URL that begins where no word does is hidden by the first replacement. -/
theorem masked_url (isHead : IsUrlHead head) {a run run' rest : List Char}
    (boundary : (last none a).any isWord = false) (remainder : IsRemainder run rest)
    (remainder' : IsRemainder run' rest) (Ps : List (Pattern Char)) :
    Masked (urls :: Ps) (a ++ head) run run' rest := by
  obtain ⟨takes, alike⟩ := url_hidden isHead remainder remainder' a 0 none (Nat.zero_le _) boundary
  obtain ⟨takes', _⟩ := url_hidden isHead remainder' remainder a 0 none (Nat.zero_le _) boundary
  refine ⟨alike, .inl ⟨takes.ge, takes'.ge, ?_⟩⟩
  rw [takes, takes', Nat.sub_self, Nat.sub_self]

end Hidden
end AppriseNotifications
end CortenDesk
