import CortenDesk.Notifications.RedactedUrls

/-!
The redaction of an error that has been redacted: it changes nothing where the third replacement
leaves the quoted members as it finds them, whole or open.
-/
namespace CortenDesk
namespace AppriseNotifications
open Php Replace

/-- A part of a string that neither ends it nor leaves an escape open. -/
def Runs (l : List Char) : Prop := ∀ rest, closes (l ++ rest) = closes rest

/-- Where a pair ends in a redacted member, the quote that closes it opens no other one, and where a
backslash at the end of a line leaves a member open before another quote, a pair ends there only if
the member's own head is part of one. -/
structure Intact (l : List Char) : Prop where
  whole : ∀ start head rest, IsMemberHead head →
    l = start ++ ((head ++ "[redacted]\"".toList) ++ rest) →
    pending values 0 none start ((head ++ "[redacted]\"".toList) ++ rest) = 0 ∨
      head.length + 11 ≤ pending values 0 none start ((head ++ "[redacted]\"".toList) ++ rest) ∨
      memberHead ('"' :: rest) = none
  broken : ∀ start head body rest, IsMemberHead head → Runs body → '"' ∈ rest →
    l = start ++ ((head ++ body) ++ '\\' :: '\n' :: rest) →
    pending values 0 none start ((head ++ body) ++ '\\' :: '\n' :: rest) = 0 →
    pending values 0 none (start ++ (head ++ body)) ('\\' :: '\n' :: rest) = 0

section Strings

theorem runs_nil : Runs [] := fun _ => rfl

theorem Runs.append {a b : List Char} (first : Runs a) (second : Runs b) : Runs (a ++ b) := by
  intro rest
  rw [List.append_assoc, first, second]

theorem runs_plain {c : Char} (quote : c ≠ '"') (slash : c ≠ '\\') : Runs [c] :=
  closes_plain quote slash

theorem runs_escape {c : Char} (escaped : c ≠ '\n') : Runs ['\\', c] := closes_escaped escaped

theorem runs_of_forall {l : List Char} (plain : ∀ c ∈ l, c ≠ '"' ∧ c ≠ '\\') : Runs l := by
  induction l with
  | nil => exact runs_nil
  | cons c l ih =>
      obtain ⟨quote, slash⟩ := plain c List.mem_cons_self
      exact (runs_plain quote slash).append (ih fun d mem => plain d (List.mem_cons_of_mem c mem))

/-- Behind a plain character a part of a string begins. -/
theorem Runs.tail {c : Char} {l : List Char} (runs : Runs (c :: l)) (quote : c ≠ '"')
    (slash : c ≠ '\\') : Runs l :=
  fun rest => (closes_plain quote slash _).symm.trans (runs rest)

/-- What stands in an open string runs through it, or its last backslash escapes what follows. -/
theorem runs_or_escape {l rest : List Char} (unbroken : ∀ a b, l ≠ a ++ '\\' :: '\n' :: b)
    (open' : closes (l ++ rest) = none) : Runs l ∨ ∃ body, l = body ++ ['\\'] ∧ Runs body := by
  induction l using closes_cases with
  | nil => exact .inl runs_nil
  | slash => exact .inr ⟨[], rfl, runs_nil⟩
  | quote l => cases open'
  | broken l => exact absurd rfl (unbroken [] l)
  | escape c l other ih =>
      have inner : ∀ a b, l ≠ a ++ '\\' :: '\n' :: b := by
        rintro a b rfl
        exact unbroken ('\\' :: c :: a) b rfl
      rw [List.cons_append, List.cons_append, closes_escaped other] at open'
      obtain runs | ⟨body, rfl, runs⟩ := ih inner open'
      · exact .inl ((runs_escape other).append runs)
      · exact .inr ⟨'\\' :: c :: body, rfl, (runs_escape other).append runs⟩
  | plain c l quote slash ih =>
      have inner : ∀ a b, l ≠ a ++ '\\' :: '\n' :: b := by
        rintro a b rfl
        exact unbroken (c :: a) b rfl
      rw [List.cons_append, closes_plain quote slash] at open'
      obtain runs | ⟨body, rfl, runs⟩ := ih inner open'
      · exact .inl ((runs_plain quote slash).append runs)
      · exact .inr ⟨c :: body, rfl, (runs_plain quote slash).append runs⟩

theorem closes_of_unquoted {l : List Char} (unquoted : '"' ∉ l) : closes l = none := by
  cases closed : closes l with
  | none => rfl
  | some rest =>
      obtain ⟨body, _, rfl⟩ := closes_eq_some closed
      exact absurd (by simp) unquoted

end Strings

section Pairs

theorem not_mem_valueHead {key head : List Char} (isHead : IsValueHead key head) {c : Char}
    (mark : c ∈ marks) (equals : c ≠ '=') (colon : c ≠ ':') : c ∉ head := by
  obtain ⟨before, sep, after, blank, separates, blank', rfl⟩ := isHead.parts
  have unnamed := mark_not_mem isHead.isKey mark
  have apart (spaces : List Char) (all : ∀ c ∈ spaces, isSpace c) : c ∉ spaces := by
    intro mem
    have space := all c mem
    rw [isSpace_of_mark mark] at space
    cases space
  have other : c ≠ sep := by
    obtain rfl | rfl := separates
    · exact equals
    · exact colon
  simp [unnamed, other, apart before blank, apart after blank']

theorem quiet_of_isAlpha {l : List Char} (other : ∀ c ∈ l, c.isAlpha = false) (prev : Option Char)
    (rest : List Char) : Quiet values prev l rest := by
  induction l generalizing prev with
  | nil => trivial
  | cons c l ih =>
      exact ⟨values_eq_none prev (other c List.mem_cons_self) _,
        ih (fun d mem => other d (List.mem_cons_of_mem c mem)) (some c)⟩

/-- No pair begins where a quote comes before the next separator. -/
theorem quiet_of_quoted {l : List Char} (equals : '=' ∉ l) (colon : ':' ∉ l) (prev : Option Char)
    (rest : List Char) : Quiet values prev l ('"' :: rest) := by
  induction l generalizing prev with
  | nil => trivial
  | cons c l ih =>
      refine ⟨?_, ih (fun mem => equals (List.mem_cons_of_mem c mem))
        (fun mem => colon (List.mem_cons_of_mem c mem)) (some c)⟩
      cases found : values prev (c :: (l ++ '"' :: rest)) with
      | none => rfl
      | some match_ =>
          obtain ⟨_, key, head, run, rest', isHead, _, _, _, text, _⟩ := values_eq_some_iff.mp found
          have unquoted : '"' ∉ head :=
            not_mem_valueHead isHead (by decide) (by decide) (by decide)
          rw [← List.cons_append] at text
          obtain ⟨w, whole, _⟩ := append_of_not_mem unquoted text
          obtain ⟨before, sep, after, _, separates, _, rfl⟩ := isHead.parts
          have mem : sep ∈ c :: l := by
            rw [whole]
            simp
          obtain rfl | rfl := separates
          · exact absurd mem equals
          · exact absurd mem colon

/-- No pair begins in the head of a member. -/
theorem quiet_memberHead {head : List Char} (isHead : IsMemberHead head) (prev : Option Char)
    (rest : List Char) : Quiet values prev head rest := by
  obtain ⟨key, before, after, isKey, blank, blank', rfl⟩ := isHead
  have named : Quiet values (some '"') key ('"' :: (before ++ ':' :: (after ++ ['"'])) ++ rest) :=
    quiet_of_quoted (fun mem => (isSpace_of_mem_key isKey mem).2.1 rfl)
      (fun mem => (isSpace_of_mem_key isKey mem).2.2 rfl) _ _
  refine ⟨values_eq_none prev (by decide) _, quiet_append named (quiet_of_isAlpha ?_ _ rest)⟩
  intro c mem
  have parts : c = '"' ∨ c ∈ before ∨ c = ':' ∨ c ∈ after := by
    simp only [List.mem_cons, List.mem_append, List.not_mem_nil, or_false] at mem
    tauto
  obtain rfl | mem | rfl | mem := parts
  · decide
  · exact isAlpha_of_space (blank c mem)
  · decide
  · exact isAlpha_of_space (blank' c mem)

theorem quote_isAlpha : ∀ c ∈ ['"'], c.isAlpha = false := by
  intro c mem
  rw [List.mem_singleton.mp mem]
  decide

theorem quiet_redacted {head : List Char} (isHead : IsMemberHead head) (prev : Option Char)
    (rest : List Char) : Quiet values prev (head ++ "[redacted]\"".toList) rest := by
  refine quiet_append (quiet_memberHead isHead prev _) ?_
  exact quiet_append (a := "[redacted]".toList) (b := ['"'])
    (quiet_of_quoted (by decide) (by decide) _ rest) (quiet_of_isAlpha quote_isAlpha _ rest)

/-- A backslash that ends a line stands in no pair. -/
theorem values_unbroken {key head run : List Char} (isHead : IsValueHead key head)
    (all : ∀ c ∈ run, inValue c) (a b : List Char) : head ++ run ≠ a ++ '\\' :: '\n' :: b := by
  intro same
  have absent : '\\' ∉ head :=
    not_mem_valueHead isHead (by decide) (by decide) (by decide)
  obtain ⟨w, _, tail⟩ := append_of_not_mem absent same.symm
  have value := all '\n' (by simp [← tail])
  exact absurd value (by decide)

theorem runs_redacted {key : List Char} (isKey : IsKey key) : Runs (key ++ "=[redacted]".toList) := by
  have quote : '"' ∉ key := mark_not_mem isKey (by decide)
  have slash : '\\' ∉ key := mark_not_mem isKey (by decide)
  refine Runs.append (runs_of_forall fun c mem => ⟨?_, ?_⟩) fun _ => rfl
  · rintro rfl
    exact quote mem
  · rintro rfl
    exact slash mem

theorem not_mem_redacted {key : List Char} (isKey : IsKey key) :
    '"' ∉ key ++ "=[redacted]".toList := by
  have absent : '"' ∉ key := mark_not_mem isKey (by decide)
  simp [absent]

theorem not_mem_scan_values {l : List Char} (unquoted : '"' ∉ l) (prev : Option Char) :
    '"' ∉ scan values 0 prev l := by
  intro mem
  obtain mem | ⟨prev, c, l', n, r, found, mem⟩ := mem_scan l 0 prev mem
  · exact unquoted mem
  · obtain ⟨_, key, _, _, _, isHead, _, _, _, _, _, _, rfl⟩ := values_span found
    exact not_mem_redacted isHead.isKey mem

/-- The condition on an open string, as its parts see it. -/
def Kept (prev : Option Char) (l : List Char) : Prop :=
  ∀ body rest, Runs body → '"' ∈ rest → l = body ++ '\\' :: '\n' :: rest →
    pending values 0 prev body ('\\' :: '\n' :: rest) = 0

theorem Kept.tail {prev : Option Char} {l rest : List Char} (kept : Kept prev (l ++ rest))
    (none : pending values 0 prev l rest = 0)
    (runs : ∀ body rest', Runs body → rest = body ++ '\\' :: '\n' :: rest' → Runs (l ++ body)) :
    Kept (last prev l) rest := by
  rintro body rest' isBody quoted rfl
  have whole := kept (l ++ body) rest' (runs body rest' isBody rfl) quoted
    (List.append_assoc _ _ _).symm
  rwa [pending_append, none] at whole

/-- Where the last backslash of a text ends a match, it does so from before. -/
theorem pending_before_slash {prev : Option Char} {c : Char} {l body r rest : List Char} {n : Nat}
    (found : values prev (c :: (l ++ rest)) = some (n, r)) (size : l.length = n)
    (escaped : c :: l = body ++ ['\\']) : pending values 0 prev body ('\\' :: rest) ≠ 0 := by
  have alpha : c.isAlpha := by
    by_contra other
    rw [values_eq_none prev (by simpa using other)] at found
    cases found
  cases body with
  | nil =>
      rw [(List.cons.inj escaped).1] at alpha
      exact absurd alpha (by decide)
  | cons d body =>
      obtain ⟨rfl, rfl⟩ := List.cons.inj escaped
      rw [List.append_eq, List.append_assoc, List.singleton_append] at found
      rw [List.append_eq, List.length_append, List.length_singleton] at size
      rw [pending_of_some found, pending_of_le _ _ _ _ (by omega)]
      omega

/-- Behind a pair in an open string the string is open, or no quote follows. -/
theorem open_behind_pair {prev : Option Char} {c : Char} {l r : List Char} {n : Nat}
    (found : values prev (c :: l) = some (n, r)) (open' : closes (c :: l) = none)
    (kept : Kept prev (c :: l)) :
    closes (l.drop n) = none ∧ Kept (last (some c) (l.take n)) (l.drop n) ∨ '"' ∉ l.drop n := by
  obtain ⟨_, key, head, run, rest, isHead, _, all, stops, span, size, left, _⟩ := values_span found
  have text : c :: l = (c :: l.take n) ++ l.drop n := by
    rw [List.cons_append, List.take_append_drop]
  have found' : values prev (c :: (l.take n ++ l.drop n)) = some (n, r) := by
    rwa [List.take_append_drop]
  have stopped : pending values 0 prev (c :: l.take n) (l.drop n) = 0 := by
    rw [pending_of_some found', pending_of_le _ _ _ _ size.le, size, Nat.sub_self]
  have unbroken := span ▸ values_unbroken isHead all
  rw [text] at open' kept
  obtain runs | ⟨body, escaped, runs⟩ := runs_or_escape unbroken open'
  · refine .inl ⟨(runs _).symm.trans open', ?_⟩
    exact kept.tail stopped fun body _ isBody _ => runs.append isBody
  · -- The last backslash of the value escapes what follows.
    cases here : l.drop n with
    | nil => exact .inr List.not_mem_nil
    | cons d rest' =>
        by_cases quoted : '"' ∈ rest'
        case neg =>
          refine .inr fun mem => ?_
          obtain rfl | mem := List.mem_cons.mp mem
          · exact absurd (stops '"' (by rw [← left, here]; rfl)) (by decide)
          · exact quoted mem
        have separates : inValue d = false := stops d (by rw [← left, here]; rfl)
        rw [here] at open' kept found' stopped
        rw [escaped, List.append_assoc, runs] at open'
        have feed : d ≠ '\n' := by
          rintro rfl
          refine pending_before_slash found' size escaped (kept body rest' runs quoted ?_)
          rw [escaped, List.append_assoc]
          rfl
        have quote : d ≠ '"' := by rintro rfl; exact absurd separates (by decide)
        have slash : d ≠ '\\' := by rintro rfl; exact absurd separates (by decide)
        have closed : closes rest' = none := (closes_escaped feed rest').symm.trans open'
        refine .inl ⟨(closes_plain quote slash rest').trans closed, kept.tail stopped ?_⟩
        intro body' rest'' isBody same
        cases body' with
        | nil => exact absurd (List.cons.inj same).1 slash
        | cons e body' =>
            obtain rfl := (List.cons.inj same).1
            rw [escaped, List.append_assoc]
            exact runs.append ((runs_escape feed).append (isBody.tail quote slash))

theorem ne_of_isAlpha {c : Char} (alpha : c.isAlpha) : c ≠ '"' ∧ c ≠ '\\' := by
  constructor <;> rintro rfl <;> exact absurd alpha (by decide)

/-- Behind a backslash a pair may begin: its first letter is escaped, and is kept. -/
theorem closes_escaped_scan {c : Char} {l : List Char} (feed : c ≠ '\n')
    (later : c.isAlpha → closes (scan values 0 (some '\\') (c :: l)) = none)
    (other : c.isAlpha = false → closes (scan values 0 (some c) l) = none) :
    closes ('\\' :: scan values 0 (some '\\') (c :: l)) = none := by
  cases alpha : c.isAlpha with
  | true =>
      obtain ⟨quote, slash⟩ := ne_of_isAlpha alpha
      have open' := later alpha
      obtain ⟨out, begins⟩ := scan_values_cons (some '\\') c l
      rw [begins] at open' ⊢
      rw [closes_escaped feed]
      exact (closes_plain quote slash out).symm.trans open'
  | false =>
      rw [scan, values_eq_none _ alpha]
      dsimp only
      rw [closes_escaped feed]
      exact other alpha

theorem Kept.escape {prev : Option Char} {c : Char} {l : List Char} (kept : Kept prev ('\\' :: c :: l))
    (alone : pending values 0 prev ['\\'] (c :: l) = 0) (feed : c ≠ '\n') (alpha : c.isAlpha) :
    Kept (some '\\') (c :: l) := by
  obtain ⟨quote, slash⟩ := ne_of_isAlpha alpha
  refine kept.tail (l := ['\\']) alone fun body rest isBody same => ?_
  cases body with
  | nil => exact absurd (List.cons.inj same).1 slash
  | cons d body =>
      obtain rfl := (List.cons.inj same).1
      exact (runs_escape feed).append (isBody.tail quote slash)

/-- An open string stays open when the pairs in it are redacted. -/
theorem closes_values {l : List Char} {prev : Option Char} (open' : closes l = none)
    (kept : Kept prev l) : closes (scan values 0 prev l) = none := by
  induction size : l.length using Nat.strong_induction_on generalizing l prev with
  | _ n ih =>
  have shorter {l' : List Char} {prev' : Option Char} (less : l'.length < l.length)
      (open' : closes l' = none) (kept : Kept prev' l') : closes (scan values 0 prev' l') = none :=
    ih l'.length (size ▸ less) open' kept rfl
  cases l with
  | nil => rfl
  | cons c l =>
      cases found : values prev (c :: l) with
      | some match_ =>
          obtain ⟨n, r⟩ := match_
          obtain ⟨_, key, _, _, _, isHead, _, _, _, _, _, _, rfl⟩ := values_span found
          rw [scan, found]
          dsimp only
          rw [runs_redacted isHead.isKey, scan_drop]
          obtain ⟨closed, kept'⟩ | unquoted := open_behind_pair found open' kept
          · have less : (l.drop n).length < (c :: l).length := by
              rw [List.length_drop, List.length_cons]
              omega
            exact shorter less closed kept'
          · exact closes_of_unquoted (not_mem_scan_values unquoted _)
      | none =>
          rw [scan, found]
          dsimp only
          have alone : pending values 0 prev [c] l = 0 := pending_of_none found
          by_cases quote : c = '"'
          · rw [quote] at open'
            cases open'
          by_cases slash : c = '\\'
          · obtain rfl := slash
            cases l with
            | nil => rfl
            | cons d l =>
                by_cases feed : d = '\n'
                · rw [feed, scan, values_eq_none (some '\\') (by decide)]
                  rfl
                have closed : closes l = none := (closes_escaped feed l).symm.trans open'
                refine closes_escaped_scan feed (fun alpha => ?_) fun other => ?_
                · obtain ⟨quote, slash⟩ := ne_of_isAlpha alpha
                  exact shorter (by simp) ((closes_plain quote slash l).trans closed)
                    (kept.escape alone feed alpha)
                · have none := values_eq_none (some '\\') other l
                  have both : pending values 0 prev ['\\', d] l = 0 :=
                    (pending_of_none (l := [d]) found).trans (pending_of_none (l := []) none)
                  have less : l.length < ('\\' :: d :: l).length := by
                    rw [List.length_cons, List.length_cons]
                    omega
                  exact shorter less closed
                    (kept.tail (l := ['\\', d]) both fun body _ isBody _ =>
                      (runs_escape feed).append isBody)
          · rw [closes_plain quote slash] at open' ⊢
            exact shorter (by simp) open'
              (kept.tail (l := [c]) alone fun body _ isBody _ => (runs_plain quote slash).append isBody)

/-- The head of a member stands where it stood before the pairs were redacted. -/
theorem memberHead_of_values {prev : Option Char} {l head tail : List Char}
    (isHead : IsMemberHead head) (text : scan values 0 prev l = head ++ tail) :
    ∃ inner, l = head ++ inner ∧ scan values 0 (last prev head) inner = tail := by
  obtain ⟨inner, rfl⟩ : ∃ inner, l = head ++ inner := by
    obtain same | ⟨start, key, pair, d, rest, out, isPair, _, before, after⟩ :=
      scan_values_cases prev l
    · exact ⟨tail, same.symm.trans text⟩
    · have absent : '=' ∉ head :=
        not_mem_memberHead isHead (by decide) (by decide) (by decide)
      have text' : (start ++ key) ++ '=' :: ("[redacted]".toList ++ out) = head ++ tail := by
        rw [← text, after, List.append_assoc]
        rfl
      obtain ⟨w, whole, _⟩ := append_of_not_mem absent text'
      obtain ⟨blank, sep, blank', _, _, _, rfl⟩ := isPair.parts
      refine ⟨w ++ ((blank ++ sep :: blank') ++ d :: rest), ?_⟩
      rw [before, List.append_assoc key, ← List.append_assoc start, whole, List.append_assoc]
  rw [scan_of_quiet (quiet_memberHead isHead prev inner)] at text
  exact ⟨inner, rfl, List.append_cancel_left text⟩

/-- A text with no member has none when its pairs are redacted. -/
theorem members_values_none {prev : Option Char} {l : List Char} (none : members prev l = none)
    (kept : ∀ head body rest, IsMemberHead head → Runs body → '"' ∈ rest →
      l = (head ++ body) ++ '\\' :: '\n' :: rest →
      pending values 0 prev (head ++ body) ('\\' :: '\n' :: rest) = 0) (prev' : Option Char) :
    members prev' (scan values 0 prev l) = Option.none := by
  by_contra found
  obtain ⟨match_, some⟩ := Option.ne_none_iff_exists'.mp found
  obtain ⟨head, body, rest, isHead, isBody, text, _⟩ := members_eq_some_iff.mp some
  obtain ⟨inner, rfl, tail⟩ := memberHead_of_values isHead text
  have open' : closes inner = Option.none := by
    cases closed : closes inner with
    | none => rfl
    | some behind =>
        obtain ⟨body', isBody', split⟩ := closes_eq_some closed
        exact absurd none (members_ne_none isHead isBody' (congrArg (head ++ ·) split))
  have kept' : Kept (last prev head) inner := by
    rintro body' rest' runs quoted rfl
    have here := kept head body' rest' isHead runs quoted (List.append_assoc _ _ _).symm
    rwa [pending_append, pending_of_quiet (quiet_memberHead isHead prev _)] at here
  have closed := closes_values open' kept'
  rw [tail, isBody rest] at closed
  cases closed

/-- A member begins with a quote and a letter. -/
theorem members_eq_none {prev : Option Char} {c : Char} {l : List Char}
    (other : c ≠ '"' ∨ ∀ d ∈ l.head?, d.isAlpha = false) : members prev (c :: l) = none := by
  cases found : members prev (c :: l) with
  | none => rfl
  | some match_ =>
      obtain ⟨head, body, rest, isHead, _, text, _⟩ := members_eq_some_iff.mp found
      obtain ⟨key, before, after, isKey, _, _, rfl⟩ := isHead
      cases key with
      | nil => exact absurd rfl (key_ne_nil isKey)
      | cons d key =>
          obtain ⟨rfl, rfl⟩ := List.cons.inj text
          obtain quote | letter := other
          · exact absurd rfl quote
          · have alpha := isAlpha_of_key isKey
            rw [letter d rfl] at alpha
            cases alpha

theorem quiet_of_unquoted {l : List Char} (unquoted : '"' ∉ l) (prev : Option Char)
    (rest : List Char) : Quiet members prev l rest := by
  induction l generalizing prev with
  | nil => trivial
  | cons c l ih =>
      refine ⟨members_eq_none (.inl ?_), ih (fun mem => unquoted (List.mem_cons_of_mem c mem)) (some c)⟩
      rintro rfl
      exact unquoted List.mem_cons_self

/-- No member begins inside a redacted one. -/
theorem quiet_inside {head : List Char} (isHead : IsMemberHead head) :
    ∃ inside, head ++ "[redacted]\"".toList = '"' :: (inside ++ ['"']) ∧
      ∀ prev rest, Quiet members prev inside ('"' :: rest) := by
  obtain ⟨key, before, after, isKey, blank, blank', rfl⟩ := isHead
  refine ⟨key ++ ('"' :: (before ++ ':' :: after)) ++ ('"' :: "[redacted]".toList), by simp,
    fun prev rest => ?_⟩
  have unnamed : '"' ∉ key := mark_not_mem isKey (by decide)
  have unquoted : '"' ∉ before ++ ':' :: after := by
    intro mem
    have parts : '"' ∈ before ∨ '"' ∈ after := by simpa using mem
    obtain mem | mem := parts
    · exact absurd (blank _ mem) (by decide)
    · exact absurd (blank' _ mem) (by decide)
  refine quiet_append (quiet_append (quiet_of_unquoted unnamed _ _) ?_) ?_
  · refine ⟨members_eq_none (.inr ?_), quiet_of_unquoted unquoted _ _⟩
    intro d first
    cases before with
    | nil => exact Option.some.inj first ▸ by decide
    | cons e before =>
        obtain rfl := Option.some.inj first
        exact isAlpha_of_space (blank _ List.mem_cons_self)
  · refine ⟨members_eq_none (.inr ?_), quiet_of_unquoted (by decide) _ _⟩
    exact fun d first => Option.some.inj first ▸ by decide

/-- Members stand in any surroundings. -/
theorem clean_members_congr {l : List Char} {prev : Option Char} (clean : Clean members 0 prev l)
    (prev' : Option Char) : Clean members 0 prev' l := by
  cases l with
  | nil => trivial
  | cons c l => exact clean

/-- A redacted member, and what the scan of the members leaves behind it. -/
theorem clean_member {prev : Option Char} {c : Char} {l r : List Char} {n : Nat}
    (found : members prev (c :: l) = some (n, r)) (clean : Clean members 0 prev (c :: l)) :
    ∃ head rest, IsMemberHead head ∧ c :: l = (head ++ "[redacted]\"".toList) ++ rest ∧
      ∀ prev, Clean members 0 prev rest := by
  obtain ⟨head, body, rest, isHead, _, text, size, rfl⟩ := members_eq_some_iff.mp found
  rw [Clean, found] at clean
  obtain ⟨same, later⟩ := clean
  have inside : n ≤ l.length := by
    have length := congrArg List.length text
    simp only [List.length_cons, List.length_append] at length
    omega
  have behind : Clean members 0 (last (some c) (l.take n)) (l.drop n) := by
    have taken : (l.take n).length = n := List.length_take_of_le inside
    rw [← clean_append_iff, taken, List.take_append_drop]
    exact later
  refine ⟨head, l.drop n, isHead, ?_, clean_members_congr behind⟩
  rw [same, List.cons_append, List.take_append_drop]

theorem clean_redacted {head rest : List Char} (isHead : IsMemberHead head)
    (clean : ∀ prev, Clean members 0 prev rest) (prev : Option Char) :
    Clean members 0 prev ((head ++ "[redacted]\"".toList) ++ rest) := by
  have found := members_redacted isHead prev rest
  obtain ⟨key, before, after, _, _, _, rfl⟩ := isHead
  refine (clean_of_match ?_).mpr (clean _)
  refine found.trans (congrArg some (Prod.ext ?_ rfl))
  simp
  omega

/-- A redacted member that a pair ends in: what is left of it has no member, nor a pair. -/
theorem cut_redacted {head rest : List Char} {skip : Nat} (isHead : IsMemberHead head)
    (begun : 0 < skip) (ends : skip < head.length + 11) :
    ∃ taken left, head ++ "[redacted]\"".toList = taken ++ (left ++ ['"']) ∧ taken.length = skip ∧
      (∀ prev, Quiet values (last prev taken) (left ++ ['"']) rest) ∧
      ∀ prev rest, Clean members 0 prev ('"' :: rest) →
        Clean members 0 prev (left ++ '"' :: rest) := by
  obtain ⟨inside, shape, quiet⟩ := quiet_inside isHead
  obtain ⟨skip, rfl⟩ := Nat.exists_eq_add_of_lt begun
  rw [Nat.zero_add] at ends ⊢
  have length := congrArg List.length shape
  have split : head ++ "[redacted]\"".toList =
      ('"' :: inside.take skip) ++ (inside.drop skip ++ ['"']) := by
    rw [shape, List.cons_append, ← List.append_assoc, List.take_append_drop]
  refine ⟨_, _, split, ?_, fun prev => ?_, fun prev rest clean => ?_⟩
  · simp only [List.length_cons, List.length_append, List.length_take] at length ⊢
    simp at length
    omega
  · exact quiet_behind (split ▸ quiet_redacted isHead prev rest)
  · have behind := quiet none rest
    rw [← List.take_append_drop skip inside] at behind
    exact clean_members_congr (clean_of_quiet (quiet_behind behind) (clean_members_congr clean _)) prev

/-- A quote that begins no member begins none when the pairs behind it are redacted. -/
theorem clean_quote {rest : List Char} (single : memberHead ('"' :: rest) = none)
    (clean : ∀ prev, Clean members 0 prev (scan values 0 (some '"') rest)) (prev : Option Char) :
    Clean members 0 prev ('"' :: scan values 0 (some '"') rest) := by
  have whole : scan values 0 none ('"' :: rest) = '"' :: scan values 0 (some '"') rest := by
    rw [scan, values_eq_none none (by decide)]
  have none' : members prev ('"' :: scan values 0 (some '"') rest) = none := by
    cases found : members prev ('"' :: scan values 0 (some '"') rest) with
    | none => rfl
    | some match_ =>
        obtain ⟨head, _, _, isHead, _, text, _⟩ := members_eq_some_iff.mp found
        obtain ⟨inner, split, _⟩ := memberHead_of_values isHead (whole.trans text)
        rw [split, memberHead_append isHead] at single
        cases single
  rw [Clean, none']
  exact clean (some '"')

/-- The third replacement, where the scan of the members meets one. -/
theorem clean_member_scan {head rest : List Char} {skip : Nat} {before : Option Char}
    (isHead : IsMemberHead head)
    (places : skip = 0 ∨ head.length + 11 ≤ skip ∨ memberHead ('"' :: rest) = none)
    (later : ∀ prev, Clean members 0 prev (scan values
      (pending values skip before (head ++ "[redacted]\"".toList) rest)
      (last before (head ++ "[redacted]\"".toList)) rest)) (prev : Option Char) :
    Clean members 0 prev (scan values skip before ((head ++ "[redacted]\"".toList) ++ rest)) := by
  have quiet := quiet_redacted isHead before rest
  have size : (head ++ "[redacted]\"".toList).length = head.length + 11 := by simp
  obtain rfl | begun := Nat.eq_zero_or_pos skip
  · rw [scan_of_quiet quiet]
    refine clean_redacted isHead (fun prev => ?_) prev
    have next := later prev
    rwa [pending_of_quiet quiet] at next
  by_cases hidden : head.length + 11 ≤ skip
  · have next := later prev
    rw [pending_of_le _ _ _ _ (size.trans_le hidden)] at next
    rw [scan_append_of_le _ _ _ _ (size.trans_le hidden)]
    exact next
  -- A pair ends in the member.
  have ends := Nat.lt_of_not_le hidden
  have single : memberHead ('"' :: rest) = none := by
    obtain outside | hidden | single := places
    · omega
    · exact absurd hidden (Nat.not_le_of_lt ends)
    · exact single
  obtain ⟨taken, left, shape, rfl, quiet', clean⟩ := cut_redacted isHead begun ends
  rw [shape, List.append_assoc, scan_append_of_le _ _ _ _ le_rfl, Nat.sub_self,
    scan_of_quiet (quiet' _), List.append_assoc]
  have behind (prev : Option Char) : last prev (left ++ ['"']) = some '"' := by
    rw [last_append]
    rfl
  rw [behind]
  refine clean prev _ (clean_quote single (fun prev => ?_) prev)
  have next := later prev
  rwa [shape, pending_append, pending_of_le _ _ _ _ le_rfl, Nat.sub_self,
    pending_of_quiet (quiet' _), last_append, behind] at next

/-- The third replacement, where there is none and no pair reaches. -/
theorem clean_other_scan {c : Char} {l : List Char} {before : Option Char}
    (none : ∀ prev, members prev (scan values 0 before (c :: l)) = Option.none)
    (later : ∀ prev, Clean members 0 prev
      (scan values (pending values 0 before [c] l) (some c) l)) (prev : Option Char) :
    Clean members 0 prev (scan values 0 before (c :: l)) := by
  cases pair : values before (c :: l) with
  | some match_ =>
      obtain ⟨n, r⟩ := match_
      obtain ⟨_, key, _, _, _, isHead, _, _, _, _, _, _, rfl⟩ := values_span pair
      have quiet := quiet_of_unquoted (not_mem_redacted isHead.isKey) prev
      rw [scan, pair]
      refine clean_of_quiet (quiet _) ?_
      have next := later (last prev (key ++ "=[redacted]".toList))
      rwa [pending_of_some (l := []) pair] at next
  | none =>
      have none' := none prev
      rw [scan, pair] at none' ⊢
      dsimp only at none' ⊢
      rw [Clean, none']
      have next := later (some c)
      rwa [pending_of_none (l := []) pair] at next

/-- The third replacement, at a place that the scan of the members reaches. -/
theorem clean_members_scan {whole start l : List Char} (intact : Intact whole)
    (text : whole = start ++ l) (clean : ∀ prev, Clean members 0 prev l) (prev : Option Char) :
    Clean members 0 prev (scan values (pending values 0 none start l) (last none start) l) := by
  induction size : l.length using Nat.strong_induction_on generalizing l start prev with
  | _ n ih =>
  have shorter {taken rest : List Char} (split : l = taken ++ rest) (some : taken ≠ [])
      (clean : ∀ prev, Clean members 0 prev rest) (prev : Option Char) :
      Clean members 0 prev (scan values (pending values (pending values 0 none start l)
        (last none start) taken rest) (last (last none start) taken) rest) := by
    have less : rest.length < n := by
      have length := List.length_pos_iff.mpr some
      rw [← size, split, List.length_append]
      omega
    have text' : whole = (start ++ taken) ++ rest := by rw [text, split, List.append_assoc]
    have later := ih rest.length less text' clean prev rfl
    rwa [pending_append, last_append, ← split] at later
  cases l with
  | nil => rw [scan_nil]; trivial
  | cons c l =>
      cases found : members (last none start) (c :: l) with
      | some match_ =>
          obtain ⟨head, rest, isHead, split, clean'⟩ := clean_member found (clean _)
          have places := intact.whole start head rest isHead (split ▸ text)
          have later := shorter split (by simp) clean'
          rw [split] at later ⊢
          exact clean_member_scan isHead places later prev
      | none =>
          have clean' (prev : Option Char) : Clean members 0 prev l := by
            have behind := clean (last none start)
            rw [Clean, found] at behind
            exact clean_members_congr behind prev
          have later := shorter (List.singleton_append).symm (List.cons_ne_nil c []) clean'
          cases before : pending values 0 none start (c :: l) with
          | succ skip =>
              rw [before] at later
              exact later prev
          | zero =>
              rw [before] at later
              refine clean_other_scan (members_values_none found ?_) later prev
              intro head body rest isHead runs quoted split
              have kept := intact.broken start head body rest isHead runs quoted (split ▸ text)
                (split ▸ before)
              rwa [pending_append, ← split, before] at kept

/-- No member is left or made by the third replacement. -/
theorem clean_members_values {l : List Char} (intact : Intact l) (clean : Clean members 0 none l) :
    Clean members 0 none (replace values l) :=
  clean_members_scan intact (List.nil_append l).symm (clean_members_congr clean) none

end Pairs

/-- The text that the third replacement is given. -/
def withoutMembers (value : List Char) : List Char := replaceAll [urls, members] value

theorem redact_redact {value : List Char} (intact : Intact (withoutMembers value)) :
    redact (redact value) = redact value := by
  have url : Free urls none (redact value) :=
    free_urls_values (free_urls_members (free_urls value))
  have member : Clean members 0 none (redact value) :=
    clean_members_values intact (clean_members _)
  have pair : Clean values 0 none (redact value) := clean_values _
  change replace values (replace members (replace urls (redact value))) = redact value
  rw [replace_of_clean (clean_of_free _ none url), replace_of_clean member, replace_of_clean pair]

/-- What is no letter begins no match of the three. -/
theorem steady_of_isAlpha {c : Char} (other : c.isAlpha = false) :
    ∀ P ∈ [urls, members, values], Steady P c := by
  intro P mem
  obtain rfl | rfl | rfl : P = urls ∨ P = members ∨ P = values := by simpa using mem
  · exact urls_steady other
  · exact members_steady c
  · exact values_steady other

/-- What ends a secret begins no match of the three. -/
theorem steady_of_not_word {c : Char} (other : isWord c = false) :
    ∀ P ∈ [urls, members, values], Steady P c := by
  rw [isWord, Bool.or_eq_false_iff, Char.isAlphanum, Bool.or_eq_false_iff] at other
  exact steady_of_isAlpha other.1.1

theorem redact_masked {a s s' b : List Char} (ends : ∀ c ∈ b.head?, isWord c = false)
    (masked : Masked [urls, members, values] a s s' b) :
    redact (a ++ (s ++ b)) = redact (a ++ (s' ++ b)) :=
  replaceAll_masked _ a s s' b (fun P mem c first => steady_of_not_word (ends c first) P mem) masked

/-- Two texts that differ in a secret that is masked, such as the remainder of a URL that begins
where no word does, are redacted to the same, and the redaction of an error whose members are
intact is final. -/
theorem redact_hides (a s s' b : List Char) (ends : ∀ c ∈ b.head?, isWord c = false) :
    (∀ before head, a = before ++ head → IsUrlHead head → (last none before).any isWord = false →
      IsRemainder s b → IsRemainder s' b → redact (a ++ (s ++ b)) = redact (a ++ (s' ++ b))) ∧
    (Masked [urls, members, values] a s s' b →
      redact (a ++ (s ++ b)) = redact (a ++ (s' ++ b))) ∧
    ∀ value, Intact (withoutMembers value) → redact (redact value) = redact value := by
  refine ⟨?_, redact_masked ends, fun value => redact_redact⟩
  rintro before head rfl isHead boundary remainder remainder'
  exact redact_masked ends (masked_url isHead boundary remainder remainder' _)

theorem intact_of_unquoted {l : List Char} (unquoted : '"' ∉ l) : Intact l where
  whole start head rest isHead text := absurd (by rw [text]; simp) unquoted
  broken start head body rest isHead _ quoted text := absurd (by rw [text]; simp [quoted]) unquoted

/-- The value of a member, of a pair that a comma ends, and a text that has been redacted. -/
theorem redact_hides_values :
    redact "\"Token\": \"a b\", \"n\": 1".toList = redact "\"Token\": \"\", \"n\": 1".toList ∧
      redact "password = q, n".toList = redact "password = r, n".toList ∧
      redact (redact "password = q, n".toList) = redact "password = q, n".toList := by
  refine ⟨?_, ?_, ?_⟩
  · exact (redact_hides "\"Token\": \"".toList "a b".toList [] "\", \"n\": 1".toList
      fun c first => Option.some.inj first ▸ by decide).2.1 (by decide +kernel)
  · exact (redact_hides "password = ".toList "q".toList "r".toList ", n".toList
      fun c first => Option.some.inj first ▸ by decide).2.1 (by decide +kernel)
  · exact (redact_hides [] [] [] [] (by simp)).2.2 _ (intact_of_unquoted (by decide +kernel))

section Headers

theorem replace_of_quiet {P : Pattern Char} {l : List Char} (quiet : Quiet P none l []) :
    replace P l = l := by
  have whole := scan_of_quiet quiet
  rwa [List.append_nil, scan_nil, List.append_nil] at whole

theorem quiet_urls {l : List Char} (slash : '/' ∉ l) (prev : Option Char) : Quiet urls prev l [] := by
  induction l generalizing prev with
  | nil => trivial
  | cons c l ih =>
      refine ⟨?_, ih (fun mem => slash (List.mem_cons_of_mem c mem)) (some c)⟩
      rw [List.append_nil]
      cases found : urls prev (c :: l) with
      | none => rfl
      | some match_ =>
          obtain ⟨_, head, run, rest, isHead, _, _, _, text, _⟩ := urls_eq_some_iff.mp found
          exact absurd (text ▸ List.mem_append_left _ (slash_mem_urlHead isHead)) slash

theorem quiet_values {l : List Char} (equals : '=' ∉ l) (colon : ':' ∉ l) (prev : Option Char) :
    Quiet values prev l [] := by
  induction l generalizing prev with
  | nil => trivial
  | cons c l ih =>
      refine ⟨?_, ih (fun mem => equals (List.mem_cons_of_mem c mem))
        (fun mem => colon (List.mem_cons_of_mem c mem)) (some c)⟩
      rw [List.append_nil]
      cases found : values prev (c :: l) with
      | none => rfl
      | some match_ =>
          obtain ⟨_, key, head, run, rest, isHead, _, _, _, text, _⟩ := values_eq_some_iff.mp found
          obtain ⟨before, sep, after, _, separates, _, rfl⟩ := isHead.parts
          have mem : sep ∈ c :: l := by
            rw [text]
            simp
          obtain rfl | rfl := separates
          · exact absurd mem equals
          · exact absurd mem colon

/-- Of a header whose value is a scheme and a credential only the scheme is hidden. -/
theorem redact_authorization {scheme token : List Char} (nonempty : scheme ≠ [])
    (value : ∀ c ∈ scheme, inValue c) (plain : ∀ c ∈ scheme, c ≠ '/' ∧ c ≠ '"')
    (bare : ∀ c ∈ token, c ≠ '/' ∧ c ≠ '"' ∧ c ≠ '=' ∧ c ≠ ':') :
    redact ("Authorization: ".toList ++ (scheme ++ ' ' :: token)) =
      "Authorization=[redacted] ".toList ++ token := by
  have slash : '/' ∉ "Authorization: ".toList ++ (scheme ++ ' ' :: token) := by
    intro mem
    obtain mem | mem : '/' ∈ scheme ∨ '/' ∈ token := by simpa using mem
    · exact (plain _ mem).1 rfl
    · exact (bare _ mem).1 rfl
  have quote : '"' ∉ "Authorization: ".toList ++ (scheme ++ ' ' :: token) := by
    intro mem
    obtain mem | mem : '"' ∈ scheme ∨ '"' ∈ token := by simpa using mem
    · exact (plain _ mem).2 rfl
    · exact (bare _ mem).2.1 rfl
  have found : values none ("Authorization: ".toList ++ (scheme ++ ' ' :: token)) =
      some (14 + scheme.length, "Authorization=[redacted]".toList) := by
    refine values_eq_some_iff.mpr ⟨rfl, "Authorization".toList, "Authorization: ".toList, scheme,
      ' ' :: token, ⟨by unfold IsKey; decide +kernel, [], ':', [' '], by simp, .inr rfl,
        List.all_eq_true.mp (by decide), rfl⟩, nonempty, value, fun c first => Option.some.inj first ▸ by decide, rfl, ?_, rfl⟩
    simp
    omega
  have quiet : Quiet values (last (some 'A') ("uthorization: ".toList ++ scheme)) (' ' :: token) [] :=
    ⟨values_eq_none _ (by decide) _, quiet_values (fun mem => (bare _ mem).2.2.1 rfl)
      (fun mem => (bare _ mem).2.2.2 rfl) _⟩
  change replace values (replace members (replace urls _)) = _
  rw [replace_of_quiet (quiet_urls slash none), replace_of_quiet (quiet_of_unquoted quote none [])]
  have taken : ("uthorization: ".toList ++ scheme).length = 14 + scheme.length := by
    simp
    omega
  change scan values 0 none ('A' :: ("uthorization: ".toList ++ (scheme ++ ' ' :: token))) = _
  change values none ('A' :: ("uthorization: ".toList ++ (scheme ++ ' ' :: token))) = _ at found
  rw [scan, found]
  dsimp only
  have rest := scan_of_quiet quiet
  rw [List.append_nil, scan_nil, List.append_nil] at rest
  rw [← List.append_assoc, scan_append_of_le _ _ _ _ taken.le, taken, Nat.sub_self, rest]
  have blank : "Authorization=[redacted] ".toList = "Authorization=[redacted]".toList ++ [' '] := by
    decide
  rw [blank, List.append_assoc, List.singleton_append]

theorem redact_shows :
    redact "Authorization: Bearer a".toList ≠ redact "Authorization: Bearer b".toList ∧
      redact (redact "\"token\": \"abc password=q\\\ndef\"".toList) ≠
        redact "\"token\": \"abc password=q\\\ndef\"".toList := by
  decide +kernel

end Headers

end AppriseNotifications
end CortenDesk
