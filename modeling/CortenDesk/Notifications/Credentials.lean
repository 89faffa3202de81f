import CortenDesk.Notifications.Redacted

/-!
Which credentials of a text as it comes are hidden: the value of a quoted member with no sensitive
name in quotes before it, and the value of a pair with no other pair before it, unless a URL reaches
into them.
-/
namespace CortenDesk
namespace AppriseNotifications
open Php Replace

/-- No sensitive name stands in quotes. -/
def Unnamed (l : List Char) : Prop := ∀ key, IsKey key → ¬ '"' :: (key ++ ['"']) <:+: l

/-- No sensitive name stands before a `=` or `:`. -/
def Unpaired (l : List Char) : Prop := ∀ key head, IsValueHead key head → ¬ head <:+: l

/-- No URL has its `://`. -/
def Unlinked (l : List Char) : Prop := ¬ "://".toList <:+: l

/-- The value of a pair, and what follows it. -/
structure IsValue (run rest : List Char) : Prop where
  nonempty : run ≠ []
  inside : ∀ c ∈ run, inValue c
  stops : ∀ c ∈ rest.head?, inValue c = false

section Links
variable {l rest : List Char}

theorem foreign_of_inUrl {d : Char} (stops : inUrl d = false) : Foreign d where
  scheme := by
    cases scheme : isScheme d with
    | false => rfl
    | true =>
        rw [inUrl_of_isScheme scheme] at stops
        cases stops
  colon := by rintro rfl; exact absurd stops (by decide)
  slash := by rintro rfl; exact absurd stops (by decide)

/-- A URL ends before a character that none has, whatever follows that. -/
theorem urls_stopped {prev : Option Char} {c d : Char} {r : List Char} {n : Nat}
    (stops : inUrl d = false) (found : urls prev (c :: (l ++ d :: rest)) = some (n, r)) :
    n ≤ l.length ∧ ∀ rest', urls prev (c :: (l ++ d :: rest')) = some (n, r) := by
  obtain ⟨boundary, head, run, tail, isHead, nonempty, all, stops', text, size, rfl⟩ :=
    urls_eq_some_iff.mp found
  have absent : d ∉ head ++ run := by
    intro mem
    have inside : inUrl d := by
      obtain mem | mem := List.mem_append.mp mem
      · exact inUrl_of_mem_head isHead mem
      · exact all d mem
    rw [stops] at inside
    cases inside
  rw [← List.cons_append, ← List.append_assoc] at text
  obtain ⟨w, whole, same⟩ := append_of_not_mem absent text
  refine ⟨?_, fun rest' => urls_eq_some_iff.mpr ⟨boundary, head, run, w ++ d :: rest', isHead,
    nonempty, all, ?_, ?_, size, rfl⟩⟩
  · have length := congrArg List.length whole
    simp only [List.length_cons, List.length_append] at length
    omega
  · intro e first
    cases w with
    | nil => exact Option.some.inj first ▸ stops
    | cons f w => exact stops' e (same ▸ first)
  · rw [← List.cons_append, whole, List.append_assoc, List.append_assoc]

theorem alike_stopped {d : Char} (stops : inUrl d = false) (l rest rest' : List Char) (skip : Nat)
    (prev : Option Char) (inside : skip ≤ l.length) :
    Alike urls skip prev l (d :: rest) (d :: rest') ∧ pending urls skip prev l (d :: rest) = 0 := by
  induction l generalizing skip prev with
  | nil =>
      obtain rfl := Nat.le_zero.mp inside
      exact ⟨trivial, rfl⟩
  | cons c l ih =>
      cases skip with
      | succ skip => exact ih skip (some c) (Nat.le_of_succ_le_succ inside)
      | zero =>
          cases found : urls prev (c :: (l ++ d :: rest)) with
          | none =>
              have found' : urls prev (c :: (l ++ d :: rest')) = none := by
                cases other : urls prev (c :: (l ++ d :: rest')) with
                | none => rfl
                | some match_ =>
                    rw [(urls_stopped stops other).2 rest] at found
                    cases found
              obtain ⟨alike, ends⟩ := ih 0 (some c) (Nat.zero_le _)
              exact ⟨alike_of_none found found' alike, (pending_of_none found).trans ends⟩
          | some match_ =>
              obtain ⟨short, same⟩ := urls_stopped stops found
              obtain ⟨alike, ends⟩ := ih match_.1 (some c) short
              exact ⟨alike_of_some found (same rest') rfl alike, (pending_of_some found).trans ends⟩

/-- No URL begins in a text without its `://` that a foreign character ends. -/
theorem quiet_unlinked (unlinked : Unlinked l) (ends : ∀ d ∈ rest.head?, Foreign d)
    (prev : Option Char) : Quiet urls prev l rest := by
  refine quiet_of_forall fun front c back text => ?_
  subst text
  cases found : urls (last prev front) (c :: (back ++ rest)) with
  | none => rfl
  | some match_ =>
      obtain ⟨_, head, run, tail, isHead, _, _, _, text, _⟩ := urls_eq_some_iff.mp found
      have within : head <+: c :: back := by
        cases rest with
        | nil => exact ⟨run ++ tail, by rw [← text, List.append_nil]⟩
        | cons d rest =>
            rw [← List.cons_append] at text
            obtain ⟨w, whole, _⟩ := append_of_not_mem ((ends d rfl).not_mem isHead) text
            exact ⟨w, whole.symm⟩
      obtain ⟨e, scheme, _, _, rfl⟩ := isHead.parts
      have link : "://".toList <:+: e :: (scheme ++ "://".toList) :=
        (List.suffix_append (e :: scheme) _).isInfix
      exact absurd (link.trans (within.isInfix.trans (List.suffix_append front _).isInfix)) unlinked

/-- A word with a letter that is not put in, and without the last one that is, stands behind what is
put in. -/
theorem infix_behind {w r out : List Char} {d e : Char} (has : d ∈ w) (foreign : d ∉ r)
    (absent : e ∉ w) (within : w <:+: (r ++ [e]) ++ out) : w <:+: out := by
  obtain ⟨start, tail, text⟩ := within
  rw [List.append_assoc] at text
  obtain ⟨u, inner, same⟩ | ⟨u, _, same⟩ := List.append_eq_append_iff.mp text
  · cases u using List.reverseRecOn with
    | nil => exact ⟨[], tail, same⟩
    | append_singleton u f =>
        rw [← List.append_assoc] at inner
        obtain ⟨rfl, last⟩ := List.append_inj' inner rfl
        obtain rfl := List.singleton_inj.mp last
        rw [List.append_assoc, List.singleton_append] at same
        obtain ⟨v, rfl, _⟩ := append_of_not_mem absent same.symm
        exact absurd (by simp [has]) foreign
  · exact ⟨u, tail, by rw [same, List.append_assoc]⟩

/-- What a URL is replaced by is part of no word with such a letter. -/
theorem infix_of_links {w m : List Char} {d : Char} (has : d ∈ w) (foreign : d ∉ "[redacted URL".toList)
    (bracket : '[' ∉ w) (closing : ']' ∉ w) (l rest : List Char)
    (within : w <:+: emitted urls 0 none l rest ++ m) : w <:+: l ++ m := by
  refine infix_of_emitted bracket (fun prev l n r found => ?_) l rest 0 none within
  obtain ⟨_, _, _, _, _, _, _, _, _, _, rfl⟩ := urls_eq_some_iff.mp found
  refine ⟨rfl, fun out => infix_behind (r := "[redacted URL".toList) has foreign closing⟩

end Links

section Members

theorem Unnamed.of_infix {l l' : List Char} (unnamed : Unnamed l) (within : l' <:+: l) : Unnamed l' :=
  fun key isKey inner => unnamed key isKey (inner.trans within)

/-- The replacement of URLs puts no name in quotes. -/
theorem Unnamed.links {l m : List Char} (unnamed : Unnamed (l ++ m)) (rest : List Char) :
    Unnamed (emitted urls 0 none l rest ++ m) := by
  intro key isKey within
  have bracket : '[' ∉ key := mark_not_mem isKey (by decide)
  have closing : ']' ∉ key := mark_not_mem isKey (by decide)
  exact unnamed key isKey (infix_of_links (d := '"') (by simp) (by decide) (by simp [bracket])
    (by simp [closing]) l rest within)

/-- Where a member begins in a text without names in quotes, its name reaches beyond the text. -/
theorem member_beyond {prev : Option Char} {c : Char} {back rest r : List Char} {n : Nat}
    (unnamed : Unnamed (c :: back)) (found : members prev (c :: (back ++ rest)) = some (n, r)) :
    ∃ left d tail, IsKey (back ++ left) ∧ rest = left ++ '"' :: d :: tail ∧ (isSpace d ∨ d = ':') := by
  obtain ⟨head, body, tail, isHead, _, text, _⟩ := members_eq_some_iff.mp found
  obtain ⟨key, before, behind, isKey, blank, _, rfl⟩ := isHead
  obtain ⟨rfl, text⟩ := List.cons.inj text
  have split : back ++ rest = key ++ '"' :: (before ++ ':' :: (behind ++ '"' :: (body ++ '"' :: tail))) := by
    simpa using text
  have next : ∃ d out, before ++ ':' :: (behind ++ '"' :: (body ++ '"' :: tail)) = d :: out ∧
      (isSpace d ∨ d = ':') := by
    cases before with
    | nil => exact ⟨':', _, rfl, .inr rfl⟩
    | cons d before => exact ⟨d, _, rfl, .inl (blank d List.mem_cons_self)⟩
  obtain ⟨d, out, same, stops⟩ := next
  rw [same] at split
  obtain ⟨left, rfl, rest⟩ | ⟨inner, rfl, rest⟩ := List.append_eq_append_iff.mp split
  · exact ⟨left, d, out, isKey, rest, stops⟩
  · cases inner with
    | nil => exact ⟨[], d, out, by simpa using isKey, rest.symm, stops⟩
    | cons e inner =>
        obtain rfl := (List.cons.inj rest).1
        refine absurd ⟨[], inner, ?_⟩ (unnamed key isKey)
        simp

/-- No member begins in front of one in a text without names in quotes. -/
theorem quiet_before_member {l head : List Char} (unnamed : Unnamed l) (isHead : IsMemberHead head)
    (rest : List Char) (prev : Option Char) : Quiet members prev l (head ++ rest) := by
  refine quiet_of_forall fun front c back text => ?_
  subst text
  cases found : members (last prev front) (c :: (back ++ (head ++ rest))) with
  | none => rfl
  | some match_ =>
      obtain ⟨left, d, tail, isKey, text, stops⟩ :=
        member_beyond (unnamed.of_infix (List.suffix_append front _).isInfix) found
      obtain ⟨key, before, behind, isKey', _, _, rfl⟩ := isHead
      cases left with
      | cons e left =>
          obtain rfl := (List.cons.inj text).1
          have mem : '"' ∈ back ++ '"' :: left := by simp
          exact absurd mem (mark_not_mem isKey (by decide))
      | nil =>
          cases key with
          | nil => exact absurd rfl (key_ne_nil isKey')
          | cons e key =>
              obtain rfl : e = d := (List.cons.inj (List.cons.inj text).2).1
              have alpha := isAlpha_of_key isKey'
              obtain space | rfl := stops
              · rw [isAlpha_of_space space] at alpha
                cases alpha
              · exact absurd alpha (by decide)

/-- No member begins in a text without names in quotes that the end of a value follows. -/
theorem quiet_unnamed {l rest : List Char} (unnamed : Unnamed l)
    (ends : ∀ c ∈ rest.head?, inValue c = false) (prev : Option Char) : Quiet members prev l rest := by
  refine quiet_of_forall fun front c back text => ?_
  subst text
  cases found : members (last prev front) (c :: (back ++ rest)) with
  | none => rfl
  | some match_ =>
      obtain ⟨left, d, tail, isKey, rfl, _⟩ :=
        member_beyond (unnamed.of_infix (List.suffix_append front _).isInfix) found
      cases left with
      | nil => exact absurd (ends '"' rfl) (by decide)
      | cons e left =>
          have mem : e ∈ back ++ e :: left := by simp
          obtain space | rfl | rfl := separator_cases (ends e rfl)
          · rw [(isSpace_of_mem_key isKey mem).1] at space
            cases space
          · exact absurd mem (not_mem_key isKey (by rw [sensitive_spelled]; decide))
          · exact absurd mem (not_mem_key isKey (by rw [sensitive_spelled]; decide))

/-- No URL begins in the head of a member, or in a value without `://`. -/
theorem quiet_member {head body : List Char} (isHead : IsMemberHead head) (unlinked : Unlinked body)
    (prev : Option Char) (rest : List Char) : Quiet urls prev (head ++ body) ('"' :: rest) := by
  have slash : '/' ∉ head := not_mem_memberHead isHead (by decide) (by decide) (by decide)
  obtain ⟨start, rfl, _⟩ := memberHead_quote isHead
  have first : Unlinked start :=
    fun link => slash (List.mem_append_left _ (link.subset (by decide)))
  have ends (rest : List Char) : ∀ d ∈ ('"' :: rest).head?, Foreign d :=
    fun d same => Option.some.inj same ▸ foreign_quote
  rw [List.append_assoc]
  refine quiet_append (quiet_unlinked first (ends (body ++ '"' :: rest)) prev) ?_
  exact ⟨urls_eq_none _ (by decide) _, quiet_unlinked unlinked (ends rest) _⟩

/-- The value of a quoted member is hidden where no sensitive name stands in quotes before it and no
URL in it. -/
theorem redact_member {before head body body' : List Char} (isHead : IsMemberHead head)
    (isBody : IsBody body) (isBody' : IsBody body') (unnamed : Unnamed before)
    (unlinked : Unlinked body) (unlinked' : Unlinked body') (rest : List Char) :
    redact ((before ++ head) ++ (body ++ '"' :: rest)) =
      redact ((before ++ head) ++ (body' ++ '"' :: rest)) := by
  have ends : ∀ d ∈ ('"' :: rest).head?, isWord d = false :=
    fun d same => Option.some.inj same ▸ by decide
  refine redact_masked ends ?_
  have quiet := quiet_member isHead unlinked (last none before) rest
  have quiet' := quiet_member isHead unlinked' (last none before) rest
  obtain ⟨tail, rfl⟩ : ∃ tail, head = '"' :: tail := by
    obtain ⟨key, before, behind, _, _, _, rfl⟩ := isHead
    exact ⟨_, rfl⟩
  have stopped := alike_stopped (d := '"') (by decide) before
  refine masked_behind (stopped _ _ 0 none (Nat.zero_le _)).1 (stopped _ [] 0 none (Nat.zero_le _)).2
    (stopped _ [] 0 none (Nat.zero_le _)).2 quiet quiet' ?_
  have unnamed' := Unnamed.links (m := []) (by rwa [List.append_nil])
    ('"' :: tail ++ (body ++ '"' :: rest))
  rw [List.append_nil] at unnamed'
  generalize emitted urls 0 none before ('"' :: tail ++ (body ++ '"' :: rest)) = front at unnamed' ⊢
  have step : replace urls ('"' :: rest) = '"' :: scan urls 0 (some '"') rest := by
    rw [replace, scan, urls_eq_none none (by decide)]
  have found {body : List Char} (isBody : IsBody body) (out : List Char) :
      members (last none front) ('"' :: (tail ++ (body ++ '"' :: out))) =
        some (tail.length + body.length + 1, '"' :: tail ++ "[redacted]\"".toList) := by
    refine members_eq_some_iff.mpr ⟨'"' :: tail, body, out, isHead, isBody, rfl, ?_, rfl⟩
    rw [List.length_cons]
    omega
  rw [step]
  exact masked_of_match (quiet_before_member unnamed' isHead _ none)
    (quiet_before_member unnamed' isHead _ none) (found isBody _) (found isBody' _)

end Members

section Pairs
variable {key head run run' rest : List Char}

theorem Unpaired.of_infix {l l' : List Char} (unpaired : Unpaired l) (within : l' <:+: l) :
    Unpaired l' :=
  fun key head isHead inner => unpaired key head isHead (inner.trans within)

/-- The replacement of URLs makes no pair. -/
theorem Unpaired.links {l m : List Char} (unpaired : Unpaired (l ++ m)) (rest : List Char) :
    Unpaired (emitted urls 0 none l rest ++ m) := by
  intro key head isHead within
  have bracket : '[' ∉ head := not_mem_valueHead isHead (by decide) (by decide) (by decide)
  have closing : ']' ∉ head := not_mem_valueHead isHead (by decide) (by decide) (by decide)
  obtain ⟨before, sep, behind, _, separates, _, shape⟩ := isHead.parts
  have mem : sep ∈ head := by simp [shape]
  have foreign : sep ∉ "[redacted URL".toList := by
    obtain rfl | rfl := separates
    · decide
    · decide
  exact unpaired key head isHead (infix_of_links mem foreign bracket closing l rest within)

theorem IsValue.unspaced (value : IsValue run rest) : ∀ c ∈ (run ++ rest).head?, isSpace c = false := by
  intro c first
  cases run with
  | nil => exact absurd rfl value.nonempty
  | cons d run =>
      have inside := value.inside d List.mem_cons_self
      rw [inValue, Bool.and_eq_true, Bool.and_eq_true, Bool.not_eq_true'] at inside
      exact Option.some.inj first ▸ inside.1.1

theorem separator_not_mem {spaces : List Char} {sep : Char} (isKey : IsKey key)
    (blank : ∀ c ∈ spaces, isSpace c) (separates : sep = '=' ∨ sep = ':') : sep ∉ key ++ spaces := by
  intro mem
  obtain mem | mem := List.mem_append.mp mem
  · obtain ⟨_, equals, colon⟩ := isSpace_of_mem_key isKey mem
    exact separates.elim equals colon
  · have space := blank sep mem
    obtain rfl | rfl := separates
    · exact absurd space (by decide)
    · exact absurd space (by decide)

/-- A pair that begins before another one, in a text where none has its separator, has that one's
value. -/
theorem one_head {name front taken left a : List Char} (unpaired : Unpaired a)
    (isHead : IsValueHead key head) (isFront : IsValueHead name front) (value : IsValue run rest)
    (value' : IsValue taken left) (text : a ++ (head ++ (run ++ rest)) = front ++ (taken ++ left)) :
    a ++ head = front ∧ run = taken := by
  obtain ⟨before, sep, behind, blank, separates, spaces, rfl⟩ := isHead.parts
  obtain ⟨before', sep', behind', blank', separates', spaces', rfl⟩ := isFront.parts
  have absent := separator_not_mem isFront.isKey blank' separates
  have absent' := separator_not_mem isHead.isKey blank separates'
  have split : (a ++ (key ++ before)) ++ sep :: (behind ++ (run ++ rest)) =
      (name ++ before') ++ sep' :: (behind' ++ (taken ++ left)) := by
    simpa using text
  obtain ⟨w, whole, same⟩ := append_of_not_mem absent split
  cases w with
  | cons d w =>
      -- The separator of the pair in front stands in the other's name or before it.
      obtain rfl := (List.cons.inj same).1
      obtain ⟨u, _, inner⟩ | ⟨u, early, inner⟩ := List.append_eq_append_iff.mp whole
      · exact absurd (by rw [inner]; simp) absent'
      · cases u with
        | nil => exact absurd (by rw [← List.nil_append (key ++ before), ← inner]; simp) absent'
        | cons e u =>
            obtain rfl := (List.cons.inj inner).1
            have opens : IsValueHead name (name ++ (before' ++ [d])) :=
              ⟨isFront.isKey, before', d, [], blank', separates', by simp, rfl⟩
            exact absurd ⟨[], u, by rw [early]; simp⟩ (unpaired _ _ opens)
  | nil =>
      have shared : behind ++ (run ++ rest) = behind' ++ (taken ++ left) := (List.cons.inj same).2
      obtain ⟨rfl, _⟩ := List.cons.inj same
      have here := takeWhile_run spaces value.unspaced
      have here' := takeWhile_run spaces' value'.unspaced
      rw [shared] at here
      obtain rfl : behind = behind' := here.1.symm.trans here'.1
      have text := List.append_cancel_left shared
      have run_taken := takeWhile_run value.inside value.stops
      rw [text] at run_taken
      refine ⟨?_, run_taken.1.symm.trans (takeWhile_run value'.inside value'.stops).1⟩
      rw [List.append_nil] at whole
      rw [← List.append_assoc name, ← whole]
      simp

/-- What is found before a pair is found there with any value. -/
theorem values_toward {prev : Option Char} {c : Char} {a r : List Char} {n : Nat}
    (unpaired : Unpaired (c :: a)) (isHead : IsValueHead key head) (value : IsValue run rest)
    (found : values prev (c :: (a ++ (head ++ (run ++ rest)))) = some (n, r)) :
    n = a.length + head.length + run.length ∧ ∀ run' rest', IsValue run' rest' →
      values prev (c :: (a ++ (head ++ (run' ++ rest')))) =
        some (a.length + head.length + run'.length, r) := by
  obtain ⟨boundary, name, front, taken, left, isFront, nonempty, all, stops, text, size, rfl⟩ :=
    values_eq_some_iff.mp found
  obtain ⟨rfl, rfl⟩ := one_head unpaired isHead isFront value ⟨nonempty, all, stops⟩ text
  rw [List.length_append, List.length_cons] at size
  refine ⟨by omega, fun run' rest' value' => values_eq_some_iff.mpr ⟨boundary, name, c :: a ++ head,
    run', rest', isFront, value'.nonempty, value'.inside, value'.stops, ?_, ?_, rfl⟩⟩
  · rw [List.append_assoc, List.cons_append]
  · rw [List.length_append, List.length_cons]
    omega

/-- What stands before a pair's value is treated alike whatever the value is, and a match takes the
value to its end. -/
theorem pair_hidden (isHead : IsValueHead key head) (value : IsValue run rest)
    (value' : IsValue run' rest) {a : List Char} (unpaired : Unpaired a) (prev : Option Char)
    (boundary : (last prev a).any isWord = false) :
    pending values 0 prev (a ++ head) (run ++ rest) = run.length ∧
      Alike values 0 prev (a ++ head) (run ++ rest) (run' ++ rest) := by
  induction a generalizing prev with
  | nil =>
      have found {run : List Char} (value : IsValue run rest) :
          values prev (head ++ (run ++ rest)) =
            some (head.length + run.length - 1, key ++ "=[redacted]".toList) := by
        have some := List.length_pos_iff.mpr value.nonempty
        exact values_eq_some_iff.mpr ⟨boundary, key, head, run, rest, isHead, value.nonempty,
          value.inside, value.stops, rfl, by omega, rfl⟩
      have here := found value
      have here' := found value'
      cases head with
      | nil =>
          obtain ⟨before, sep, behind, _, _, _, empty⟩ := isHead.parts
          simp at empty
      | cons c head =>
          rw [List.cons_append, List.length_cons] at here here'
          rw [List.nil_append]
          refine ⟨?_, alike_of_some here here' (by omega) (alike_of_le _ _ _ _ _ (by omega))⟩
          rw [pending_of_some here, pending_of_le _ _ _ _ (by omega)]
          omega
  | cons c a ih =>
      have length : (a ++ head).length = a.length + head.length := List.length_append
      rw [List.cons_append]
      cases found : values prev (c :: (a ++ (head ++ (run ++ rest)))) with
      | none =>
          have found' : values prev (c :: (a ++ (head ++ (run' ++ rest)))) = none := by
            cases other : values prev (c :: (a ++ (head ++ (run' ++ rest)))) with
            | none => rfl
            | some match_ =>
                rw [(values_toward unpaired isHead value' other).2 run rest value] at found
                cases found
          obtain ⟨takes, alike⟩ := ih (unpaired.of_infix (List.suffix_cons c a).isInfix) (some c) boundary
          rw [← List.append_assoc] at found found'
          exact ⟨(pending_of_none found).trans takes, alike_of_none found found' alike⟩
      | some match_ =>
          obtain ⟨size, again⟩ := values_toward unpaired isHead value found
          have found' := again run' rest value'
          rw [← List.append_assoc] at found found'
          refine ⟨?_, alike_of_some found found' (by omega) (alike_of_le _ _ _ _ _ (by omega))⟩
          refine (pending_of_some found).trans ((pending_of_le _ _ _ _ (by omega)).trans ?_)
          omega

theorem foreign_of_separator {d : Char} (separates : inValue d = false) : Foreign d := by
  obtain space | rfl | rfl := separator_cases separates
  · exact foreign_of_inUrl (by rw [inUrl, space]; rfl)
  · exact ⟨by decide, by decide, by decide⟩
  · exact ⟨by decide, by decide, by decide⟩

/-- No URL that begins in a text reaches beyond a last character that none has. -/
theorem front_stopped {front : List Char} (stops : ∀ c ∈ front.getLast?, inUrl c = false)
    (rest rest' : List Char) : Alike urls 0 none front rest rest' ∧
      pending urls 0 none front rest = 0 ∧ last none (emitted urls 0 none front rest) = last none front := by
  cases front using List.reverseRecOn with
  | nil => exact ⟨trivial, rfl, rfl⟩
  | append_singleton l d =>
      have stop : inUrl d = false := stops d (by simp)
      have quiet (prev : Option Char) (rest : List Char) : Quiet urls prev [d] rest :=
        ⟨urls_eq_none prev (foreign_of_inUrl stop).isAlpha _, trivial⟩
      obtain ⟨alike, ends⟩ := alike_stopped stop l rest rest' 0 none (Nat.zero_le _)
      obtain ⟨_, ends'⟩ := alike_stopped stop l rest' rest 0 none (Nat.zero_le _)
      refine ⟨alike_append alike ends ends' (alike_of_quiet (quiet _ _) (quiet _ _)), ?_, ?_⟩
      · rw [pending_append]
        exact (congrArg (fun n => pending urls n _ [d] rest) ends).trans (pending_of_quiet (quiet _ _))
      · rw [emitted_append, last_append, last_append]
        have here : pending urls 0 none l ([d] ++ rest) = 0 := ends
        rw [here, emitted_of_quiet (quiet _ _)]
        rfl

/-- Where another pattern keeps what follows a value, it is one still. -/
theorem IsValue.replace {P : Pattern Char} (value : IsValue run rest)
    (steady : ∀ c ∈ rest.head?, Steady P c) : IsValue run (replace P rest) where
  nonempty := value.nonempty
  inside := value.inside
  stops c first := value.stops c (head?_scan steady none ▸ first)

/-- The value of a pair is hidden where no other pair has its separator before it, no sensitive name
stands in quotes up to its end, and no URL begins between the last character that none has and its
end. -/
theorem redact_pair {front mid : List Char} (isHead : IsValueHead key head) (value : IsValue run rest)
    (value' : IsValue run' rest) (stops : ∀ c ∈ front.getLast?, inUrl c = false)
    (boundary : (last none (front ++ mid)).any isWord = false) (unpaired : Unpaired (front ++ mid))
    (unlinked : Unlinked ((mid ++ head) ++ run)) (unlinked' : Unlinked ((mid ++ head) ++ run'))
    (unnamed : Unnamed (front ++ ((mid ++ head) ++ run)))
    (unnamed' : Unnamed (front ++ ((mid ++ head) ++ run'))) :
    redact ((front ++ (mid ++ head)) ++ (run ++ rest)) =
      redact ((front ++ (mid ++ head)) ++ (run' ++ rest)) := by
  have steady : ∀ P ∈ [urls, members, values], ∀ c ∈ rest.head?, Steady P c :=
    fun P mem c first => steady_of_isAlpha (isAlpha_of_separator (value.stops c first)) P mem
  refine replaceAll_masked _ _ run run' rest steady ?_
  have foreign : ∀ d ∈ rest.head?, Foreign d :=
    fun d first => foreign_of_separator (value.stops d first)
  refine masked_behind (front_stopped stops _ _).1 (front_stopped stops _ []).2.1
    (front_stopped stops _ []).2.1 (quiet_unlinked unlinked foreign _)
    (quiet_unlinked unlinked' foreign _) ?_
  have unpaired' := unpaired.links ((mid ++ head) ++ (run ++ rest))
  have named := unnamed.links ((mid ++ head) ++ (run ++ rest))
  have named' := unnamed'.links ((mid ++ head) ++ (run ++ rest))
  have ends := (front_stopped stops ((mid ++ head) ++ (run ++ rest)) []).2.2
  rw [last_append, ← ends, ← last_append] at boundary
  generalize emitted urls 0 none front ((mid ++ head) ++ (run ++ rest)) = front' at *
  have again := value.replace (steady urls (by simp))
  have again' := value'.replace (steady urls (by simp))
  refine masked_of_quiet ?_ ?_ ?_
  · rw [List.append_assoc]
    exact quiet_unnamed named again.stops none
  · rw [List.append_assoc]
    exact quiet_unnamed named' again.stops none
  · have other := again.replace (P := members) fun c _ => members_steady c
    have other' := again'.replace (P := members) fun c _ => members_steady c
    obtain ⟨takes, alike⟩ := pair_hidden isHead other other' unpaired' none boundary
    obtain ⟨takes', _⟩ := pair_hidden isHead other' other unpaired' none boundary
    rw [← List.append_assoc]
    refine ⟨alike, .inl ⟨takes.ge, takes'.ge, ?_⟩⟩
    rw [takes, takes', Nat.sub_self, Nat.sub_self]

end Pairs

/-- A text without quotes is final once it has been redacted. -/
theorem redact_redact_unquoted {value : List Char} (unquoted : '"' ∉ value) :
    redact (redact value) = redact value := by
  have linked : '"' ∉ replace urls value := by
    intro mem
    obtain mem | ⟨_, _, _, _, _, found, mem⟩ := mem_scan value 0 none mem
    · exact unquoted mem
    · obtain ⟨_, _, _, _, _, _, _, _, _, _, rfl⟩ := urls_eq_some_iff.mp found
      exact absurd mem (by decide)
  have same : withoutMembers value = replace urls value :=
    replace_of_quiet (quiet_of_unquoted linked none [])
  exact redact_redact (intact_of_unquoted (same ▸ linked))

end AppriseNotifications
end CortenDesk
