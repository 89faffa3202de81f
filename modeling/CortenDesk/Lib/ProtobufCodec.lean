import CortenDesk.Lib.Protobuf

/-!
What a reader does with what a writer wrote. The bytes of an object take the reader's object from
one state to another, field after field; from the base they lead to the object that was written.
-/
namespace Protobuf
variable {M : Type}

theorem tagOf_div {number wireType : Nat} (small : wireType < 8) :
    tagOf number wireType / 8 = number := by
  rw [tagOf]
  omega

theorem Scalar.wireType_lt (s : Scalar) : s.wireType < 8 := by
  cases s <;> decide

theorem Kind.wireType_lt (kind : Kind M) : kind.wireType < 8 := by
  cases kind with
  | scalar s => exact s.wireType_lt
  | message m => exact (by decide : 2 < 8)

/-- A value in the schema's place for it. -/
theorem Scalar.eq_default {s : Scalar} {v : Value} (default : s.isDefault v = true) (kept : v.Kept) :
    v = s.default := by
  cases s <;> cases v <;> simp_all [Scalar.isDefault, Scalar.default]
  cases kept with
  | double _ zero _ => exact zero default

section Read
variable {wire : Wire} {nested : M → Nat → Bytes → Except String (Value × Bytes)}

/-- A tag is of one slot. -/
theorem Slot.read_eq_none {slot : Slot M} {tag : Nat} (away : tag / 8 ∉ slot.numbers) (bs : Bytes)
    (v : Value) : slot.read wire nested tag bs v = none := by
  cases slot with
  | plain name number s =>
      exact if_neg fun here => away (by rw [here, tagOf_div s.wireType_lt]; exact List.mem_cons_self)
  | message name number m =>
      exact if_neg fun here => away (by rw [here, tagOf_div (by decide)]; exact List.mem_cons_self)
  | packed name number s varint =>
      rw [Slot.read, if_neg, if_neg]
      · exact fun here => away (by rw [here, tagOf_div (by decide)]; exact List.mem_cons_self)
      · exact fun here => away (by rw [here, tagOf_div s.wireType_lt]; exact List.mem_cons_self)
  | repeated name number kind =>
      exact if_neg fun here => away (by rw [here, tagOf_div kind.wireType_lt]; exact List.mem_cons_self)
  | oneof name members =>
      rw [Slot.read, Option.map_eq_none_iff, List.find?_eq_none]
      intro member mem here
      rw [decide_eq_true_eq] at here
      refine away (List.mem_map.mpr ⟨member, mem, ?_⟩)
      rw [here, tagOf_div member.kind.wireType_lt]

theorem dispatch_eq_none {slots : List (Slot M)} {tag : Nat}
    (away : tag / 8 ∉ slots.flatMap Slot.numbers) (bs : Bytes) (values : List Value) :
    dispatch wire nested tag bs slots values = none := by
  induction slots generalizing values with
  | nil => rfl
  | cons slot slots ih =>
      rw [List.flatMap_cons, List.mem_append, not_or] at away
      cases values with
      | nil => rfl
      | cons v values => rw [dispatch, Slot.read_eq_none away.1, ih away.2]; rfl

/-- The slot of a tag is found wherever it stands. -/
theorem dispatch_at {before later : List (Slot M)} {slot : Slot M} {tag : Nat} {bs : Bytes}
    (away : tag / 8 ∉ before.flatMap Slot.numbers) {done more : List Value}
    (level : done.length = before.length) {v : Value} {read : Except String (Value × Bytes)}
    (here : slot.read wire nested tag bs v = some read) :
    dispatch wire nested tag bs (before ++ slot :: later) (done ++ v :: more) =
      some (read.map fun (v, rest) => (done ++ v :: more, rest)) := by
  induction before generalizing done with
  | nil =>
      rw [List.length_nil, List.length_eq_zero_iff] at level
      rw [level, List.nil_append, List.nil_append, dispatch, here]
      rfl
  | cons first before ih =>
      obtain _ | ⟨old, done⟩ := done
      · cases level
      rw [List.flatMap_cons, List.mem_append, not_or] at away
      rw [List.cons_append, List.cons_append, dispatch, Slot.read_eq_none away.1,
        ih away.2 (Nat.succ.inj level)]
      cases read <;> rfl

end Read

theorem Wire.Lawful.nat {wire : Wire} (lawful : wire.Lawful) {n : Nat} {bs : Bytes}
    (wrote : wire.write .uint32 (.number n) = .ok bs) (rest : Bytes) :
    readNat wire (bs ++ rest) = .ok (n, rest) := by
  rw [readNat, lawful.reads _ _ _ rest wrote (.number n)]
  rfl

theorem Wire.Lawful.advances_nat {wire : Wire} (lawful : wire.Lawful) {n : Nat} {bs rest : Bytes}
    (read : readNat wire bs = .ok (n, rest)) : rest.length < bs.length := by
  rw [readNat] at read
  split at read
  · next n' rest' got =>
    cases read
    exact lawful.advances _ _ _ _ got
  · cases read
  · cases read

theorem Value.push_nil (v : Value) : v.push [] = v := by
  cases v with
  | array items => exact congrArg Value.array (List.append_nil items)
  | _ => rfl

theorem Value.push_push (v : Value) (a b : List Value) : (v.push a).push b = v.push (a ++ b) := by
  cases v with
  | array items => exact congrArg Value.array (List.append_assoc items a b)
  | _ => rfl

/-- The number of a member is its own among the members of a union. -/
theorem find?_member {members : List (Member M)} (distinct : (members.map Member.number).Nodup)
    {member : Member M} (listed : member ∈ members) :
    (members.find? fun other =>
      decide (tagOf member.number member.kind.wireType = tagOf other.number other.kind.wireType)) =
      some member := by
  induction members with
  | nil => cases listed
  | cons first members ih =>
      rw [List.map_cons, List.nodup_cons] at distinct
      cases listed with
      | head => exact List.find?_cons_of_pos (by simp)
      | tail _ later =>
          rw [List.find?_cons_of_neg, ih distinct.2 later]
          rw [decide_eq_true_eq]
          intro same
          have number := congrArg (· / 8) same
          simp only [tagOf_div member.kind.wireType_lt, tagOf_div first.kind.wireType_lt] at number
          exact distinct.1 (number ▸ List.mem_map_of_mem later)

section Sends
variable (wire : Wire) (sends : M → Value → Bytes → Prop)

/-- What a value may come to on the wire, where `sends` says what a message may. -/
def Kind.Sends : Kind M → Value → Bytes → Prop
  | .scalar s, v, bs => wire.write s v = .ok bs
  | .message m, v, bs => ∃ body, sends m v body ∧ delimited wire body = .ok bs

def FieldSends (number : Nat) (kind : Kind M) (v : Value) (bs : Bytes) : Prop :=
  ∃ head body, wire.write .uint32 (.number (tagOf number kind.wireType)) = .ok head ∧
    kind.Sends wire sends v body ∧ bs = head ++ body

/-- The fields that a slot comes to. -/
inductive Slot.Sends : Slot M → Value → List Bytes → Prop
  | default {name : String} {number : Nat} {s : Scalar} {v : Value} (default : s.isDefault v = true) :
      Sends (.plain name number s) v []
  | plain {name : String} {number : Nat} {s : Scalar} {v : Value} {field : Bytes}
      (given : s.isDefault v = false) (sent : FieldSends wire sends number (.scalar s) v field) :
      Sends (.plain name number s) v [field]
  | absent {name : String} {number : Nat} {m : M} : Sends (.message name number m) .undefined []
  | message {name : String} {number : Nat} {m : M} {v : Value} {field : Bytes} (given : v ≠ .undefined)
      (sent : FieldSends wire sends number (.message m) v field) :
      Sends (.message name number m) v [field]
  | packed {name : String} {number : Nat} {s : Scalar} {varint : s.wireType = 0} {items : List Value}
      {head body : Bytes} {parts : List Bytes}
      (tagged : wire.write .uint32 (.number (tagOf number 2)) = .ok head)
      (each : List.Forall₂ (fun v part => wire.write s v = .ok part) items parts)
      (whole : delimited wire parts.flatten = .ok body) :
      Sends (.packed name number s varint) (.array items) [head ++ body]
  | repeated {name : String} {number : Nat} {kind : Kind M} {items : List Value} {fields : List Bytes}
      (each : List.Forall₂ (FieldSends wire sends number kind) items fields) :
      Sends (.repeated name number kind) (.array items) fields
  | unset {name : String} {members : List (Member M)} : Sends (.oneof name members) .undefined []
  | case {name : String} {members : List (Member M)} {member : Member M} {v : Value} {field : Bytes}
      (listed : member ∈ members) (sent : FieldSends wire sends member.number member.kind v field) :
      Sends (.oneof name members) (.case member.name v) [field]

/-- The fields that an object comes to, slot after slot. -/
inductive SlotsSend : List (Slot M) → List Value → List Bytes → Prop
  | nil : SlotsSend [] [] []
  | cons {slot : Slot M} {slots : List (Slot M)} {v : Value} {values : List Value}
      {fields more : List Bytes} (first : slot.Sends wire sends v fields)
      (later : SlotsSend slots values more) : SlotsSend (slot :: slots) (v :: values) (fields ++ more)

end Sends

section Writer
variable {wire : Wire} {writer : M → Value → Except String Bytes} {sends : M → Value → Bytes → Prop}

theorem fieldSends_of_write {kind : Kind M}
    (inner : ∀ m ∈ kind.messages, ∀ v bs, writer m v = .ok bs → sends m v bs) {number : Nat} {v : Value}
    {bs : Bytes} (wrote : writeField wire writer number kind v = .ok bs) :
    FieldSends wire sends number kind v bs := by
  obtain ⟨head, tagged, wrote⟩ := Except.bind_eq_ok.mp wrote
  obtain ⟨body, within, wrote⟩ := Except.bind_eq_ok.mp wrote
  refine ⟨head, body, tagged, ?_, (Except.ok.inj wrote).symm⟩
  cases kind with
  | scalar s => exact within
  | message m =>
      obtain ⟨body', nested, outer⟩ := Except.bind_eq_ok.mp within
      exact ⟨body', inner m List.mem_cons_self v body' nested, outer⟩

theorem write_message {name : String} {number : Nat} {m : M} {v : Value} (given : v ≠ .undefined) :
    (Slot.message name number m).write wire writer v = writeField wire writer number (.message m) v := by
  cases v with
  | undefined => exact absurd rfl given
  | _ => rfl

/-- What the writer makes of a slot is one of the things that it may come to. -/
theorem Slot.sends_of_write {slot : Slot M}
    (inner : ∀ m ∈ slot.messages, ∀ v bs, writer m v = .ok bs → sends m v bs) {v : Value} {bs : Bytes}
    (wrote : slot.write wire writer v = .ok bs) :
    ∃ fields, slot.Sends wire sends v fields ∧ bs = fields.flatten := by
  cases slot with
  | plain name number s =>
      rw [Slot.write] at wrote
      split at wrote
      · next default => exact ⟨[], .default default, (Except.ok.inj wrote).symm⟩
      · next given =>
        obtain ⟨-, -, wrote⟩ := Except.bind_eq_ok.mp wrote
        refine ⟨[bs], .plain (Bool.eq_false_iff.mpr given) (fieldSends_of_write ?_ wrote), by simp⟩
        exact fun m none => absurd none List.not_mem_nil
  | message name number m =>
      by_cases absent : v = .undefined
      · rw [absent] at wrote ⊢
        exact ⟨[], .absent, (Except.ok.inj wrote).symm⟩
      · rw [write_message absent] at wrote
        exact ⟨[bs], .message absent (fieldSends_of_write inner wrote), by simp⟩
  | packed name number s varint =>
      cases v with
      | array items =>
          obtain ⟨head, tagged, wrote⟩ := Except.bind_eq_ok.mp wrote
          obtain ⟨parts, each, wrote⟩ := Except.bind_eq_ok.mp wrote
          obtain ⟨body, whole, wrote⟩ := Except.bind_eq_ok.mp wrote
          obtain rfl := Except.ok.inj wrote
          exact ⟨[head ++ body], .packed tagged (Except.mapM_eq_ok.mp each) whole, by simp⟩
      | _ => cases wrote
  | repeated name number kind =>
      cases v with
      | array items =>
          obtain ⟨parts, each, wrote⟩ := Except.bind_eq_ok.mp wrote
          refine ⟨parts, .repeated ?_, (Except.ok.inj wrote).symm⟩
          exact (Except.mapM_eq_ok.mp each).imp fun _ _ => fieldSends_of_write inner
      | _ => cases wrote
  | oneof name members =>
      cases v with
      | undefined => exact ⟨[], .unset, (Except.ok.inj wrote).symm⟩
      | case chosen v =>
          rw [Slot.write] at wrote
          split at wrote
          · next member found =>
            obtain ⟨-, -, field⟩ := Except.bind_eq_ok.mp wrote
            have listed := List.mem_of_find?_eq_some found
            obtain rfl : member.name = chosen := by simpa using List.find?_some found
            refine ⟨[bs], .case listed (fieldSends_of_write ?_ field), by simp⟩
            exact fun m mem => inner m (List.mem_flatMap.mpr ⟨member, listed, mem⟩)
          · cases wrote
      | _ => cases wrote

theorem pieces_cons {slot : Slot M} {slots : List (Slot M)} {values : List Value} {parts : List Bytes}
    (wrote : pieces wire writer (slot :: slots) values = .ok parts) :
    ∃ v more part others, values = v :: more ∧ parts = part :: others ∧
      slot.write wire writer v = .ok part ∧ pieces wire writer slots more = .ok others := by
  cases values with
  | nil => cases wrote
  | cons v more =>
      obtain ⟨part, first, wrote⟩ := Except.bind_eq_ok.mp wrote
      obtain ⟨others, later, wrote⟩ := Except.bind_eq_ok.mp wrote
      exact ⟨v, more, part, others, rfl, (Except.ok.inj wrote).symm, first, later⟩

theorem pieces_nil {values : List Value} {parts : List Bytes}
    (wrote : pieces wire writer [] values = .ok parts) : values = [] ∧ parts = [] := by
  cases values with
  | nil => exact ⟨rfl, (Except.ok.inj wrote).symm⟩
  | cons v more => cases wrote

end Writer

namespace Schema
variable {schema : Schema M} {wire : Wire}

/-- The reader of a message inside another one. -/
def nested (schema : Schema M) (wire : Wire) (fuel : Nat) (inner : M) (length : Nat) (bs : Bytes) :
    Except String (Value × Bytes) :=
  (schema.run wire fuel inner (schema.base inner) length bs).map
    fun (values, rest) => (.object values, rest)

/-- One field of a slot: its case of the switch, then the rest of the loop. -/
theorem run_field {m : M} {fuel left tag : Nat} {values : List Value} {bs rest : Bytes}
    {read : Except String (List Value × Bytes)} (more : left ≠ 0)
    (started : readNat wire bs = .ok (tag, rest))
    (found : dispatch wire (schema.nested wire fuel) tag rest (schema.slots m) values = some read) :
    schema.run wire (fuel + 1) m values left bs =
      read.bind fun next => schema.run wire fuel m next.1 (left - (bs.length - next.2.length)) next.2 := by
  unfold nested at found
  rw [Schema.run, if_neg more, started]
  simp only [bind, Except.bind, found]

/-- A tag of no slot: the group ends, or the field is skipped. -/
theorem run_other {m : M} {fuel left tag : Nat} {values : List Value} {bs rest : Bytes}
    (more : left ≠ 0) (started : readNat wire bs = .ok (tag, rest))
    (away : dispatch wire (schema.nested wire fuel) tag rest (schema.slots m) values = none) :
    schema.run wire (fuel + 1) m values left bs =
      if tag % 8 = 4 ∨ tag = 0 then .ok (values, rest)
      else (wire.skip (tag % 8) rest).bind fun next =>
        schema.run wire fuel m values (left - (bs.length - next.length)) next := by
  unfold nested at away
  rw [Schema.run, if_neg more, started]
  simp only [bind, Except.bind, away]

/-- Reading these bytes takes the object from `values` to `values'`, whatever comes next. -/
def Reads (schema : Schema M) (wire : Wire) (m : M) (bs : Bytes) (values values' : List Value) :
    Prop :=
  ∀ fuel left rest, (bs ++ rest).length < fuel → bs.length ≤ left → ∃ fuel', rest.length < fuel' ∧
    schema.run wire fuel m values left (bs ++ rest) =
      schema.run wire fuel' m values' (left - bs.length) rest

theorem Reads.nil (m : M) (values : List Value) : schema.Reads wire m [] values values :=
  fun fuel _ _ enough _ => ⟨fuel, enough, rfl⟩

theorem Reads.append {m : M} {bs cs : Bytes} {a b c : List Value} (first : schema.Reads wire m bs a b)
    (second : schema.Reads wire m cs b c) : schema.Reads wire m (bs ++ cs) a c := by
  intro fuel left rest enough inside
  rw [List.append_assoc] at enough ⊢
  rw [List.length_append] at inside
  obtain ⟨fuel', enough', ran⟩ := first fuel left (cs ++ rest) enough (by omega)
  obtain ⟨fuel'', enough'', ran'⟩ := second fuel' (left - bs.length) rest enough' (by omega)
  refine ⟨fuel'', enough'', ?_⟩
  rw [ran, ran', List.length_append, Nat.sub_sub]

theorem Reads.run {m : M} {bs : Bytes} {a b : List Value} (reads : schema.Reads wire m bs a b)
    {fuel : Nat} {rest : Bytes} (enough : (bs ++ rest).length < fuel) :
    schema.run wire fuel m a bs.length (bs ++ rest) = .ok (b, rest) := by
  obtain ⟨fuel', enough', ran⟩ := reads fuel bs.length rest enough (Nat.le_refl _)
  obtain _ | fuel' := fuel'
  · exact absurd enough' (Nat.not_lt_zero _)
  rw [ran, Nat.sub_self, Schema.run, if_pos rfl]

theorem Reads.decode {m : M} {bs : Bytes} {values : List Value}
    (reads : schema.Reads wire m bs (schema.base m) values) :
    schema.decode wire m bs = .ok (.object values) := by
  have enough : (bs ++ []).length < bs.length + 1 := by
    rw [List.append_nil]
    exact Nat.lt_succ_self _
  have ran := reads.run enough
  rw [List.append_nil] at ran
  rw [Schema.decode, ran]
  rfl

/-- A tag and what its case of the switch reads. -/
theorem reads_field (lawful : wire.Lawful) {m : M} {tag : Nat} {head body : Bytes}
    (tagged : wire.write .uint32 (.number tag) = .ok head) {values values' : List Value}
    (switch : ∀ fuel rest, (body ++ rest).length < fuel →
      dispatch wire (schema.nested wire fuel) tag (body ++ rest) (schema.slots m) values =
        some (.ok (values', rest))) :
    schema.Reads wire m (head ++ body) values values' := by
  intro fuel left rest enough inside
  have started := lawful.nat tagged (body ++ rest)
  have shorter := lawful.advances_nat started
  rw [List.append_assoc] at enough ⊢
  obtain _ | fuel := fuel
  · exact absurd enough (Nat.not_lt_zero _)
  have some_left : left ≠ 0 := by
    rw [List.length_append] at inside
    simp only [List.length_append] at shorter
    omega
  refine ⟨fuel, ?_, ?_⟩
  · simp only [List.length_append] at enough shorter ⊢
    omega
  · rw [run_field some_left started (switch fuel rest (by omega))]
    change schema.run wire fuel m values' _ rest = _
    congr 1
    simp only [List.length_append]
    omega

/-- A field of no slot: a later version of the schema has it. -/
def Unknown (schema : Schema M) (wire : Wire) (m : M) (bs : Bytes) : Prop :=
  ∃ tag head body, bs = head ++ body ∧ wire.write .uint32 (.number (tag : Nat)) = .ok head ∧
    tag / 8 ∉ (schema.slots m).flatMap Slot.numbers ∧ tag % 8 ≠ 4 ∧ tag ≠ 0 ∧
    ∀ rest, wire.skip (tag % 8) (body ++ rest) = .ok rest

theorem reads_unknown (lawful : wire.Lawful) {m : M} {bs : Bytes} (unknown : schema.Unknown wire m bs)
    (values : List Value) : schema.Reads wire m bs values values := by
  obtain ⟨tag, head, body, rfl, tagged, away, inGroup, given, skips⟩ := unknown
  intro fuel left rest enough inside
  have started := lawful.nat tagged (body ++ rest)
  have shorter := lawful.advances_nat started
  rw [List.append_assoc] at enough ⊢
  obtain _ | fuel := fuel
  · exact absurd enough (Nat.not_lt_zero _)
  have some_left : left ≠ 0 := by
    rw [List.length_append] at inside
    simp only [List.length_append] at shorter
    omega
  refine ⟨fuel, ?_, ?_⟩
  · simp only [List.length_append] at enough shorter ⊢
    omega
  · rw [run_other some_left started (dispatch_eq_none away _ _), if_neg (not_or.mpr ⟨inGroup, given⟩), skips]
    change schema.run wire fuel m values _ rest = _
    congr 1
    simp only [List.length_append]
    omega

/-- The fields of an object in their order, with fields of a later schema before, between and after
them. -/
inductive Padded (schema : Schema M) (wire : Wire) (m : M) : List Bytes → Bytes → Prop
  | nil : Padded schema wire m [] []
  | field (field : Bytes) {fields : List Bytes} {bs : Bytes} (more : Padded schema wire m fields bs) :
      Padded schema wire m (field :: fields) (field ++ bs)
  | unknown {field : Bytes} (unknown : schema.Unknown wire m field) {fields : List Bytes} {bs : Bytes}
      (more : Padded schema wire m fields bs) : Padded schema wire m fields (field ++ bs)

/-- What an object may come to on the wire, when messages may be so deep in one another. -/
def SendsAt (schema : Schema M) (wire : Wire) : Nat → M → Value → Bytes → Prop
  | 0, _, _, _ => False
  | depth + 1, m, v, bs => ∃ values fields, v = .object values ∧
      SlotsSend wire (SendsAt schema wire depth) (schema.slots m) values fields ∧
        schema.Padded wire m fields bs

/-- What a peer may send for an object, whose schema has further fields for any of the messages. -/
def Sends (schema : Schema M) (wire : Wire) (m : M) (v : Value) (bs : Bytes) : Prop :=
  ∃ depth, schema.SendsAt wire depth m v bs

theorem Padded.append {m : M} {fields more : List Bytes} {bs cs : Bytes}
    (first : schema.Padded wire m fields bs) (later : schema.Padded wire m more cs) :
    schema.Padded wire m (fields ++ more) (bs ++ cs) := by
  induction first with
  | nil => exact later
  | field field _ ih =>
      rw [List.cons_append, List.append_assoc]
      exact .field field ih
  | unknown unknown _ ih =>
      rw [List.append_assoc]
      exact .unknown unknown ih

theorem padded_flatten (m : M) (fields : List Bytes) : schema.Padded wire m fields fields.flatten := by
  induction fields with
  | nil => exact .nil
  | cons field fields ih => exact .field field ih

/-- Reading these fields one behind another takes the object from `values` to `values'`. -/
inductive Chain (schema : Schema M) (wire : Wire) (m : M) : List Bytes → List Value → List Value → Prop
  | nil (values : List Value) : Chain schema wire m [] values values
  | cons {field : Bytes} {fields : List Bytes} {a b c : List Value}
      (first : schema.Reads wire m field a b) (later : Chain schema wire m fields b c) :
      Chain schema wire m (field :: fields) a c

theorem Chain.single {m : M} {field : Bytes} {a b : List Value} (reads : schema.Reads wire m field a b) :
    schema.Chain wire m [field] a b :=
  .cons reads (.nil b)

theorem Chain.append {m : M} {fields more : List Bytes} {a b c : List Value}
    (first : schema.Chain wire m fields a b) (later : schema.Chain wire m more b c) :
    schema.Chain wire m (fields ++ more) a c := by
  induction first with
  | nil => exact later
  | cons reads _ ih => exact .cons reads (ih later)

/-- Fields that are not known make no difference wherever they stand. -/
theorem Chain.padded (lawful : wire.Lawful) {m : M} {fields : List Bytes} {bs : Bytes}
    (padded : schema.Padded wire m fields bs) {a b : List Value} (chain : schema.Chain wire m fields a b) :
    schema.Reads wire m bs a b := by
  induction padded generalizing a with
  | nil =>
      cases chain
      exact Reads.nil m _
  | field field _ ih =>
      cases chain with
      | cons first later => exact first.append (ih later)
  | unknown unknown _ ih => exact (reads_unknown lawful unknown a).append (ih chain)

section Slots
variable {sends : M → Value → Bytes → Prop}

/-- The reader of a message gives back what was sent. -/
def Returns (schema : Schema M) (wire : Wire) (sends : M → Value → Bytes → Prop) (m : M) : Prop :=
  ∀ v bs, sends m v bs → v.Kept → ∀ fuel rest, (bs ++ rest).length < fuel →
    schema.nested wire fuel m bs.length (bs ++ rest) = .ok (v, rest)

theorem delimited_ok {body bs : Bytes} (wrote : delimited wire body = .ok bs) :
    ∃ length, wire.write .uint32 (.number body.length) = .ok length ∧ bs = length ++ body := by
  obtain ⟨length, wrote, whole⟩ := Except.bind_eq_ok.mp wrote
  exact ⟨length, wrote, (Except.ok.inj whole).symm⟩

theorem merge_message {name : String} {number : Nat} {m : M} {old v : Value}
    (given : v ≠ .undefined) : (Slot.message name number m).merge old v = v := by
  cases v with
  | undefined => exact absurd rfl given
  | _ => rfl

variable (lawful : wire.Lawful)
include lawful

theorem read_kind {kind : Kind M} (returns : ∀ m ∈ kind.messages, schema.Returns wire sends m)
    {v : Value} {bs : Bytes} (sent : kind.Sends wire sends v bs) (kept : v.Kept) {fuel : Nat}
    {rest : Bytes} (enough : (bs ++ rest).length < fuel) :
    kind.read wire (schema.nested wire fuel) (bs ++ rest) = .ok (v, rest) := by
  cases kind with
  | scalar s => exact lawful.reads s v bs rest sent kept
  | message m =>
      obtain ⟨body, inner, outer⟩ := sent
      obtain ⟨length, counted, rfl⟩ := delimited_ok outer
      rw [List.append_assoc] at enough ⊢
      have counts := lawful.nat counted (body ++ rest)
      have shorter := lawful.advances_nat counts
      rw [Kind.read, counts]
      exact returns m List.mem_cons_self v body inner kept fuel rest (by omega)

/-- The field of a slot, or of a member of its union, and the value that the slot takes from it. -/
theorem reads_slot {m : M} {before later : List (Slot M)} {slot : Slot M}
    (whole : schema.slots m = before ++ slot :: later) {number : Nat} (its : number ∈ slot.numbers)
    {type : Nat} (small : type < 8) {head body : Bytes}
    (tagged : wire.write .uint32 (.number (tagOf number type)) = .ok head) {old v : Value}
    (read : ∀ fuel rest, (body ++ rest).length < fuel →
      slot.read wire (schema.nested wire fuel) (tagOf number type) (body ++ rest) old =
        some (.ok (v, rest)))
    {done more : List Value} (level : done.length = before.length) :
    schema.Reads wire m (head ++ body) (done ++ old :: more) (done ++ v :: more) := by
  refine reads_field lawful tagged fun fuel rest enough => ?_
  have distinct := schema.distinct m
  rw [whole, List.flatMap_append, List.flatMap_cons] at distinct
  have away : tagOf number type / 8 ∉ before.flatMap Slot.numbers := by
    rw [tagOf_div small]
    exact fun earlier => (List.nodup_append.mp distinct).2.2 number earlier number
      (List.mem_append_left _ its) rfl
  rw [whole, dispatch_at away level (read fuel rest enough)]
  rfl

theorem reads_field_of_kind {m : M} {before later : List (Slot M)} {slot : Slot M}
    (whole : schema.slots m = before ++ slot :: later) {number : Nat} (its : number ∈ slot.numbers)
    {kind : Kind M} (returns : ∀ m ∈ kind.messages, schema.Returns wire sends m) {v : Value}
    {bs : Bytes} (sent : FieldSends wire sends number kind v bs) (kept : v.Kept) {old new : Value}
    (takes : ∀ nested bs rest, kind.read wire nested bs = .ok (v, rest) →
      slot.read wire nested (tagOf number kind.wireType) bs old = some (.ok (new, rest)))
    {done more : List Value} (level : done.length = before.length) :
    schema.Reads wire m bs (done ++ old :: more) (done ++ new :: more) := by
  obtain ⟨head, body, tagged, inner, rfl⟩ := sent
  refine reads_slot lawful whole its kind.wireType_lt tagged (fun fuel rest enough => ?_) level
  exact takes _ _ _ (read_kind lawful returns inner kept enough)

theorem read_packed {s : Scalar} {items : List Value} {parts : List Bytes}
    (wrote : List.Forall₂ (fun v part => wire.write s v = .ok part) items parts)
    (kept : ∀ v ∈ items, v.Kept) {fuel : Nat} {rest : Bytes}
    (enough : (parts.flatten ++ rest).length < fuel) :
    readPacked wire s fuel parts.flatten.length (parts.flatten ++ rest) = .ok (items, rest) := by
  induction wrote generalizing fuel with
  | nil =>
      obtain _ | fuel := fuel
      · exact absurd enough (Nat.not_lt_zero _)
      rfl
  | @cons v part items parts first _ ih =>
      obtain _ | fuel := fuel
      · exact absurd enough (Nat.not_lt_zero _)
      have read := lawful.reads s v part (parts.flatten ++ rest) first (kept v List.mem_cons_self)
      have shorter := lawful.advances _ _ _ _ read
      rw [List.flatten_cons, List.append_assoc] at enough ⊢
      have some_left : (part ++ parts.flatten).length ≠ 0 := by
        simp only [List.length_append] at shorter ⊢
        omega
      have advanced : (part ++ parts.flatten).length -
          ((part ++ (parts.flatten ++ rest)).length - (parts.flatten ++ rest).length) =
          parts.flatten.length := by
        simp only [List.length_append]
        omega
      rw [readPacked, if_neg some_left, read]
      change (readPacked wire s fuel ((part ++ parts.flatten).length -
        ((part ++ (parts.flatten ++ rest)).length - (parts.flatten ++ rest).length))
        (parts.flatten ++ rest) >>= _) = _
      rw [advanced, ih (fun v mem => kept v (List.mem_cons_of_mem _ mem)) (by omega)]
      rfl

theorem chain_items {m : M} {before later : List (Slot M)} {name : String} {number : Nat} {kind : Kind M}
    (whole : schema.slots m = before ++ .repeated name number kind :: later)
    (returns : ∀ m ∈ kind.messages, schema.Returns wire sends m) {items : List Value}
    {fields : List Bytes} (each : List.Forall₂ (FieldSends wire sends number kind) items fields)
    (kept : ∀ v ∈ items, v.Kept) (old : Value) {done more : List Value}
    (level : done.length = before.length) :
    schema.Chain wire m fields (done ++ old :: more) (done ++ old.push items :: more) := by
  induction each generalizing old with
  | nil =>
      rw [Value.push_nil]
      exact .nil _
  | @cons v field items fields first _ ih =>
      have one : schema.Reads wire m field (done ++ old :: more) (done ++ old.push [v] :: more) := by
        refine reads_field_of_kind lawful whole List.mem_cons_self returns first
          (kept v List.mem_cons_self) (fun nested bs rest read => ?_) level
        rw [Slot.read, if_pos rfl, read]
        rfl
      have others := ih (fun v mem => kept v (List.mem_cons_of_mem _ mem)) (old.push [v])
      rw [Value.push_push] at others
      exact .cons one others

/-- What a slot comes to on the wire is merged into what the reader has. -/
theorem chain_slot {m : M} {before later : List (Slot M)} {slot : Slot M}
    (whole : schema.slots m = before ++ slot :: later)
    (returns : ∀ m ∈ slot.messages, schema.Returns wire sends m) {v : Value} {fields : List Bytes}
    (sent : slot.Sends wire sends v fields) (kept : v.Kept) (old : Value)
    {done more : List Value} (level : done.length = before.length) :
    schema.Chain wire m fields (done ++ old :: more) (done ++ slot.merge old v :: more) := by
  cases sent with
  | default default =>
      rw [Slot.merge, if_pos default]
      exact .nil _
  | plain given sent =>
      rw [Slot.merge, given, if_neg Bool.false_ne_true]
      refine .single (reads_field_of_kind lawful whole List.mem_cons_self ?_ sent kept
        (fun nested bs rest read => ?_) level)
      · exact fun inner none => absurd none List.not_mem_nil
      · exact (if_pos rfl).trans (congrArg some read)
  | absent => exact .nil _
  | message given sent =>
      rw [merge_message given]
      refine .single (reads_field_of_kind lawful whole List.mem_cons_self ?_ sent kept
        (fun nested bs rest read => ?_) level)
      · exact returns
      · exact (if_pos rfl).trans (congrArg some read)
  | @packed name number s varint items head body parts tagged each inner =>
      obtain ⟨length, counted, rfl⟩ := delimited_ok inner
      cases kept with
      | array _ kept =>
      refine .single (reads_slot lawful whole List.mem_cons_self (by decide) tagged
        (fun fuel rest enough => ?_) level)
      have single : tagOf number 2 ≠ tagOf number s.wireType := by
        rw [varint, tagOf, tagOf]
        omega
      rw [Slot.read, if_neg single, if_pos rfl, List.append_assoc,
        lawful.nat counted (parts.flatten ++ rest)]
      change some ((readPacked wire s ((parts.flatten ++ rest).length + 1) parts.flatten.length
        (parts.flatten ++ rest)) >>= _) = _
      rw [read_packed lawful each kept (Nat.lt_succ_self _)]
      rfl
  | repeated each =>
      cases kept with
      | array _ kept => exact chain_items lawful whole returns each kept old level
  | unset => exact .nil _
  | @case name members member v field listed sent =>
      cases kept with
      | case _ _ kept =>
      refine .single (reads_field_of_kind lawful whole (List.mem_map_of_mem listed) ?_ sent kept
        (fun nested bs rest read => ?_) level)
      · exact fun inner mem => returns inner (List.mem_flatMap.mpr ⟨member, listed, mem⟩)
      · have distinct := schema.distinct m
        rw [whole, List.flatMap_append, List.flatMap_cons] at distinct
        have first := find?_member (List.nodup_append.mp (List.nodup_append.mp distinct).2.1).1 listed
        rw [Slot.read, first, Option.map_some, read]
        rfl

theorem chain_slots {m : M} {before later : List (Slot M)} (whole : schema.slots m = before ++ later)
    (returns : ∀ inner ∈ later.flatMap Slot.messages, schema.Returns wire sends inner)
    {values : List Value} {fields : List Bytes} (sent : SlotsSend wire sends later values fields)
    (kept : ∀ v ∈ values, v.Kept) {done old : List Value} (level : done.length = before.length)
    (rest : old.length = later.length) :
    schema.Chain wire m fields (done ++ old) (done ++ mergeAll later old values) := by
  induction sent generalizing before done old with
  | nil =>
      rw [List.length_nil, List.length_eq_zero_iff] at rest
      rw [rest]
      exact .nil _
  | @cons slot later v values fields more here _ ih =>
      obtain _ | ⟨was, old⟩ := old
      · cases rest
      have first : schema.Chain wire m fields (done ++ was :: old) (done ++ slot.merge was v :: old) :=
        chain_slot lawful whole (fun inner mem => returns inner (List.mem_append_left _ mem)) here
          (kept v List.mem_cons_self) was level
      have one_more : schema.slots m = (before ++ [slot]) ++ later := by
        rw [whole, List.append_assoc, List.singleton_append]
      have further : (done ++ [slot.merge was v]).length = (before ++ [slot]).length := by
        rw [List.length_append, List.length_append, level]
        rfl
      have next := ih one_more (fun inner mem => returns inner (List.mem_append_right _ mem))
        (fun v mem => kept v (List.mem_cons_of_mem _ mem)) further (Nat.succ.inj rest)
      rw [List.append_assoc, List.append_assoc] at next
      exact first.append next

end Slots

section Objects
variable {sends : M → Value → Bytes → Prop}

theorem merge_base {slot : Slot M} {v : Value} {fields : List Bytes}
    (sent : slot.Sends wire sends v fields) (kept : v.Kept) : slot.merge slot.base v = v := by
  cases sent with
  | default default =>
      rw [Slot.merge, if_pos default]
      exact (Scalar.eq_default default kept).symm
  | plain given _ => rw [Slot.merge, given, if_neg Bool.false_ne_true]
  | message given _ => exact merge_message given
  | absent | packed _ _ _ | repeated _ | unset | case _ _ => rfl

theorem mergeAll_base {slots : List (Slot M)} {values : List Value} {fields : List Bytes}
    (sent : SlotsSend wire sends slots values fields) (kept : ∀ v ∈ values, v.Kept) :
    mergeAll slots (slots.map Slot.base) values = values := by
  induction sent with
  | nil => rfl
  | cons first _ ih =>
      rw [List.map_cons, mergeAll, merge_base first (kept _ List.mem_cons_self),
        ih fun v mem => kept v (List.mem_cons_of_mem _ mem)]

theorem length_of_slotsSend {slots : List (Slot M)} {values : List Value} {fields : List Bytes}
    (sent : SlotsSend wire sends slots values fields) : values.length = slots.length := by
  induction sent with
  | nil => rfl
  | cons _ _ ih => rw [List.length_cons, List.length_cons, ih]

theorem Sends.parts {m : M} {v : Value} {bs : Bytes} (sent : schema.Sends wire m v bs) :
    ∃ depth values fields, v = .object values ∧
      SlotsSend wire (schema.SendsAt wire depth) (schema.slots m) values fields ∧
        schema.Padded wire m fields bs := by
  obtain ⟨_ | depth, sent⟩ := sent
  · exact sent.elim
  · exact ⟨depth, sent⟩

variable (lawful : wire.Lawful)
include lawful

theorem returns_sendsAt (depth : Nat) (m : M) : schema.Returns wire (schema.SendsAt wire depth) m := by
  induction depth generalizing m with
  | zero => exact fun v bs sent => sent.elim
  | succ depth ih =>
      rintro v bs ⟨values, fields, rfl, sent, padded⟩ kept fuel rest enough
      cases kept with
      | object _ kept =>
          have filled : mergeAll (schema.slots m) (schema.base m) values = values :=
            mergeAll_base sent kept
          have chain : schema.Chain wire m fields ([] ++ schema.base m) ([] ++ _) :=
            chain_slots lawful (List.nil_append _).symm (fun inner _ => ih inner) sent kept rfl
              (List.length_map _)
          rw [List.nil_append, List.nil_append, filled] at chain
          rw [nested, (chain.padded lawful padded).run enough]
          rfl

/-- What was sent for an object is merged into what the reader has. -/
theorem reads_sent {m : M} {values : List Value} {bs : Bytes} (sent : schema.Sends wire m (.object values) bs)
    (kept : ∀ v ∈ values, v.Kept) {old : List Value} (level : old.length = (schema.slots m).length) :
    schema.Reads wire m bs old (mergeAll (schema.slots m) old values) := by
  obtain ⟨depth, _, fields, same, slots, padded⟩ := sent.parts
  obtain rfl := Value.object.inj same
  have chain : schema.Chain wire m fields ([] ++ old) ([] ++ _) :=
    chain_slots lawful (List.nil_append _).symm (fun inner _ => returns_sendsAt lawful depth inner) slots
      kept rfl level
  exact chain.padded lawful padded

theorem reads_base {m : M} {values : List Value} {bs : Bytes} (sent : schema.Sends wire m (.object values) bs)
    (kept : ∀ v ∈ values, v.Kept) : schema.Reads wire m bs (schema.base m) values := by
  obtain ⟨_, _, _, same, slots, _⟩ := sent.parts
  obtain rfl := Value.object.inj same
  have filled : mergeAll (schema.slots m) (schema.base m) values = values := mergeAll_base slots kept
  have level : (schema.base m).length = (schema.slots m).length := List.length_map _
  have reads := reads_sent lawful sent kept level
  rwa [filled] at reads

/-- A reader skips the fields of a later schema. -/
theorem decode_sent {m : M} {v : Value} {bs : Bytes} (sent : schema.Sends wire m v bs) (kept : v.Kept) :
    schema.decode wire m bs = .ok v := by
  obtain ⟨_, values, _, rfl, _⟩ := sent.parts
  cases kept with
  | object _ kept => exact (reads_base lawful sent kept).decode

/-- Two messages one after the other are read as one, in which the second stands over the first. -/
theorem decode_append {m : M} {a b : List Value} {bs cs : Bytes}
    (first : schema.Sends wire m (.object a) bs) (second : schema.Sends wire m (.object b) cs)
    (kept : ∀ v ∈ a, v.Kept) (kept' : ∀ v ∈ b, v.Kept) :
    schema.decode wire m (bs ++ cs) = .ok (.object (mergeAll (schema.slots m) a b)) := by
  obtain ⟨_, _, _, same, slots, _⟩ := first.parts
  obtain rfl := Value.object.inj same
  have level := length_of_slotsSend slots
  exact ((reads_base lawful first kept).append (reads_sent lawful second kept' level)).decode

end Objects

section Depth
variable {writer writer' : M → Value → Except String Bytes}

theorem writeField_congr {kind : Kind M} (same : ∀ m ∈ kind.messages, writer m = writer' m)
    (number : Nat) : writeField wire writer number kind = writeField wire writer' number kind := by
  funext v
  cases kind with
  | scalar s => rfl
  | message m => rw [writeField, writeField, Kind.write, Kind.write, same m List.mem_cons_self]

theorem write_congr {slot : Slot M} (same : ∀ m ∈ slot.messages, writer m = writer' m) (v : Value) :
    slot.write wire writer v = slot.write wire writer' v := by
  cases slot with
  | plain name number s => rfl
  | message name number m =>
      by_cases absent : v = .undefined
      · rw [absent]
        rfl
      · rw [write_message absent, write_message absent, writeField_congr same]
  | packed name number s varint => cases v <;> rfl
  | repeated name number kind =>
      cases v with
      | array items => rw [Slot.write, Slot.write, writeField_congr same]
      | _ => rfl
  | oneof name members =>
      cases v with
      | case chosen v =>
          rw [Slot.write, Slot.write]
          split
          · next member found =>
            have listed := List.mem_of_find?_eq_some found
            rw [writeField_congr fun m mem => same m (List.mem_flatMap.mpr ⟨member, listed, mem⟩)]
          · rfl
      | _ => rfl

theorem pieces_congr {slots : List (Slot M)} (same : ∀ m ∈ slots.flatMap Slot.messages, writer m = writer' m)
    (values : List Value) : pieces wire writer slots values = pieces wire writer' slots values := by
  induction slots generalizing values with
  | nil => cases values <;> rfl
  | cons slot slots ih =>
      cases values with
      | nil => rfl
      | cons v values =>
          rw [pieces, pieces, write_congr fun m mem => same m (List.mem_append_left _ mem),
            ih fun m mem => same m (List.mem_append_right _ mem)]

/-- The nesting of the message types ends before the writer's depth does. -/
theorem encodeAt_eq {depth depth' : Nat} {m : M} (enough : schema.rank m < depth)
    (enough' : schema.rank m < depth') : schema.encodeAt wire depth m = schema.encodeAt wire depth' m := by
  induction depth generalizing depth' m with
  | zero => exact absurd enough (Nat.not_lt_zero _)
  | succ depth ih =>
      obtain _ | depth' := depth'
      · exact absurd enough' (Nat.not_lt_zero _)
      funext v
      cases v with
      | object values =>
          rw [encodeAt, encodeAt, pieces_congr]
          intro inner mem
          have smaller := schema.smaller m inner mem
          exact ih (by omega) (by omega)
      | _ => rfl

end Depth

section Encode
variable {writer : M → Value → Except String Bytes} {sends : M → Value → Bytes → Prop}

/-- What is made of the slots is still sent with fields of a later schema between it. -/
theorem slotsSend_of_pieces {m : M} {slots : List (Slot M)}
    (inner : ∀ m ∈ slots.flatMap Slot.messages, ∀ v bs, writer m v = .ok bs → sends m v bs)
    {parts : List Bytes} {bs : Bytes} (padded : schema.Padded wire m parts bs) {values : List Value}
    (wrote : pieces wire writer slots values = .ok parts) :
    ∃ fields, SlotsSend wire sends slots values fields ∧ schema.Padded wire m fields bs := by
  induction padded generalizing slots values with
  | nil =>
      cases slots with
      | nil =>
          rw [(pieces_nil wrote).1]
          exact ⟨[], .nil, .nil⟩
      | cons slot slots =>
          obtain ⟨_, _, _, _, _, none, _⟩ := pieces_cons wrote
          cases none
  | field part _ ih =>
      cases slots with
      | nil => cases (pieces_nil wrote).2
      | cons slot slots =>
          obtain ⟨v, more, first, others, rfl, same, here, there⟩ := pieces_cons wrote
          obtain ⟨rfl, rfl⟩ := List.cons.inj same
          obtain ⟨fields, sent, rfl⟩ :=
            Slot.sends_of_write (fun m mem => inner m (List.mem_append_left _ mem)) here
          obtain ⟨later, sent', padded⟩ := ih (fun m mem => inner m (List.mem_append_right _ mem)) there
          exact ⟨fields ++ later, .cons sent sent', (padded_flatten _ fields).append padded⟩
  | unknown unknown _ ih =>
      obtain ⟨fields, sent, padded⟩ := ih inner wrote
      exact ⟨fields, sent, .unknown unknown padded⟩

theorem sendsAt_of_encodeAt {depth : Nat} {m : M} {v : Value} {bs : Bytes}
    (wrote : schema.encodeAt wire depth m v = .ok bs) : schema.SendsAt wire depth m v bs := by
  induction depth generalizing m v bs with
  | zero => cases wrote
  | succ depth ih =>
      cases v with
      | object values =>
          obtain ⟨parts, each, whole⟩ := Except.bind_eq_ok.mp wrote
          obtain rfl := Except.ok.inj whole
          obtain ⟨fields, sent, padded⟩ :=
            slotsSend_of_pieces (fun inner _ v bs => ih) (padded_flatten m parts) each
          exact ⟨values, fields, rfl, sent, padded⟩
      | _ => cases wrote

theorem sends_of_encode {m : M} {v : Value} {bs : Bytes} (wrote : schema.encode wire m v = .ok bs) :
    schema.Sends wire m v bs :=
  ⟨_, sendsAt_of_encodeAt wrote⟩

/-- The encoded slots of an object with fields of a later schema between them. -/
theorem sends_of_padded {m : M} {values : List Value} {parts : List Bytes} {bs : Bytes}
    (wrote : pieces wire (schema.encode wire) (schema.slots m) values = .ok parts)
    (padded : schema.Padded wire m parts bs) : schema.Sends wire m (.object values) bs := by
  have inner : ∀ inner ∈ (schema.slots m).flatMap Slot.messages, ∀ v bs,
      schema.encode wire inner v = .ok bs → schema.SendsAt wire (schema.rank m) inner v bs := by
    intro inner mem v bs wrote
    have smaller := schema.smaller m inner mem
    rw [encode, encodeAt_eq (Nat.lt_succ_self _) smaller] at wrote
    exact sendsAt_of_encodeAt wrote
  obtain ⟨fields, sent, padded⟩ := slotsSend_of_pieces inner padded wrote
  exact ⟨schema.rank m + 1, values, fields, rfl, sent, padded⟩

end Encode

section Short
variable (lawful : wire.Lawful)
include lawful

theorem read_nil {kind : Kind M} {nested : M → Nat → Bytes → Except String (Value × Bytes)}
    {v : Value} {rest : Bytes} (read : kind.read wire nested [] = .ok (v, rest)) : False := by
  cases kind with
  | scalar s => exact Nat.not_lt_zero _ (lawful.advances s [] v rest read)
  | message m =>
      obtain ⟨⟨n, more⟩, counted, -⟩ := Except.bind_eq_ok.mp read
      exact Nat.not_lt_zero _ (lawful.advances_nat counted)

/-- With nothing left no field can be read. -/
theorem slot_read_nil {slot : Slot M} {tag : Nat} {old : Value} {read : Except String (Value × Bytes)}
    {nested : M → Nat → Bytes → Except String (Value × Bytes)}
    (here : slot.read wire nested tag [] old = some read) (found : Value × Bytes) : read ≠ .ok found := by
  have scalar {s : Scalar} {v : Value} {rest : Bytes} : wire.read s [] ≠ .ok (v, rest) := fun got =>
    Nat.not_lt_zero _ (lawful.advances s [] v rest got)
  have count {n : Nat} {rest : Bytes} : readNat wire [] ≠ .ok (n, rest) := fun got =>
    Nat.not_lt_zero _ (lawful.advances_nat got)
  rintro rfl
  cases slot with
  | plain name number s =>
      obtain ⟨-, read⟩ := Option.ite_none_right_eq_some.mp here
      exact scalar (Option.some.inj read)
  | message name number m =>
      obtain ⟨-, read⟩ := Option.ite_none_right_eq_some.mp here
      exact read_nil lawful (Option.some.inj read)
  | packed name number s varint =>
      rw [Slot.read] at here
      split at here
      · obtain ⟨item, read, -⟩ := Except.map_eq_ok.mp (Option.some.inj here)
        exact scalar read
      · obtain ⟨-, read⟩ := Option.ite_none_right_eq_some.mp here
        obtain ⟨length, read, -⟩ := Except.bind_eq_ok.mp (Option.some.inj read)
        exact count read
  | repeated name number kind =>
      obtain ⟨-, read⟩ := Option.ite_none_right_eq_some.mp here
      obtain ⟨item, read, -⟩ := Except.map_eq_ok.mp (Option.some.inj read)
      exact read_nil lawful read
  | oneof name members =>
      obtain ⟨member, -, read⟩ := Option.map_eq_some_iff.mp here
      obtain ⟨item, read, -⟩ := Except.map_eq_ok.mp read
      exact read_nil lawful read

theorem dispatch_nil {slots : List (Slot M)} {tag : Nat} {old : List Value}
    {read : Except String (List Value × Bytes)}
    {nested : M → Nat → Bytes → Except String (Value × Bytes)}
    (here : dispatch wire nested tag [] slots old = some read) (found : List Value × Bytes) :
    read ≠ .ok found := by
  induction slots generalizing old read found with
  | nil => cases here
  | cons slot slots ih =>
      cases old with
      | nil => cases here
      | cons v old =>
          rw [dispatch] at here
          split at here
          · next first taken =>
            obtain rfl := Option.some.inj here
            intro done
            obtain ⟨value, ok, -⟩ := Except.map_eq_ok.mp done
            exact slot_read_nil lawful taken value ok
          · obtain ⟨later, taken, rfl⟩ := Option.map_eq_some_iff.mp here
            intro done
            obtain ⟨value, ok, -⟩ := Except.map_eq_ok.mp done
            exact ih taken value ok

/-- A frame of at most one byte has no field. -/
theorem decode_short {m : M} {bs : Bytes} {v : Value} (short : bs.length ≤ 1)
    (decoded : schema.decode wire m bs = .ok v) : v = .object (schema.base m) := by
  obtain ⟨⟨values, rest⟩, ran, rfl⟩ := Except.map_eq_ok.mp decoded
  refine congrArg Value.object ?_
  by_cases none_left : bs.length = 0
  · rw [none_left, run, if_pos rfl] at ran
    exact (congrArg Prod.fst (Except.ok.inj ran)).symm
  · obtain ⟨⟨tag, more⟩, started⟩ : ∃ first, readNat wire bs = .ok first := by
      rw [run, if_neg none_left] at ran
      obtain ⟨first, started, -⟩ := Except.bind_eq_ok.mp ran
      exact ⟨first, started⟩
    have nothing : more = [] := by
      have shorter := lawful.advances_nat started
      exact List.eq_nil_of_length_eq_zero (by omega)
    have one : bs.length = 1 := by omega
    subst nothing
    cases here : dispatch wire (schema.nested wire bs.length) tag [] (schema.slots m) (schema.base m) with
    | some read =>
        rw [run_field none_left started here] at ran
        obtain ⟨found, ok, -⟩ := Except.bind_eq_ok.mp ran
        exact absurd ok (dispatch_nil lawful here found)
    | none =>
        rw [run_other none_left started here] at ran
        split at ran
        · exact (congrArg Prod.fst (Except.ok.inj ran)).symm
        · obtain ⟨left, skipped, ran⟩ := Except.bind_eq_ok.mp ran
          obtain rfl := List.eq_nil_of_length_eq_zero (Nat.le_zero.mp (lawful.skips _ _ _ skipped))
          rw [one] at ran
          rw [List.length_nil, Nat.sub_zero, Nat.sub_self, run, if_pos rfl] at ran
          exact (congrArg Prod.fst (Except.ok.inj ran)).symm

end Short

end Schema
end Protobuf
