import CortenDesk.Strategy.Client

/-!
Sanitized option maps as a canonical form: what they hold, that they do not depend on the order
they were written in, and that the strict comparison of the delivery engine is therefore one of
policies.
-/
namespace CortenDesk
open Php

/-- The number that a string of digits spells, however long it is. -/
def spelledNumber (s : String) : Nat :=
  s.toList.foldl (fun n c => 10 * n + (c.toNat - '0'.toNat)) 0

/-- What a client takes for a value of the type; the empty value resets the option. -/
def OptionType.Valid : OptionType → String → Prop
  | .bool, value => value = "Y" ∨ value = "N" ∨ value = ""
  | .enum values, value => value ∈ values
  | .int min max, value => value = "" ∨
      (value ≠ "" ∧ (∀ c ∈ value.toList, c.isDigit) ∧ min ≤ spelledNumber value ∧
        spelledNumber value ≤ max)
  | .string, _ => True

/-- The bounds of the integer options are integers of PHP. -/
theorem bounded_optionKeys : ∀ e ∈ optionKeys, ∀ min max, e.2 = .int min max → max < 2 ^ 63 - 1 := by
  have bounded : ∀ e ∈ optionKeys,
      (match e.2 with | .int _ max => decide (max < 2 ^ 63 - 1) | _ => true) = true := by
    decide +kernel
  intro e mem min max typed
  have below := bounded e mem
  rw [typed] at below
  exact of_decide_eq_true below

theorem mem_of_lookup {l : List (String × OptionType)} {key : String} {spec : OptionType}
    (listed : l.lookup key = some spec) : (key, spec) ∈ l := by
  induction l with
  | nil => cases listed
  | cons e l ih =>
      rw [List.lookup_cons] at listed
      split at listed
      · next same =>
        obtain rfl := Option.some.inj listed
        rw [eq_of_beq same]
        exact List.mem_cons_self
      · exact List.mem_cons_of_mem e (ih listed)

/-- The saturation of the cast lets no number of digits through. -/
theorem valid_of_accepts {spec : OptionType} {value : String}
    (bounded : ∀ min max, spec = .int min max → max < 2 ^ 63 - 1) (accepted : spec.accepts value) :
    spec.Valid value := by
  cases spec with
  | bool => simpa [OptionType.accepts, OptionType.Valid] using accepted
  | enum values => simpa [OptionType.accepts, OptionType.Valid] using accepted
  | string => trivial
  | int min max =>
      simp only [OptionType.accepts, Bool.or_eq_true, decide_eq_true_eq, Bool.and_eq_true,
        ctypeDigit, List.all_eq_true] at accepted
      refine accepted.imp_right fun typed => ?_
      obtain ⟨⟨⟨nonempty, digits⟩, low⟩, high⟩ := typed
      have small := bounded min max rfl
      have cast : digitsToInt value = Nat.min (spelledNumber value) (2 ^ 63 - 1) := rfl
      have whole : digitsToInt value = spelledNumber value := by
        obtain short | long := Nat.le_total (spelledNumber value) (2 ^ 63 - 1)
        · exact cast.trans (Nat.min_eq_left short)
        · have saturated := cast.trans (Nat.min_eq_right long)
          omega
      rw [whole] at low high
      exact ⟨nonempty, digits, low, high⟩

theorem isDigit_of_mem_toString {n : Nat} {c : Char} (mem : c ∈ (toString n).toList) : c.isDigit := by
  rw [Nat.toString_eq_repr, Nat.toList_repr] at mem
  exact Nat.isDigit_of_mem_toDigits (by decide) (by decide) mem

theorem mem_toString_int {i : Int} {c : Char} (mem : c ∈ (toString i).toList) :
    c.isDigit ∨ c = '-' := by
  rw [Int.toString_eq_repr, Int.repr_eq_if] at mem
  split at mem
  · exact .inl (isDigit_of_mem_toString mem)
  · rw [String.toList_append, List.mem_append] at mem
    obtain sign | digit := mem
    · exact .inr (List.mem_singleton.mp sign)
    · exact .inl (isDigit_of_mem_toString digit)

/-- No integer key of a PHP array is on the allowlist. -/
theorem lookup_optionKeys_int (i : Int) : optionKeys.lookup (toString i) = none := by
  have lettered : (optionKeys.all fun e => e.1.toList.any fun c => ! c.isDigit && c ≠ '-') = true :=
    by decide +kernel
  cases listed : optionKeys.lookup (toString i) with
  | none => rfl
  | some spec =>
      obtain ⟨c, mem, letter⟩ := List.any_eq_true.mp
        (List.all_eq_true.mp lettered _ (mem_of_lookup listed))
      rw [Bool.and_eq_true, Bool.not_eq_true', decide_eq_true_eq] at letter
      obtain digit | sign := mem_toString_int mem
      · rw [letter.1] at digit
        cases digit
      · exact absurd sign letter.2

/-- An entry that is kept has its key as a string. -/
theorem key_of_sanitizeEntry {e : Key × Value} {o : String × String}
    (kept : sanitizeEntry e = some o) : e.1 = .str o.1 := by
  simp only [sanitizeEntry, Option.bind_eq_bind, Option.bind_eq_some_iff] at kept
  obtain ⟨spec, listed, value, _, kept⟩ := kept
  split at kept
  · obtain rfl := Option.some.inj kept
    obtain ⟨key, item⟩ := e
    cases key with
    | int i =>
        rw [show Key.toText (Key.int i) = toString i from rfl, lookup_optionKeys_int] at listed
        cases listed
    | str s => rfl
  · cases kept

theorem keys_sanitizeEntry (l : List (Key × Value)) :
    ((l.filterMap sanitizeEntry).map fun o => Key.str o.1).Sublist (l.map Prod.fst) := by
  induction l with
  | nil => exact List.Sublist.slnil
  | cons e l ih =>
      rw [List.filterMap_cons]
      cases kept : sanitizeEntry e with
      | none => exact ih.cons e.1
      | some o =>
          rw [List.map_cons, List.map_cons, key_of_sanitizeEntry kept]
          exact ih.cons_cons (.str o.1)

/-- The entries that are kept are entries of one key each. -/
theorem nodup_sanitizeEntry (options : Arr Key Value) :
    ((options.entries.filterMap sanitizeEntry).map Prod.fst).Nodup := by
  have keys : (((options.entries.filterMap sanitizeEntry).map Prod.fst).map Key.str).Nodup := by
    rw [List.map_map]
    exact options.nodup.sublist (keys_sanitizeEntry options.entries)
  exact keys.of_map

/-- The order of the keys makes no difference. -/
theorem sanitizeOptions_perm {a b : Arr Key Value} (perm : a.entries.Perm b.entries) :
    sanitizeOptions a = sanitizeOptions b := by
  apply OptionMap.eq_of_map_eq
  refine OrderedMap.eq_of_sorted (OrderedMap.sorted_ksort _) (OrderedMap.sorted_ksort _) fun k => ?_
  rw [sanitizeOptions, sanitizeOptions, OrderedMap.get?_ksort, OrderedMap.get?_ksort]
  refine OrderedMap.get?_eq_of_mem_iff (fun e => ?_) k
  rw [OrderedMap.entries_ofList _ (nodup_sanitizeEntry a), OrderedMap.entries_ofList _ (nodup_sanitizeEntry b)]
  exact (perm.filterMap sanitizeEntry).mem_iff

/-- A sanitized map as the array it is in the code. -/
def OptionMap.toArray (m : OptionMap) : Arr Key Value := JsonColumn.text.write m.map

/-- A heartbeat: the strategies it finds, the clock and the echoed version. -/
structure Heartbeat where
  strategies : List Strategy
  clock : DeliveryClock
  echo : Int

namespace Strategy
variable (column : JsonColumn)

/-- The device row after a heartbeat. -/
def heartbeat (device : Device) (beat : Heartbeat) : Device :=
  (deliveryFor column beat.strategies beat.clock device beat.echo).1

/-- The row of a device that has been told the policy, or is told nothing. -/
def HasDesired (desired : OptionMap) (device : Device) : Prop :=
  device.status ≠ .active ∨
    (desired.map = ∅ ∧ device.acked = ∅ ∧ device.strategyVersion = none) ∨
    (device.strategyVersion.isSome ∧ device.sent = desired.map)

/-- The token and the map it stands for. -/
def told (device : Device) : Option Int × Option (Arr Key Value) :=
  (device.strategyVersion, device.strategyOptions)

section Rows
variable {column}
variable {desired : OptionMap} {device : Device}

theorem told_acknowledge (clock : DeliveryClock) (device : Device) (echo : Int) :
    told (acknowledge column clock device echo) = told device ∧
      (acknowledge column clock device echo).status = device.status := by
  unfold acknowledge
  split <;> exact ⟨rfl, rfl⟩

theorem told_answer (clock : DeliveryClock) (strategy : Option Strategy)
    (desired acked sent : Arr String String) (version echo : Int) (device : Device) :
    told (answer clock strategy desired acked sent version echo device).1 = told device ∧
      (answer clock strategy desired acked sent version echo device).1.status = device.status := by
  obtain same | backfilled := answer_row clock device strategy desired acked sent version echo
  · rw [same]
    exact ⟨rfl, rfl⟩
  · rw [backfilled]
    unfold backfillSentAt
    split <;> exact ⟨rfl, rfl⟩

/-- A row that holds the wanted map under a token is not bumped. -/
theorem bump_eq_self (clock : DeliveryClock) (versioned : device.strategyVersion.isSome)
    (same : device.sent = desired.map) : bump column clock desired.map device = device := by
  refine if_neg ?_
  rintro (unversioned | other)
  · rw [unversioned] at versioned
    cases versioned
  · exact other same

theorem versioned_bump (clock : DeliveryClock) :
    (bump column clock desired.map device).strategyVersion.isSome := by
  unfold bump
  split
  · rfl
  · next unchanged =>
    exact Option.isSome_iff_ne_none.mpr fun unversioned => unchanged (.inl unversioned)

/-- One heartbeat settles the row. -/
theorem settled_heartbeat {beat : Heartbeat}
    (policy : desiredFor beat.strategies device = desired) :
    HasDesired desired (heartbeat column device beat) := by
  unfold heartbeat deliveryFor
  split
  · next inactive => exact .inl inactive
  · dsimp only
    rw [policy]
    split
    · next silent => exact .inr (.inl silent)
    · have row := (told_answer (beat.clock) (resolvedFor beat.strategies device) desired.map
        (ackedAfter device beat.echo) device.sent
        ((bump column beat.clock desired.map
          (acknowledge column beat.clock device beat.echo)).strategyVersion.getD 0)
        beat.echo (bump column beat.clock desired.map
          (acknowledge column beat.clock device beat.echo))).1
      obtain ⟨version, options⟩ := Prod.mk.inj row
      refine .inr (.inr ⟨?_, ?_⟩)
      · rw [version]
        exact versioned_bump beat.clock
      · rw [Device.sent, options]
        exact bump_sent column beat.clock _ desired

/-- A settled row keeps its token and its map. -/
theorem told_heartbeat {beat : Heartbeat} (policy : desiredFor beat.strategies device = desired)
    (settled : HasDesired desired device) : told (heartbeat column device beat) = told device := by
  unfold heartbeat deliveryFor
  split
  · rfl
  · next active =>
    dsimp only
    rw [policy]
    split
    · rfl
    · next speaks =>
      obtain inactive | silent | ⟨versioned, same⟩ := settled
      · exact absurd inactive active
      · exact absurd silent speaks
      · rw [bump_eq_self beat.clock (by rwa [acknowledge_version])
          (by rwa [acknowledge_sent]), (told_answer ..).1]
        exact (told_acknowledge beat.clock device beat.echo).1

end Rows

/-- While the policy of a device stays the same map, its token stays what the first heartbeat
made it. -/
theorem told_run (desired : OptionMap) (first : Heartbeat) (beats : List Heartbeat) (device : Device)
    (unchanged : Runs.Along (heartbeat column)
      (fun device beat => desiredFor beat.strategies device = desired) device (first :: beats)) :
    told (Runs.run (heartbeat column) device (first :: beats)) =
      told (heartbeat column device first) := by
  have kept : ∀ (beats : List Heartbeat) (row : Device), HasDesired desired row →
      Runs.Along (heartbeat column)
        (fun device beat => desiredFor beat.strategies device = desired) row beats →
      told (Runs.run (heartbeat column) row beats) = told row := by
    intro beats
    induction beats with
    | nil => exact fun _ _ _ => rfl
    | cons beat beats ih =>
        intro row settled along
        rw [Runs.run_cons, ih _ (settled_heartbeat along.1) along.2]
        exact told_heartbeat along.1 settled
  exact kept beats _ (settled_heartbeat unchanged.1) unchanged.2

/-- Sanitizing is canonical: it gives allowlisted keys with values of their types, gives them
back when it is repeated, does not see the order of the keys, and comes back from a JSON column
as it was written; so the version of a device is bumped at most once for one policy. -/
theorem options_canonical (column : JsonColumn) :
    (∀ options, ∀ e ∈ (sanitizeOptions options).map.entries,
      ∃ spec, (e.1, spec) ∈ optionKeys ∧ spec.Valid e.2) ∧
    (∀ options, sanitizeOptions (sanitizeOptions options).toArray = sanitizeOptions options) ∧
    (∀ a b : Arr Key Value, a.entries.Perm b.entries → sanitizeOptions a = sanitizeOptions b) ∧
    (∀ m : OptionMap, stringMap (some (column.write m.map)) = m.map) ∧
    ∀ desired first beats device, Runs.Along (heartbeat column)
        (fun device beat => desiredFor beat.strategies device = desired) device (first :: beats) →
      told (Runs.run (heartbeat column) device (first :: beats)) =
        told (heartbeat column device first) := by
  refine ⟨fun options e mem => ?_, fun options => ?_, fun a b => sanitizeOptions_perm, fun m => ?_,
    told_run column⟩
  · obtain ⟨spec, listed, accepted, _⟩ := (sanitizeOptions options).allowed e mem
    have listed := mem_of_lookup listed
    exact ⟨spec, listed, valid_of_accepts (fun min max typed =>
      bounded_optionKeys _ listed min max typed) accepted⟩
  · exact JsonColumn.text.sanitizeOptions_write _
  · exact column.stringMap_write m

end Strategy
end CortenDesk
