import CortenDesk.Lib.PhpValue

/-!
The option maps of a strategy: the server-side allowlist of pushable keys, the
coercion that every stored map goes through, and the defensive read of a JSON
column. A sanitized map carries its own validity, so whatever is built from one
holds allowlisted keys and values only. The console group of a key is left out.
-/
namespace CortenDesk
open Php

inductive OptionType
  | bool
  | enum (values : List String)
  | int (min max : Nat)
  | string
  deriving DecidableEq, Repr

/-- Server-side allowlist of pushable option keys. -/
def optionKeys : List (String × OptionType) := [
  ("access-mode", .enum ["", "full", "view", "custom"]),
  ("enable-keyboard", .bool),
  ("enable-clipboard", .bool),
  ("enable-file-transfer", .bool),
  ("enable-audio", .bool),
  ("enable-camera", .bool),
  ("enable-terminal", .bool),
  ("enable-tunnel", .bool),
  ("enable-remote-restart", .bool),
  ("enable-record-session", .bool),
  ("enable-block-input", .bool),
  ("enable-privacy-mode", .bool),
  ("enable-remote-printer", .bool),
  ("verification-method", .enum
    ["", "use-temporary-password", "use-permanent-password", "use-both-passwords"]),
  ("approve-mode", .enum ["", "password", "click", "password-click"]),
  ("temporary-password-length", .enum ["", "6", "8", "10"]),
  ("allow-numeric-one-time-password", .bool),
  ("whitelist", .string),
  ("allow-only-conn-window-open", .bool),
  ("enable-trusted-devices", .bool),
  ("allow-remote-config-modification", .bool),
  ("allow-auto-disconnect", .bool),
  ("auto-disconnect-timeout", .int 1 1440),
  ("allow-scope-violation-alarm", .bool),
  ("allow-scope-violation-close", .bool),
  ("enable-abr", .bool),
  ("allow-remove-wallpaper", .bool),
  ("allow-auto-record-incoming", .bool),
  ("keep-awake-during-incoming-sessions", .bool),
  ("enable-lan-discovery", .bool),
  ("allow-auto-update", .bool)]

/-- The type check of `sanitizeOptions`; `""` is legal for every key. -/
def OptionType.accepts : OptionType → String → Bool
  | .bool, value => value ∈ ["Y", "N", ""]
  | .enum values, value => value ∈ values
  | .int min max, value =>
      value = "" || (ctypeDigit value && min ≤ digitsToInt value && digitsToInt value ≤ max)
  | .string, _ => true

/-- The scalar of a form or of a stored map as text; null and arrays have none. -/
def optionText : Value → Option String
  | .null | .array => none
  | .bool b => some (if b then "Y" else "N")
  | .int i => some (toString i)
  | .float text => some text
  | .string s => some s

def sanitizeEntry (e : Key × Value) : Option (String × String) := do
  let key := e.1.toText
  let spec ← optionKeys.lookup key
  let value ← (optionText e.2).map trim
  if spec.accepts value then some (key, value) else none

/-- What an entry of a sanitized map satisfies. -/
def AllowedEntry (e : String × String) : Prop :=
  ∃ spec, optionKeys.lookup e.1 = some spec ∧ spec.accepts e.2 ∧ trim e.2 = e.2

theorem allowed_of_sanitizeEntry {e : Key × Value} {o : String × String}
    (h : sanitizeEntry e = some o) : AllowedEntry o := by
  simp only [sanitizeEntry, Option.bind_eq_bind, Option.bind_eq_some_iff,
    Option.map_eq_some_iff] at h
  obtain ⟨spec, hspec, _, ⟨text, _, rfl⟩, h⟩ := h
  split at h
  · next ok =>
    cases h
    exact ⟨spec, hspec, ok, trim_trim text⟩
  · cases h

/-- A key-sorted map of allowlisted keys and valid, trimmed values. -/
structure OptionMap where
  map : Arr String String
  sorted : map.Sorted
  allowed : ∀ e ∈ map.entries, AllowedEntry e

namespace OptionMap

theorem eq_of_map_eq {a b : OptionMap} (h : a.map = b.map) : a = b := by
  cases a
  cases b
  cases h
  rfl

instance : DecidableEq OptionMap := fun a b =>
  decidable_of_iff (a.map = b.map) ⟨eq_of_map_eq, congrArg map⟩

instance : EmptyCollection OptionMap :=
  ⟨{ map := ∅, sorted := List.Pairwise.nil, allowed := fun _ h => nomatch h }⟩

end OptionMap

/-- `Strategy::sanitizeOptions`. -/
def sanitizeOptions (options : Arr Key Value) : OptionMap where
  map := (OrderedMap.ofList (options.entries.filterMap sanitizeEntry)).ksort
  sorted := OrderedMap.sorted_ksort _
  allowed := fun e h => by
    have listed := OrderedMap.mem_of_mem_ofList _ e ((OrderedMap.mem_ksort _ e).mp h)
    obtain ⟨raw, _, hraw⟩ := List.mem_filterMap.mp listed
    exact allowed_of_sanitizeEntry hraw

def stringEntry : Key × Value → Option (String × String)
  | (.str key, .string item) => some (key, item)
  | _ => none

/-- `Strategy::stringMap` of a decoded JSON column; `none` is a column that does not
decode to an array. -/
def stringMap : Option (Arr Key Value) → Arr String String
  | none => ∅
  | some value => (OrderedMap.ofList (value.entries.filterMap stringEntry)).ksort

/-- A JSON column: what is read back after an option map was written. The order of
the keys is the database's. -/
structure JsonColumn where
  write : Arr String String → Arr Key Value
  perm : ∀ m : OptionMap,
    (write m.map).entries.Perm (m.map.entries.map fun e => (.str e.1, .string e.2))

namespace JsonColumn
variable (column : JsonColumn)

/-- A column that keeps the text it was given. -/
def text : JsonColumn where
  write m := OrderedMap.ofList (m.entries.map fun e => (.str e.1, .string e.2))
  perm m := by
    rw [OrderedMap.entries_ofList]
    have keys := m.map.nodup.map fun _ _ h => Key.str.inj h
    rwa [List.map_map] at keys ⊢

/-- Reading back a written option map gives the map, whatever the column's key order. -/
@[simp] theorem stringMap_write (m : OptionMap) :
    stringMap (some (column.write m.map)) = m.map := by
  have read : ((column.write m.map).entries.filterMap stringEntry).Perm m.map.entries := by
    have := (column.perm m).filterMap stringEntry
    rwa [List.filterMap_map, show stringEntry ∘ (fun e => (Key.str e.1, Value.string e.2)) =
      some from rfl, List.filterMap_some] at this
  have keys : ((((column.write m.map).entries.filterMap stringEntry)).map Prod.fst).Nodup :=
    (read.map Prod.fst).nodup_iff.mpr m.map.nodup
  refine OrderedMap.eq_of_sorted (OrderedMap.sorted_ksort _) m.sorted fun k => ?_
  rw [stringMap, OrderedMap.get?_ksort]
  refine OrderedMap.get?_eq_of_mem_iff (fun e => ?_) k
  rw [OrderedMap.entries_ofList _ keys]
  exact read.mem_iff

theorem sanitizeEntry_of_allowed {e : String × String} (h : AllowedEntry e) :
    sanitizeEntry (.str e.1, .string e.2) = some e := by
  obtain ⟨spec, listed, accepted, trimmed⟩ := h
  simp [sanitizeEntry, Key.toText, optionText, listed, trimmed, accepted]

/-- Sanitizing a written option map gives the map. -/
@[simp] theorem sanitizeOptions_write (m : OptionMap) :
    sanitizeOptions (column.write m.map) = m := by
  have read : ((column.write m.map).entries.filterMap sanitizeEntry).Perm m.map.entries := by
    have all : (m.map.entries.map fun e => ((Key.str e.1, Value.string e.2) : Key × Value)).filterMap
        sanitizeEntry = m.map.entries := by
      rw [List.filterMap_map]
      refine (List.filterMap_congr fun e he => ?_).trans List.filterMap_some
      exact sanitizeEntry_of_allowed (m.allowed e he)
    exact all ▸ (column.perm m).filterMap sanitizeEntry
  have keys : ((((column.write m.map).entries.filterMap sanitizeEntry)).map Prod.fst).Nodup :=
    (read.map Prod.fst).nodup_iff.mpr m.map.nodup
  apply OptionMap.eq_of_map_eq
  refine OrderedMap.eq_of_sorted (OrderedMap.sorted_ksort _) m.sorted fun k => ?_
  rw [sanitizeOptions, OrderedMap.get?_ksort]
  refine OrderedMap.get?_eq_of_mem_iff (fun e => ?_) k
  rw [OrderedMap.entries_ofList _ keys]
  exact read.mem_iff

end JsonColumn
end CortenDesk
