import CortenDesk.Api.Sync
import CortenDesk.Lib.Runs

/-!
The uuid a device row is pinned to. A request whose uuid does not match leaves everything
as it was; one whose uuid matches may replace the stored form by the one sent. One
comparison relates a string to its decoded form only, so over a run the forms of one
machine are linked by any number of decodings. A heartbeat without a uuid passes the
comparison and leaves the pin.
-/
namespace CortenDesk.SyncController
open Php

/-- The two name one machine: each, decoded as often as it takes, gives the same string. -/
def SameMachine (a b : String) : Prop := SameOrigin (bytes a) (bytes b)

theorem SameMachine.refl (a : String) : SameMachine a a := sameOrigin_equivalence.refl _

theorem SameMachine.trans {a b c : String} (h : SameMachine a b) (h' : SameMachine b c) :
    SameMachine a c :=
  sameOrigin_equivalence.trans h h'

/-- No form of the uuid `u`: not `u`, nor its decoded form, nor a string that decodes to it. -/
def Mismatched (u sent : String) : Prop :=
  sent ≠ "" ∧ u ≠ sent ∧ ¬ Decodes (bytes sent) (bytes u) ∧ ¬ Decodes (bytes u) (bytes sent)

instance (u sent : String) : Decidable (Mismatched u sent) :=
  inferInstanceAs (Decidable (_ ∧ _))

theorem uuidMatches_eq_false {u sent : String} (pinned : u ≠ "") (h : Mismatched u sent) :
    uuidMatches u sent = false := by
  obtain ⟨filled, other, plain, encoded⟩ := h
  simp [uuidMatches, pinned, filled, other, plain, encoded]

theorem sameMachine_of_uuidMatches {u sent : String} (pinned : u ≠ "") (filled : sent ≠ "")
    (h : uuidMatches u sent) : SameMachine u sent := by
  simp only [uuidMatches, pinned, filled, Bool.or_eq_true, decide_eq_true_eq, false_or] at h
  rcases h with (rfl | sentDecodes) | storedDecodes
  · exact .refl u
  · exact sameOrigin_equivalence.symm sentDecodes.sameOrigin
  · exact storedDecodes.sameOrigin

/-- A write by key that keeps the names changes the row found by name as it changes rows. -/
theorem named_write {devices : System} {written device : Device} {rustdeskId : String}
    (named : devices.db.devices.rows.find? (fun row => row.rustdeskId = rustdeskId) = some device)
    (same : device.id = written.id) {change : Device → Device}
    {keeps : ∀ row, Row.id (change row) = Row.id row}
    (name : ∀ row, (change row).rustdeskId = row.rustdeskId) :
    ((Device.write devices written change keeps).db.devices.rows.find?
      fun row => row.rustdeskId = rustdeskId) = some (change device) := by
  have kept (row : Device) :
      (if decide (row.id = written.id) = true then change row else row).rustdeskId =
        row.rustdeskId := by
    split
    · exact name row
    · rfl
  simp only [Device.write, System.withDevices, Table.update, List.find?_map, Function.comp_def,
    kept, named, Option.map_some, same, decide_true, ↓reduceIte]

theorem reportOnline_named (s : State) (device : Device) (now : Instant) (token : ClaimToken)
    (rustdeskId : String) :
    (reportOnline s device now token).deviceNamed rustdeskId = s.deviceNamed rustdeskId := by
  unfold reportOnline
  split <;> rfl

theorem saveDelivered_named {s : State} {device row : Device} {rustdeskId : String}
    (named : s.deviceNamed rustdeskId = some row) (same : row.id = device.id)
    (delivered : Device) :
    ∃ row', (saveDelivered s device delivered).deviceNamed rustdeskId = some row' ∧
      row'.uuid = row.uuid ∧ row'.lastOnlineAt = row.lastOnlineAt :=
  ⟨_, named_write named same fun _ => rfl, rfl, rfl⟩

/-- The row after a heartbeat that is let through. -/
theorem heartbeat_named {s : State} {device : Device} {r : Heartbeat} (column : JsonColumn)
    (named : s.deviceNamed r.id = some device) (filled : r.id ≠ "")
    (live : device.trashed = false) (passes : uuidMatches device.uuid r.uuid) :
    ∃ row, (heartbeat column s r).1.deviceNamed r.id = some row ∧
      row.uuid = (seenRow r device).uuid ∧ row.lastOnlineAt = some r.seen.stored := by
  have seen : (saveSeen s device r).deviceNamed r.id = some (seenRow r device) :=
    named_write named rfl fun _ => rfl
  have reported := (reportOnline_named (saveSeen s device r) (seenRow r device) r.reported
    r.token r.id).trans seen
  have own : (seenRow r device).id = device.id := rfl
  simp only [heartbeat, if_neg filled, named, live, passes, Bool.not_true, Bool.false_eq_true,
    ↓reduceIte]
  exact saveDelivered_named reported own _

/-- The row after an inventory that is let through. -/
theorem sysinfo_named {s : State} {device : Device} {r : Sysinfo}
    (named : s.deviceNamed r.id = some device) (filled : r.id ≠ "")
    (live : device.trashed = false) (passes : uuidMatches device.uuid r.uuid) :
    ∃ row, (sysinfo s r).1.deviceNamed r.id = some row ∧
      row.uuid = r.uuid ∧ row.lastOnlineAt = some r.seen.stored := by
  have described : (describe s device r).deviceNamed r.id = some (describedRow r device) := by
    simp only [describe, Device.update, describedRow, ne_eq, not_true_eq_false, or_self,
      ↓reduceIte]
    exact named_write named rfl fun _ => rfl
  simp only [sysinfo, if_neg filled, named, live, passes, Bool.not_true, Bool.false_eq_true,
    ↓reduceIte]
  exact ⟨_, (reportOnline_named ..).trans described, rfl, rfl⟩

/-- A request without a name, for a recycled device or with another machine's uuid. -/
theorem handle_refused {s : State} {device : Device} {r : Request} (column : JsonColumn)
    (named : s.deviceNamed r.id = some device)
    (refused : r.id = "" ∨ device.trashed = true ∨ uuidMatches device.uuid r.uuid = false) :
    handle column s r = s := by
  cases r with
  | heartbeat r =>
      simp only [Request.id, Request.uuid] at named refused
      simp only [handle, heartbeat, named]
      rcases refused with empty | trashed | mismatch
      · simp [empty]
      · simp [trashed]
      · simp [mismatch]
  | sysinfo r =>
      simp only [Request.id, Request.uuid] at named refused
      simp only [handle, sysinfo, named]
      rcases refused with empty | trashed | mismatch
      · simp [empty]
      · rw [if_pos trashed]
        split <;> rfl
      · simp only [mismatch, Bool.not_false, ↓reduceIte, ite_self]
        split <;> rfl

/-- The row is pinned, and to a form of `u`. -/
def Pinned (rustdeskId u : String) (s : State) : Prop :=
  ∃ device, s.deviceNamed rustdeskId = some device ∧ device.uuid ≠ "" ∧
    SameMachine u device.uuid

/-- What a request may carry: an inventory names a uuid; a heartbeat need not. -/
def Identified (rustdeskId : String) (r : Request) : Prop :=
  r.id = rustdeskId ∧ ∀ inventory, r = .sysinfo inventory → inventory.uuid ≠ ""

theorem pinned_handle {rustdeskId u : String} (column : JsonColumn) (s : State) (r : Request)
    (h : Pinned rustdeskId u s) (identified : Identified rustdeskId r) :
    Pinned rustdeskId u (handle column s r) := by
  obtain ⟨device, named, pinned, origin⟩ := h
  obtain ⟨rfl, uuid⟩ := identified
  by_cases refused : r.id = "" ∨ device.trashed = true ∨ uuidMatches device.uuid r.uuid = false
  · rw [handle_refused column named refused]
    exact ⟨device, named, pinned, origin⟩
  · simp only [not_or, Bool.not_eq_true, Bool.not_eq_false] at refused
    obtain ⟨filled, live, passes⟩ := refused
    cases r with
    | heartbeat r =>
        obtain ⟨row, found, is, _⟩ := heartbeat_named column named filled live passes
        refine ⟨row, found, ?_⟩
        rw [is]
        by_cases replaced : r.uuid ≠ "" ∧ device.uuid ≠ r.uuid
        · rw [seenRow, if_pos replaced]
          exact ⟨replaced.1, origin.trans (sameMachine_of_uuidMatches pinned replaced.1 passes)⟩
        · rw [seenRow, if_neg replaced]
          exact ⟨pinned, origin⟩
    | sysinfo r =>
        obtain ⟨row, found, is, _⟩ := sysinfo_named named filled live passes
        have sent : r.uuid ≠ "" := uuid r rfl
        refine ⟨row, found, ?_⟩
        rw [is]
        exact ⟨sent, origin.trans (sameMachine_of_uuidMatches pinned sent passes)⟩

/-- A request that carries the stored uuid reaches the row. -/
theorem handle_accepted {s : State} {device : Device} {r : Request} (column : JsonColumn)
    (named : s.deviceNamed r.id = some device) (filled : r.id ≠ "")
    (live : device.trashed = false) (own : r.uuid = device.uuid) :
    ∃ row, (handle column s r).deviceNamed r.id = some row ∧ row.uuid = device.uuid ∧
      row.lastOnlineAt = some r.seen.stored := by
  have passes : uuidMatches device.uuid r.uuid := by
    simp [uuidMatches, own]
  cases r with
  | heartbeat r =>
      obtain ⟨row, found, is, seen⟩ := heartbeat_named column named filled live passes
      refine ⟨row, found, ?_, seen⟩
      rw [is, seenRow, if_neg fun replaced => replaced.2 own.symm]
  | sysinfo r =>
      obtain ⟨row, found, is, seen⟩ := sysinfo_named named filled live passes
      exact ⟨row, found, is.trans own, seen⟩

theorem handle_mismatched {s : State} {device : Device} {r : Request} (column : JsonColumn)
    (named : s.deviceNamed r.id = some device) (pinned : device.uuid ≠ "")
    (mismatched : Mismatched device.uuid r.uuid) : handle column s r = s :=
  handle_refused column named (.inr (.inr (uuidMatches_eq_false pinned mismatched)))

open Runs in
theorem run_mismatched {s : State} {device : Device} {rustdeskId : String} (column : JsonColumn)
    (named : s.deviceNamed rustdeskId = some device) (pinned : device.uuid ≠ "")
    (requests : List Request)
    (foreign : ∀ r ∈ requests, r.id = rustdeskId ∧ Mismatched device.uuid r.uuid) :
    run (handle column) s requests = s := by
  induction requests with
  | nil => rfl
  | cons r requests ih =>
      obtain ⟨names, mismatched⟩ := foreign r List.mem_cons_self
      rw [run_cons, handle_mismatched column (by rwa [names]) pinned mismatched]
      exact ih fun r hr => foreign r (List.mem_cons_of_mem _ hr)

open Runs in
/-- A row with a uuid. Requests that name no form of it change nothing, and the row still
answers to its uuid; and whatever is sent, so long as each inventory names a uuid, the row
stays pinned to one machine. -/
theorem uuid_pin_holds (column : JsonColumn) (s : State) (rustdeskId : String) (device : Device)
    (named : s.deviceNamed rustdeskId = some device) (pinned : device.uuid ≠ "") :
    (∀ requests : List Request,
      (∀ r ∈ requests, r.id = rustdeskId ∧ Mismatched device.uuid r.uuid) →
      run (handle column) s requests = s ∧
      ∀ r : Request, r.id = rustdeskId → r.uuid = device.uuid → rustdeskId ≠ "" →
        device.trashed = false →
        ∃ row, (handle column (run (handle column) s requests) r).deviceNamed rustdeskId =
          some row ∧ row.uuid = device.uuid ∧ row.lastOnlineAt = some r.seen.stored) ∧
    ∀ requests : List Request, (∀ r ∈ requests, Identified rustdeskId r) →
      ∃ row, (run (handle column) s requests).deviceNamed rustdeskId = some row ∧
        row.uuid ≠ "" ∧ SameMachine device.uuid row.uuid := by
  constructor
  · intro requests foreign
    have unchanged := run_mismatched column named pinned requests foreign
    refine ⟨unchanged, ?_⟩
    rintro r rfl own filled live
    rw [unchanged]
    exact handle_accepted column named filled live own
  · intro requests identified
    have start : Pinned rustdeskId device.uuid s := ⟨device, named, pinned, .refl _⟩
    exact invariant_along (pinned_handle column) requests s start
      (Along.of_forall requests s identified)

/-- One approved device that is pinned to a plain uuid. -/
def enrolled : State where
  system :=
    { db := { devices := Table.empty.insert fun id =>
        { id, rustdeskId := "100200300", uuid := "mac" } } }

def beat (uuid : String) (seen : Instant) : Request :=
  .heartbeat
    { id := "100200300", uuid, seen, reported := seen, token := 0, reconciled := seen
      disconnected := seen
      delivery := { stale := seen, acked := seen, pushSeconds := 0, sent := seen, resent := seen } }

def uuidOf (s : State) : Option String := (s.deviceNamed "100200300").map Device.uuid

open Runs in
theorem uuid_pin_holds_enrolled :
    run (handle .text) enrolled [beat "cGM=" 5000000] = enrolled ∧
    ∃ row, (run (handle .text) enrolled [beat "bWFj" 5000000, beat "cGM=" 6000000, beat "" 7000000,
        beat "YldGag==" 8000000]).deviceNamed "100200300" = some row ∧
      row.uuid ≠ "" ∧ SameMachine "mac" row.uuid := by
  have holds := uuid_pin_holds .text enrolled "100200300" _ rfl (by decide)
  constructor
  · refine (holds.1 [beat "cGM=" 5000000] fun r hr => ?_).1
    obtain rfl := List.mem_singleton.mp hr
    exact ⟨rfl, by decide⟩
  · refine holds.2 _ fun r hr => ?_
    simp only [List.mem_cons, List.not_mem_nil, or_false] at hr
    rcases hr with rfl | rfl | rfl | rfl <;> exact ⟨rfl, fun _ h => nomatch h⟩

/-- A form of the machine uuid `machine`: it, or its base64. -/
def Represents (machine : Bytes) (uuid : String) : Prop :=
  bytes uuid = machine ∨ Decodes (bytes uuid) machine

instance (machine : Bytes) (uuid : String) : Decidable (Represents machine uuid) :=
  inferInstanceAs (Decidable (_ ∨ _))

open Runs in
/-- A heartbeat without a uuid is no form of the stored one, and is let through; and the
forms that replace one another need not be two forms of one uuid. -/
theorem uuid_pin_passes_empty_and_nested :
    ((¬ Decodes (bytes "") (bytes "mac") ∧ ¬ Decodes (bytes "mac") (bytes "")) ∧
      (enrolled.deviceNamed "100200300").map Device.lastOnlineAt = some none ∧
      ((handle .text enrolled (beat "" 5000000)).deviceNamed "100200300").map
        Device.lastOnlineAt = some (some 5)) ∧
    uuidOf (run (handle .text) enrolled [beat "bWFj" 5000000]) = some "bWFj" ∧
    uuidOf (run (handle .text) enrolled [beat "bWFj" 5000000, beat "YldGag==" 6000000]) =
      some "YldGag==" ∧
    ¬ ∃ machine, Represents machine "mac" ∧ Represents machine "YldGag==" := by
  refine ⟨by decide +kernel, by decide +kernel, by decide +kernel, ?_⟩
  rintro ⟨machine, plain, nested⟩
  rcases nested with rfl | decoded
  · exact absurd plain (by decide)
  · obtain rfl := decoded.unique (show Decodes (bytes "YldGag==") (bytes "bWFj") by decide)
    exact absurd plain (by decide)

end CortenDesk.SyncController
