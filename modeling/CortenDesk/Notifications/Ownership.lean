import CortenDesk.Notifications.PresenceSweep

/-!
Ownership of the offline notifications. The conditional statements make the durable row safe
in every run. The legacy marker is guarded by a lock that runs out, so what concerns it holds
while its holders are timely: until the marker is gone, all that touches the store happens in
the guarded section, and from then on a recovery comes from the row alone.
-/
namespace CortenDesk

namespace DevicePresenceNotificationState
open Interleaving

theorem exists_of_claimedBy {s : Store} {t : ClaimToken} (owns : s.claimedBy t = true) :
    ∃ row, s.row = some row ∧ row.offlineNotifiedAt = none ∧ row.offlineClaimToken = some t := by
  unfold Store.claimedBy at owns
  cases is : s.row with
  | none =>
      rw [is] at owns
      cases owns
  | some row =>
      rw [is, Option.any_some, Bool.and_eq_true, Option.isNone_iff_eq_none,
        decide_eq_true_eq] at owns
      exact ⟨row, rfl, owns⟩

theorem releaseClaim_of_lost {s : Store} {t : ClaimToken} (lost : s.claimedBy t = false) :
    s.releaseClaim t = (s, false) := by
  rw [Store.releaseClaim, lost]
  rfl

theorem markDelivered_of_lost {s : Store} {now : Instant} {t : ClaimToken}
    (lost : s.claimedBy t = false) : s.markDelivered now t = (s, false) := by
  rw [Store.markDelivered, lost]
  rfl

theorem consume_of_pending {s : Store} (pending : s.notified = false) :
    s.consume = (s, false) := by
  rw [Store.consume, pending]
  rfl

theorem loserChangesNothing (c : Config Presence Contender) (event : Event Input Environment) :
    LoserChangesNothing c event := by
  cases event with
  | act pid input =>
      intro settles lost
      generalize c.process pid = contender at settles ⊢
      unfold act
      split
      · rfl
      · cases contender with
        | marking => simp [markDelivered_of_lost lost]
        | releasing => simp [releaseClaim_of_lost lost]
        | _ => cases settles
  | environment change => trivial

theorem pendingNotConsumed (c : Config Presence Contender) (event : Event Input Environment) :
    PendingNotConsumed c event := by
  cases event with
  | act pid input =>
      intro consumes pending
      generalize c.process pid = contender at consumes ⊢
      unfold act
      split
      · exact ⟨rfl, rfl⟩
      · cases contender with
        | consuming => simp [consume_of_pending pending, Contender.isRecovering]
        | consumingHeld since => simp [consume_of_pending pending, Contender.isRecovering]
        | _ => cases consumes
  | environment change => trivial

/-- A row that was marked delivered is delivered for as long as it exists. -/
structure Delivered (s : Presence) : Prop where
  known : ∀ d ∈ s.delivered, d.row < s.store.nextRowId
  row : ∀ row, s.store.row = some row → row.id < s.store.nextRowId
  notified : ∀ d ∈ s.delivered, ∀ row, s.store.row = some row → row.id = d.row →
    row.offlineNotifiedAt.isSome = true
  once : DeliveredOnce s

/-- How one statement may change the row, if it does not mark it delivered: it stays, it goes,
its claim passes on, or there was none and now there is a new one. -/
inductive RowChange (s s' : Store) : Prop
  | same (row : s'.row = s.row) (nextRowId : s'.nextRowId = s.nextRowId)
  | gone (row : s'.row = none) (nextRowId : s'.nextRowId = s.nextRowId)
  | reclaimed (before after : Row) (was : s.row = some before) (row : s'.row = some after)
      (id : after.id = before.id) (pending : before.offlineNotifiedAt = none)
      (stays : after.offlineNotifiedAt = none) (outage : after.outage = before.outage)
      (nextRowId : s'.nextRowId = s.nextRowId)
  | inserted (after : Row) (was : s.row = none) (row : s'.row = some after)
      (id : after.id = s.nextRowId) (nextRowId : s'.nextRowId = s.nextRowId + 1)

theorem Delivered.of_rowChange {s s' : Presence} (delivered : Delivered s)
    (change : RowChange s.store s'.store) (same : s'.delivered = s.delivered) : Delivered s' := by
  obtain ⟨known, row, notified, once⟩ := delivered
  have once' : DeliveredOnce s' := by
    unfold DeliveredOnce
    rw [same]
    exact once
  rw [← same] at known notified
  cases change with
  | same row' nextRowId =>
      refine ⟨?_, ?_, ?_, once'⟩
      · rwa [nextRowId]
      · rwa [row', nextRowId]
      · rwa [row']
  | gone row' nextRowId =>
      refine ⟨by rwa [nextRowId], ?_, ?_, once'⟩
      all_goals
        intros
        simp_all
  | reclaimed before after was row' id pending stays outage nextRowId =>
      refine ⟨by rwa [nextRowId], fun r is => ?_, fun d hd r is own => ?_, once'⟩
      · rw [row'] at is
        obtain rfl := Option.some.inj is
        rw [id, nextRowId]
        exact row before was
      · rw [row'] at is
        obtain rfl := Option.some.inj is
        have marked := notified d hd before was (id.symm.trans own)
        rw [pending] at marked
        cases marked
  | inserted after was row' id nextRowId =>
      refine ⟨fun d hd => ?_, fun r is => ?_, fun d hd r is own => ?_, once'⟩
      · rw [nextRowId]
        exact Nat.lt_succ_of_lt (known d hd)
      · rw [row'] at is
        obtain rfl := Option.some.inj is
        rw [id, nextRowId]
        exact Nat.lt_succ_self _
      · rw [row'] at is
        obtain rfl := Option.some.inj is
        exact absurd (id.symm.trans own) (Nat.ne_of_gt (known d hd))

namespace Store

theorem getLock_rowChange (s : Store) (now : Instant) (t : ClaimToken) :
    RowChange s (s.getLock now t).1 := by
  unfold getLock
  split <;> exact .same rfl rfl

theorem consume_rowChange (s : Store) : RowChange s s.consume.1 := by
  unfold consume
  split
  · exact .gone rfl rfl
  · exact .same rfl rfl

theorem releaseClaim_rowChange (s : Store) (t : ClaimToken) : RowChange s (s.releaseClaim t).1 := by
  unfold releaseClaim
  split
  · exact .gone rfl rfl
  · exact .same rfl rfl

theorem recordLegacyOffline_rowChange (s : Store) (now : Instant) (outage : Nat) :
    RowChange s (s.recordLegacyOffline now outage) := by
  unfold recordLegacyOffline
  split
  · exact .same rfl rfl
  · next none' => exact .inserted _ none' rfl rfl rfl

theorem insertClaim_rowChange (s : Store) (now : Instant) (t : ClaimToken) :
    RowChange s (s.insertClaim now t).1 := by
  unfold insertClaim
  split
  · exact .same rfl rfl
  · next none' => exact .inserted _ none' rfl rfl rfl

theorem reclaim_rowChange (s : Store) (now : Instant) (t : ClaimToken) :
    RowChange s (s.reclaim now t).1 := by
  unfold reclaim
  split
  · next row is =>
    split
    · next overdue =>
      rw [Bool.and_eq_true, Option.isNone_iff_eq_none] at overdue
      exact .reclaimed row _ is rfl rfl overdue.1 overdue.1 rfl rfl
    · exact .same rfl rfl
  · exact .same rfl rfl

end Store

/-- The row that is marked was pending, so nobody had marked it. -/
theorem Delivered.of_mark {s : Presence} (delivered : Delivered s) {pid : Nat}
    (owns : s.store.claimedBy (token pid) = true) :
    Delivered
      { s with
        store := (s.store.markDelivered s.now (token pid)).1
        delivered :=
          s.store.row.toList.map (fun row => { row := row.id, contender := pid }) ++
            s.delivered } := by
  obtain ⟨row, is, pending⟩ := exists_of_claimedBy owns
  have first : row.id ∉ s.delivered.map Delivery.row := by
    intro mem
    obtain ⟨d, hd, same⟩ := List.mem_map.mp mem
    have marked := delivered.notified d hd row is same.symm
    rw [pending.1] at marked
    cases marked
  rw [Store.markDelivered, if_pos owns, is]
  constructor
  · intro d hd
    rcases List.mem_cons.mp hd with rfl | old
    · exact delivered.row row is
    · exact delivered.known d old
  · intro r hr
    obtain rfl := Option.some.inj hr
    exact delivered.row row is
  · intro d hd r hr _
    obtain rfl := Option.some.inj hr
    rfl
  · exact List.nodup_cons.mpr ⟨first, delivered.once⟩

theorem act_delivered {pid : Nat} {s : Presence} {contender : Contender} {input : Input}
    (delivered : Delivered s) : Delivered (act pid s contender input).1 := by
  have still : ∀ {s' : Presence}, s'.store.row = s.store.row →
      s'.store.nextRowId = s.store.nextRowId → s'.delivered = s.delivered → Delivered s' :=
    fun row nextRowId same => delivered.of_rowChange (.same row nextRowId) same
  unfold act
  split
  · exact delivered
  · cases contender with
    | locking purpose => exact delivered.of_rowChange (s.store.getLock_rowChange _ _) rfl
    | looking purpose since =>
        simp only
        split
        · exact still rfl rfl rfl
        · exact delivered
    | consuming =>
        simp only
        split
        all_goals exact delivered.of_rowChange s.store.consume_rowChange rfl
    | consumingHeld since => exact delivered.of_rowChange s.store.consume_rowChange rfl
    | recording since legacy =>
        exact delivered.of_rowChange (s.store.recordLegacyOffline_rowChange _ _) rfl
    | claiming => exact delivered.of_rowChange (s.store.insertClaim_rowChange _ _) rfl
    | reclaiming now => exact delivered.of_rowChange (s.store.reclaim_rowChange _ _) rfl
    | releasing => exact delivered.of_rowChange (s.store.releaseClaim_rowChange _) rfl
    | marking =>
        cases owns : s.store.claimedBy (token pid) with
        | true =>
            have marked : (s.store.markDelivered s.now (token pid)).2 = true := by
              rw [Store.markDelivered, if_pos owns]
            simp only [marked, if_true]
            exact delivered.of_mark owns
        | false =>
            simp only [markDelivered_of_lost owns]
            exact delivered
    | leaving | forgetting | unlocking | convertForgetting | convertUnlocking | recovered =>
        exact still rfl rfl rfl
    | heartbeat | sweep | swept | checkingMarker | checkingState | checkingOwner | pulling
    | convertChecking | convertPulling | sending | returned => exact delivered

theorem step_delivered (c : Config Presence Contender) (event : Event Input Environment)
    (delivered : Delivered c.shared) : Delivered (step system c event).shared := by
  cases event with
  | act pid input => exact act_delivered delivered
  | environment change =>
      cases change <;> exact delivered.of_rowChange (.same rfl rfl) rfl

end DevicePresenceNotificationState
end CortenDesk
