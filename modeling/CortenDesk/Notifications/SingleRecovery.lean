import CortenDesk.Notifications.Ownership

/-!
One recovery for an outage. While the holders of the short lock are timely, the marker's life
has two phases. Before it is gone, whoever acts on the store holds the lock; the contender
that ends the phase has found the marker absent, or takes it and the row together for one
recovery. Afterwards the row is the only source of a recovery, and each row that is marked
delivered stands for an outage of its own.
-/
namespace CortenDesk

namespace DevicePresenceNotificationState
open Interleaving

namespace Contender

/-- A contender that has found the marker and may still act on it. -/
def hasMarker : Contender → Bool
  | .consumingHeld _ | .checkingOwner _ _ _ | .pulling _ _ _ | .forgetting _ _ _
  | .convertChecking _ | .convertPulling _ | .convertForgetting _ _ | .recording _ _ => true
  | _ => false

/-- A contender that has found the marker absent. -/
def lacksMarker : Contender → Bool
  | .leaving _ _ | .consuming | .claiming | .reclaiming _ | .sending | .marking | .releasing => true
  | _ => false

end Contender

/-- What a row stands for: an outage nobody has taken, once it is delivered. -/
structure Row.Labelled (row : Row) (nextOutage : Nat) (taken : List Taking) : Prop where
  delivered : row.offlineNotifiedAt.isSome = true → row.outage.isSome = true
  pending : row.offlineNotifiedAt = none → row.outage = none
  fresh : ∀ outage, row.outage = some outage → outage < nextOutage ∧
    ∀ t ∈ taken, t.outage ≠ outage

structure Sound (s : Presence) : Prop where
  gone : s.gone = true → s.store.marker = none
  before : s.gone = false → s.taken = [] ∧ s.recovered = []
  unique : ∀ a ∈ s.taken, ∀ b ∈ s.taken, a.outage = b.outage → a.contender = b.contender
  known : ∀ t ∈ s.taken, t.outage < s.store.nextOutage
  row : ∀ row, s.store.row = some row → row.Labelled s.store.nextOutage s.taken
  marker : ∀ outage, s.store.marker = some outage → outage < s.store.nextOutage
  logged : ∀ r ∈ s.recovered, ∀ outage ∈ r.outages, ⟨r.contender, outage⟩ ∈ s.taken
  distinct : s.recovered.Pairwise fun later earlier => later.contender ≠ earlier.contender

/-- The outages a contender holds for a recovery, or for a conversion. -/
def Hand (pid : Nat) (s : Presence) : Contender → Prop
  | .checkingOwner since _ outages | .pulling since _ outages | .forgetting since _ outages =>
      s.now < since + claimTimeout →
        s.store.notified = false ∧ ∀ outage ∈ outages, outage < s.store.nextOutage
  | .unlocking _ _ outages | .recovered outages =>
      s.gone = true ∧ ∀ outage ∈ outages, ⟨pid, outage⟩ ∈ s.taken
  | .convertForgetting _ legacy => ∀ outage, legacy = some outage → outage < s.store.nextOutage
  | .recording _ legacy => legacy < s.store.nextOutage
  | _ => True

structure Fits (pid : Nat) (s : Presence) (contender : Contender) : Prop where
  owns : ∀ since, contender.section? = some since → s.now < since + claimTimeout →
    s.store.lock = some ⟨token pid, since + claimTimeout⟩
  present : contender.hasMarker = true → ∀ since, contender.section? = some since →
    s.now < since + claimTimeout → s.gone = false
  absent : contender.lacksMarker = true → s.gone = true
  hand : Hand pid s contender
  silent : contender ≠ .returned → ∀ r ∈ s.recovered, r.contender ≠ pid

theorem Fits.returned (pid : Nat) (s : Presence) : Fits pid s .returned :=
  ⟨fun _ inside => (nomatch inside), (nomatch ·), (nomatch ·), trivial, fun ne => absurd rfl ne⟩

/-- Outside the guarded section. -/
theorem Fits.of_outside {pid : Nat} {s : Presence} {contender : Contender}
    (outside : contender.section? = none) (absent : contender.lacksMarker = true → s.gone = true)
    (hand : Hand pid s contender) (silent : ∀ r ∈ s.recovered, r.contender ≠ pid) :
    Fits pid s contender := by
  refine ⟨fun since inside => ?_, fun _ since inside => ?_, absent, hand, fun _ => silent⟩
  all_goals
    rw [outside] at inside
    cases inside

/-- Inside, with the lock. -/
theorem Fits.of_inside {pid : Nat} {s : Presence} {contender : Contender} {since : Instant}
    (inside : contender.section? = some since)
    (owns : s.store.lock = some ⟨token pid, since + claimTimeout⟩)
    (present : contender.hasMarker = true → s.gone = false)
    (absent : contender.lacksMarker = true → s.gone = true)
    (hand : Hand pid s contender) (silent : ∀ r ∈ s.recovered, r.contender ≠ pid) :
    Fits pid s contender := by
  refine ⟨fun since' inside' _ => ?_, fun has _ _ _ => present has, absent, hand, fun _ => silent⟩
  rw [inside] at inside'
  obtain rfl := Option.some.inj inside'
  exact owns

/-- What a statement of one contender leaves to the others. -/
structure Leaves (pid : Nat) (s s' : Presence) : Prop where
  now : s'.now = s.now
  lock : ∀ lock, s.store.lock = some lock → lock.owner ≠ token pid → s.now < lock.expiresAt →
    s'.store.lock = some lock
  gone : s.gone = true → s'.gone = true
  ends : s'.gone = true → s.gone = true ∨ ∃ lock, s.store.lock = some lock ∧ lock.owner = token pid
  notified : s'.store.notified = true → s.store.notified = true ∨ s.gone = true ∨
    ∃ lock, s.store.lock = some lock ∧ lock.owner = token pid
  nextOutage : s.store.nextOutage ≤ s'.store.nextOutage
  taken : ∀ t ∈ s.taken, t ∈ s'.taken
  recovered : ∀ r ∈ s'.recovered, r ∈ s.recovered ∨ r.contender = pid

theorem token_ne {p q : Nat} (other : q ≠ p) : token q ≠ token p :=
  fun same => other (Nat.succ.inj same)

/-- A statement of another contender: while this one is timely in the section, the other does
not hold the lock. -/
theorem Fits.of_leaves {pid q : Nat} {s s' : Presence} {contender : Contender}
    (leaves : Leaves pid s s') (other : q ≠ pid) (fits : Fits q s contender) :
    Fits q s' contender := by
  have alone : ∀ since, contender.section? = some since → s.now < since + claimTimeout →
      ¬ ∃ lock, s.store.lock = some lock ∧ lock.owner = token pid := by
    rintro since inside timely ⟨lock, is, owner⟩
    rw [fits.owns since inside timely] at is
    obtain rfl := Option.some.inj is
    exact token_ne other owner
  constructor
  · intro since inside timely
    rw [leaves.now] at timely
    exact leaves.lock _ (fits.owns since inside timely) (token_ne other) timely
  · intro has since inside timely
    rw [leaves.now] at timely
    have kept := fits.present has since inside timely
    rw [Bool.eq_false_iff]
    intro gone
    rcases leaves.ends gone with before | holds
    · rw [kept] at before
      cases before
    · exact alone since inside timely holds
  · exact fun lacks => leaves.gone (fits.absent lacks)
  · have quiet : ∀ since, contender.hasMarker = true → contender.section? = some since →
        s.now < since + claimTimeout → s.store.notified = false → s'.store.notified = false := by
      intro since has inside timely pending
      rw [Bool.eq_false_iff]
      intro marked
      rcases leaves.notified marked with before | gone | holds
      · rw [pending] at before
        cases before
      · rw [fits.present has since inside timely] at gone
        cases gone
      · exact alone since inside timely holds
    have hand := fits.hand
    cases contender with
    | checkingOwner since durable outages | pulling since durable outages
    | forgetting since recovery outages =>
        intro timely
        rw [leaves.now] at timely
        obtain ⟨pending, known⟩ := hand timely
        exact ⟨quiet since rfl rfl timely pending, fun outage mem =>
          Nat.lt_of_lt_of_le (known outage mem) leaves.nextOutage⟩
    | unlocking since recovery outages | recovered outages =>
        exact ⟨leaves.gone hand.1, fun outage mem => leaves.taken _ (hand.2 outage mem)⟩
    | convertForgetting since legacy =>
        exact fun outage is => Nat.lt_of_lt_of_le (hand outage is) leaves.nextOutage
    | recording since legacy => exact Nat.lt_of_lt_of_le hand leaves.nextOutage
    | _ => trivial
  · intro ne r hr
    rcases leaves.recovered r hr with before | own
    · exact fits.silent ne r before
    · rw [own]
      exact Ne.symm other

namespace Store

/-- A statement on the row, that leaves the lock, the marker and the count of outages. -/
structure RowOnly (s s' : Store) : Prop where
  lock : s'.lock = s.lock
  marker : s'.marker = s.marker
  nextOutage : s'.nextOutage = s.nextOutage

theorem consume_rowOnly (s : Store) : RowOnly s s.consume.1 := by
  unfold consume
  split <;> exact ⟨rfl, rfl, rfl⟩

theorem releaseClaim_rowOnly (s : Store) (t : ClaimToken) : RowOnly s (s.releaseClaim t).1 := by
  unfold releaseClaim
  split <;> exact ⟨rfl, rfl, rfl⟩

theorem recordLegacyOffline_rowOnly (s : Store) (now : Instant) (outage : Nat) :
    RowOnly s (s.recordLegacyOffline now outage) := by
  unfold recordLegacyOffline
  split <;> exact ⟨rfl, rfl, rfl⟩

theorem insertClaim_rowOnly (s : Store) (now : Instant) (t : ClaimToken) :
    RowOnly s (s.insertClaim now t).1 := by
  unfold insertClaim
  split <;> exact ⟨rfl, rfl, rfl⟩

theorem reclaim_rowOnly (s : Store) (now : Instant) (t : ClaimToken) :
    RowOnly s (s.reclaim now t).1 := by
  unfold reclaim
  split
  · split <;> exact ⟨rfl, rfl, rfl⟩
  · exact ⟨rfl, rfl, rfl⟩

theorem consume_notified (s : Store) : s.consume.1.notified = false := by
  unfold consume
  split
  · rfl
  · next pending => exact Bool.eq_false_iff.mpr pending

theorem releaseClaim_notified {s : Store} {t : ClaimToken}
    (marked : (s.releaseClaim t).1.notified = true) : s.notified = true := by
  unfold releaseClaim at marked
  split at marked
  · cases marked
  · exact marked

theorem insertClaim_notified (s : Store) (now : Instant) (t : ClaimToken) :
    (s.insertClaim now t).1.notified = s.notified := by
  unfold insertClaim
  split
  · rfl
  · next none' =>
    rw [notified, notified, none']
    rfl

theorem reclaim_notified (s : Store) (now : Instant) (t : ClaimToken) :
    (s.reclaim now t).1.notified = s.notified := by
  unfold reclaim
  split
  · next row is =>
    split
    · rw [notified, notified, is]
      rfl
    · rfl
  · rfl

/-- The lock is had when it is free or its time is over. -/
theorem getLock_cases (s : Store) (now : Instant) (t : ClaimToken) :
    s.getLock now t = (s, false) ∨
      (∀ lock, s.lock = some lock → lock.expiresAt ≤ now) ∧
        s.getLock now t = ({ s with lock := some ⟨t, now + claimTimeout⟩ }, true) := by
  unfold getLock
  split
  · next free =>
    refine Or.inr ⟨fun lock is => ?_, rfl⟩
    rw [is, Option.all_some, decide_eq_true_eq] at free
    exact free
  · exact Or.inl rfl

theorem ownsLock_of_held {s : Store} {now expiresAt : Instant} {t : ClaimToken}
    (held : s.lock = some ⟨t, expiresAt⟩) (timely : now < expiresAt) :
    s.ownsLock now t = true := by
  simp [ownsLock, held, timely]

theorem releaseLock_other {s : Store} {lock : Lock} {t : ClaimToken} (held : s.lock = some lock)
    (other : lock.owner ≠ t) : (s.releaseLock t).lock = some lock := by
  simp [releaseLock, held, Option.filter_some, other]

end Store

/-- A statement that leaves the record alone. -/
theorem Leaves.of_store {pid : Nat} {s : Presence} {store : Store}
    (lock : ∀ lock, s.store.lock = some lock → lock.owner ≠ token pid → s.now < lock.expiresAt →
      store.lock = some lock)
    (notified : store.notified = true → s.store.notified = true ∨ s.gone = true ∨
      ∃ lock, s.store.lock = some lock ∧ lock.owner = token pid)
    (nextOutage : s.store.nextOutage ≤ store.nextOutage) : Leaves pid s { s with store } where
  now := rfl
  lock := lock
  gone := id
  ends := Or.inl
  notified := notified
  nextOutage := nextOutage
  taken _ mem := mem
  recovered _ mem := Or.inl mem

theorem Leaves.of_rowOnly {pid : Nat} {s : Presence} {store : Store}
    (only : Store.RowOnly s.store store)
    (notified : store.notified = true → s.store.notified = true ∨ s.gone = true ∨
      ∃ lock, s.store.lock = some lock ∧ lock.owner = token pid) :
    Leaves pid s { s with store } := by
  refine .of_store (fun lock is _ _ => ?_) notified (Nat.le_of_eq only.nextOutage.symm)
  rw [only.lock]
  exact is

theorem Leaves.refl (pid : Nat) (s : Presence) : Leaves pid s s :=
  .of_rowOnly ⟨rfl, rfl, rfl⟩ Or.inl

/-- More is taken and recovered, and the marker's time may end. -/
theorem Leaves.record {pid : Nat} {s s' : Presence} (leaves : Leaves pid s s') {gone : Bool}
    {taken : List Taking} {recovered : List Recovery} (kept : s'.gone = true → gone = true)
    (ends : gone = true → s.gone = true ∨
      ∃ lock, s.store.lock = some lock ∧ lock.owner = token pid)
    (takes : ∀ t ∈ s'.taken, t ∈ taken)
    (reports : ∀ r ∈ recovered, r ∈ s'.recovered ∨ r.contender = pid) :
    Leaves pid s { s' with gone, taken, recovered } where
  now := leaves.now
  lock := leaves.lock
  gone before := kept (leaves.gone before)
  ends := ends
  notified := leaves.notified
  nextOutage := leaves.nextOutage
  taken t mem := takes t (leaves.taken t mem)
  recovered r mem := (reports r mem).elim (leaves.recovered r) Or.inr

theorem act_leaves {pid : Nat} {s : Presence} {contender : Contender} {input : Input}
    (fits : Fits pid s contender) (timely : Timely pid s contender input) :
    Leaves pid s (act pid s contender input).1 := by
  unfold act
  split
  · exact .refl pid s
  · next runs =>
    have holds : ∀ since, contender.section? = some since →
        ∃ lock, s.store.lock = some lock ∧ lock.owner = token pid := by
      intro since inside
      have inTime := timely (Bool.eq_false_iff.mpr runs) since inside
      exact ⟨_, fits.owns since inside inTime, rfl⟩
    have consumed : Leaves pid s { s with store := s.store.consume.1 } := by
      refine .of_rowOnly s.store.consume_rowOnly fun marked => ?_
      rw [Store.consume_notified] at marked
      cases marked
    have forgotten : Leaves pid s { s with store := s.store.forgetMarker } :=
      .of_store (fun _ is _ _ => is) Or.inl (Nat.le_refl _)
    cases contender with
    | locking purpose =>
        simp only
        rcases s.store.getLock_cases s.now (token pid) with same | ⟨free, had⟩
        · rw [same]
          exact .refl pid s
        · rw [had]
          refine .of_store (fun lock is _ unexpired => ?_) Or.inl (Nat.le_refl _)
          exact absurd (free lock is) (not_le.mpr unexpired)
    | looking purpose since =>
        simp only
        split
        · exact (Leaves.refl pid s).record (fun _ => rfl) (fun _ => Or.inr (holds since rfl))
            (fun _ mem => mem) fun _ mem => Or.inl mem
        · exact .refl pid s
    | consuming =>
        simp only
        split
        · exact consumed.record id Or.inl (fun _ mem => List.mem_append_right _ mem)
            fun _ mem => Or.inl mem
        · exact consumed
    | consumingHeld since => exact consumed
    | forgetting since recovery outages =>
        exact forgotten.record (fun _ => rfl) (fun _ => Or.inr (holds since rfl))
          (fun _ mem => List.mem_append_right _ mem) fun _ mem => Or.inl mem
    | convertForgetting since legacy => exact forgotten
    | recording since legacy =>
        exact .of_rowOnly (s.store.recordLegacyOffline_rowOnly _ _) fun _ =>
          Or.inr (Or.inr (holds since rfl))
    | claiming =>
        refine .of_rowOnly (s.store.insertClaim_rowOnly _ _) fun marked => ?_
        rw [Store.insertClaim_notified] at marked
        exact Or.inl marked
    | reclaiming now =>
        refine .of_rowOnly (s.store.reclaim_rowOnly _ _) fun marked => ?_
        rw [Store.reclaim_notified] at marked
        exact Or.inl marked
    | marking =>
        have gone := fits.absent rfl
        have marked : Leaves pid s { s with store := (s.store.markDelivered s.now (token pid)).1 } := by
          refine .of_store (fun lock is _ _ => ?_) (fun _ => Or.inr (Or.inl gone)) ?_
          · unfold Store.markDelivered
            split <;> exact is
          · unfold Store.markDelivered
            split
            · exact Nat.le_succ _
            · exact Nat.le_refl _
        simp only
        split
        · exact ⟨marked.now, marked.lock, marked.gone, marked.ends, marked.notified,
            marked.nextOutage, marked.taken, marked.recovered⟩
        · exact marked
    | releasing =>
        exact .of_rowOnly (s.store.releaseClaim_rowOnly _) fun marked =>
          Or.inl (Store.releaseClaim_notified marked)
    | recovered outages =>
        refine (Leaves.refl pid s).record id Or.inl (fun _ mem => mem) fun r mem => ?_
        rcases List.mem_cons.mp mem with rfl | old
        · exact Or.inr rfl
        · exact Or.inl old
    | leaving | unlocking | convertUnlocking =>
        exact .of_store (fun _ is other _ => Store.releaseLock_other is other) Or.inl
          (Nat.le_refl _)
    | heartbeat | sweep | swept | checkingMarker | checkingState | checkingOwner | pulling
    | convertChecking | convertPulling | sending | returned => exact .refl pid s

theorem notified_iff {s : Store} :
    s.notified = true ↔ ∃ row, s.row = some row ∧ row.offlineNotifiedAt.isSome = true := by
  unfold Store.notified
  cases s.row <;> simp

theorem Sound.of_store {s : Presence} (sound : Sound s) {store : Store}
    (marker : ∀ outage, store.marker = some outage → s.store.marker = some outage)
    (nextOutage : store.nextOutage = s.store.nextOutage)
    (row : ∀ row, store.row = some row → row.Labelled s.store.nextOutage s.taken) :
    Sound { s with store } where
  gone ended := by
    cases is : store.marker with
    | none => rfl
    | some _ =>
        have before := marker _ is
        rw [sound.gone ended] at before
        cases before
  before := sound.before
  unique := sound.unique
  known t mem := by
    rw [nextOutage]
    exact sound.known t mem
  row r is := by
    rw [nextOutage]
    exact row r is
  marker outage is := by
    rw [nextOutage]
    exact sound.marker outage (marker outage is)
  logged := sound.logged
  distinct := sound.distinct

theorem Sound.of_rowOnly {s : Presence} (sound : Sound s) {store : Store}
    (only : Store.RowOnly s.store store)
    (row : ∀ row, store.row = some row → row.Labelled s.store.nextOutage s.taken) :
    Sound { s with store } :=
  sound.of_store (fun _ is => only.marker ▸ is) only.nextOutage row

/-- A deletion leaves the row or takes it away. -/
theorem Sound.of_deleted {s : Presence} (sound : Sound s) {store : Store}
    (only : Store.RowOnly s.store store) (row : store.row = s.store.row ∨ store.row = none) :
    Sound { s with store } := by
  refine sound.of_rowOnly only fun r is => ?_
  rcases row with same | none'
  · exact sound.row r (same ▸ is)
  · rw [none'] at is
    cases is

theorem consume_row (s : Store) : s.consume.1.row = s.row ∨ s.consume.1.row = none := by
  unfold Store.consume
  split
  · exact Or.inr rfl
  · exact Or.inl rfl

theorem releaseClaim_row (s : Store) (t : ClaimToken) :
    (s.releaseClaim t).1.row = s.row ∨ (s.releaseClaim t).1.row = none := by
  unfold Store.releaseClaim
  split
  · exact Or.inr rfl
  · exact Or.inl rfl

theorem Row.Labelled.of_pending {row : Row} (pending : row.offlineNotifiedAt = none)
    (outage : row.outage = none) (nextOutage : Nat) (taken : List Taking) :
    row.Labelled nextOutage taken where
  delivered marked := by
    rw [pending] at marked
    cases marked
  pending _ := outage
  fresh o is := by
    rw [outage] at is
    cases is

theorem insertClaim_sound {s : Presence} (sound : Sound s) (t : ClaimToken) :
    Sound { s with store := (s.store.insertClaim s.now t).1 } := by
  refine sound.of_rowOnly (s.store.insertClaim_rowOnly _ _) fun r is => ?_
  unfold Store.insertClaim at is
  split at is
  · exact sound.row r is
  · obtain rfl := Option.some.inj is
    exact .of_pending rfl rfl _ _

theorem reclaim_sound {s : Presence} (sound : Sound s) (now : Instant) (t : ClaimToken) :
    Sound { s with store := (s.store.reclaim now t).1 } := by
  refine sound.of_rowOnly (s.store.reclaim_rowOnly _ _) fun r is => ?_
  unfold Store.reclaim at is
  split at is
  · next row was =>
    split at is
    · next overdue =>
      rw [Bool.and_eq_true, Option.isNone_iff_eq_none] at overdue
      obtain rfl := Option.some.inj is
      refine .of_pending ?_ ?_ _ _
      · exact overdue.1
      · exact (sound.row row was).pending overdue.1
    · exact sound.row r is
  · exact sound.row r is

/-- Before anything is taken, a conversion labels the row it inserts with the marker's
outage. -/
theorem recordLegacyOffline_sound {s : Presence} (sound : Sound s) {legacy : Nat}
    (nothing : s.taken = []) (known : legacy < s.store.nextOutage) :
    Sound { s with store := s.store.recordLegacyOffline s.now legacy } := by
  refine sound.of_rowOnly (s.store.recordLegacyOffline_rowOnly _ _) fun r is => ?_
  unfold Store.recordLegacyOffline at is
  split at is
  · exact sound.row r is
  · obtain rfl := Option.some.inj is
    refine ⟨fun _ => rfl, fun pending => (nomatch pending), fun o same => ?_⟩
    obtain rfl := Option.some.inj same
    exact ⟨known, fun t mem => by rw [nothing] at mem; cases mem⟩

/-- A row that is marked delivered stands for a new outage. -/
theorem markDelivered_sound {s : Presence} (sound : Sound s) (t : ClaimToken)
    (delivered : List Delivery) :
    Sound { s with store := (s.store.markDelivered s.now t).1, delivered } := by
  unfold Store.markDelivered
  split
  · refine ⟨sound.gone, sound.before, sound.unique, fun t mem => Nat.lt_succ_of_lt
      (sound.known t mem), fun r is => ?_, fun o is => Nat.lt_succ_of_lt (sound.marker o is),
      sound.logged, sound.distinct⟩
    obtain ⟨row, _, rfl⟩ := Option.map_eq_some_iff.mp is
    refine ⟨fun _ => rfl, fun pending => (nomatch pending), fun o same => ?_⟩
    obtain rfl := Option.some.inj same
    exact ⟨Nat.lt_succ_self _, fun t mem => Nat.ne_of_lt (sound.known t mem)⟩
  · exact ⟨sound.gone, sound.before, sound.unique, sound.known, sound.row, sound.marker,
      sound.logged, sound.distinct⟩

theorem mem_taking {pid : Nat} {outages : List Nat} {t : Taking} :
    t ∈ taking pid outages ↔ ∃ outage ∈ outages, ⟨pid, outage⟩ = t := List.mem_map

/-- Outages nobody has taken are taken by one contender. -/
theorem Sound.of_taken {s : Presence} (sound : Sound s) {pid : Nat} {outages : List Nat}
    {store : Store} (ended : store.marker = none) (nextOutage : store.nextOutage = s.store.nextOutage)
    (known : ∀ outage ∈ outages, outage < s.store.nextOutage)
    (fresh : ∀ outage ∈ outages, ∀ t ∈ s.taken, t.outage ≠ outage)
    (row : ∀ row, store.row = some row → row.Labelled s.store.nextOutage (taking pid outages ++ s.taken)) :
    Sound { s with store, gone := true, taken := taking pid outages ++ s.taken } where
  gone _ := ended
  before still := nomatch still
  unique a ha b hb same := by
    rcases List.mem_append.mp ha with newA | oldA <;> rcases List.mem_append.mp hb with newB | oldB
    · obtain ⟨_, _, rfl⟩ := mem_taking.mp newA
      obtain ⟨_, _, rfl⟩ := mem_taking.mp newB
      rfl
    · obtain ⟨outage, mem, rfl⟩ := mem_taking.mp newA
      exact absurd same.symm (fresh outage mem b oldB)
    · obtain ⟨outage, mem, rfl⟩ := mem_taking.mp newB
      exact absurd same (fresh outage mem a oldA)
    · exact sound.unique a oldA b oldB same
  known t mem := by
    rw [nextOutage]
    rcases List.mem_append.mp mem with new | old
    · obtain ⟨outage, hout, rfl⟩ := mem_taking.mp new
      exact known outage hout
    · exact sound.known t old
  row r is := by
    rw [nextOutage]
    exact row r is
  marker outage is := by
    rw [ended] at is
    cases is
  logged r hr outage mem := List.mem_append_right _ (sound.logged r hr outage mem)
  distinct := sound.distinct

/-- A row that is not delivered stands for no outage. -/
theorem Sound.row_outage_of_pending {s : Presence} (sound : Sound s)
    (pending : s.store.notified = false) {row : Row} (is : s.store.row = some row) :
    row.outage = none := by
  refine (sound.row row is).pending ?_
  rw [← Option.not_isSome_iff_eq_none]
  intro marked
  have notified := notified_iff.mpr ⟨row, is, marked⟩
  rw [pending] at notified
  cases notified

theorem mem_outages {s : Store} {outage : Nat} :
    outage ∈ s.outages ↔ ∃ row, s.row = some row ∧ row.outage = some outage := by
  simp [Store.outages, Option.bind_eq_some_iff]

theorem consume_of_notified {s : Store} (notified : s.notified = true) :
    s.consume = ({ s with row := none }, true) := by
  rw [Store.consume, if_pos notified]

/-- What a statement keeps, and where it leaves its contender. -/
def Keeps (pid : Nat) (result : Presence × Contender) : Prop :=
  Sound result.1 ∧ Fits pid result.1 result.2

/-- The row is consumed after the lock was released: its outage is taken. -/
theorem consuming_keeps {pid : Nat} {s : Presence} {input : Input} (sound : Sound s)
    (fits : Fits pid s .consuming) (runs : input.crash = false) :
    Keeps pid (act pid s .consuming input) := by
  have gone := fits.absent rfl
  have silent := fits.silent (nomatch ·)
  simp only [act, runs, Bool.false_eq_true, if_false]
  cases notified : s.store.notified with
  | false =>
      rw [consume_of_pending notified]
      exact ⟨sound, .returned pid s⟩
  | true =>
      rw [consume_of_notified notified]
      have labelled : ∀ outage ∈ s.store.outages, outage < s.store.nextOutage ∧
          ∀ t ∈ s.taken, t.outage ≠ outage := by
        intro outage mem
        obtain ⟨row, is, same⟩ := mem_outages.mp mem
        exact (sound.row row is).fresh outage same
      have taken : Sound
          { s with
            store := { s.store with row := none }, gone := true
            taken := taking pid s.store.outages ++ s.taken } :=
        sound.of_taken (sound.gone gone) rfl (fun outage mem => (labelled outage mem).1)
          (fun outage mem => (labelled outage mem).2) fun row is => nomatch is
      refine ⟨?_, .of_outside rfl (nomatch ·) ⟨gone, fun outage mem => ?_⟩ silent⟩
      · simp only [if_true, gone]
        simpa only [gone] using taken
      · exact List.mem_append_left _ (List.mem_map_of_mem mem)

/-- The marker is forgotten for a recovery, with the row consumed before: both are taken. -/
theorem forgetting_keeps {pid : Nat} {s : Presence} {since : Instant} {recovery : Bool}
    {outages : List Nat} {input : Input} (sound : Sound s)
    (fits : Fits pid s (.forgetting since recovery outages)) (runs : input.crash = false)
    (inTime : s.now < since + claimTimeout) :
    Keeps pid (act pid s (.forgetting since recovery outages) input) := by
  have still := fits.present rfl since rfl inTime
  have nothing := (sound.before still).1
  obtain ⟨pending, known⟩ := fits.hand inTime
  simp only [act, runs, Bool.false_eq_true, if_false]
  constructor
  · refine sound.of_taken rfl rfl known (fun _ _ t mem => ?_) fun row is => ?_
    · rw [nothing] at mem
      cases mem
    · have none' := sound.row_outage_of_pending pending is
      refine ⟨(sound.row row is).delivered, fun _ => none', fun outage same => ?_⟩
      rw [none'] at same
      cases same
  · refine .of_inside rfl (fits.owns since rfl inTime) (nomatch ·) (nomatch ·) ⟨rfl, ?_⟩
      (fits.silent (nomatch ·))
    exact fun outage mem => List.mem_append_left _ (List.mem_map_of_mem mem)

/-- The recovery is reported, once by its contender. -/
theorem recovered_keeps {pid : Nat} {s : Presence} {outages : List Nat} {input : Input}
    (sound : Sound s) (fits : Fits pid s (.recovered outages)) (runs : input.crash = false) :
    Keeps pid (act pid s (.recovered outages) input) := by
  obtain ⟨gone, taken⟩ := fits.hand
  have silent := fits.silent (nomatch ·)
  simp only [act, runs, Bool.false_eq_true, if_false]
  refine ⟨⟨sound.gone, fun still => ?_, sound.unique, sound.known, sound.row, sound.marker,
    fun r hr outage mem => ?_, ?_⟩, .returned pid _⟩
  · rw [gone] at still
    cases still
  · rcases List.mem_cons.mp hr with rfl | old
    · exact taken outage mem
    · exact sound.logged r old outage mem
  · exact List.pairwise_cons.mpr ⟨fun r hr => Ne.symm (silent r hr), sound.distinct⟩

section Acts
variable {pid : Nat} {s : Presence} {contender : Contender} {input : Input}

/-- What a contender is at: watching the device, entering the section, a recovery, a conversion, or
a notification of its own. -/
inductive Phase
  | watching
  | entering
  | recovering
  | converting
  | notifying
  | ended

def Contender.phase : Contender → Phase
  | .heartbeat | .sweep | .swept _ | .checkingMarker | .checkingState => .watching
  | .locking _ | .looking _ _ | .leaving _ _ => .entering
  | .consuming | .consumingHeld _ | .checkingOwner _ _ _ | .pulling _ _ _ | .forgetting _ _ _
  | .unlocking _ _ _ | .recovered _ => .recovering
  | .convertChecking _ | .convertPulling _ | .convertForgetting _ _ | .recording _ _
  | .convertUnlocking _ => .converting
  | .claiming | .reclaiming _ | .sending | .marking | .releasing => .notifying
  | .returned => .ended

theorem Keeps.returned (sound : Sound s) : Keeps pid (s, .returned) := ⟨sound, .returned pid s⟩

/-- Outside the section, with nothing reported. -/
theorem Keeps.outside {s' : Presence} {next : Contender} (fits : Fits pid s contender)
    (sound : Sound s') (same : s'.recovered = s.recovered) (ne : contender ≠ .returned)
    (out : next.section? = none) (absent : next.lacksMarker = true → s'.gone = true)
    (hand : Hand pid s' next) : Keeps pid (s', next) := by
  refine ⟨sound, .of_outside out absent hand ?_⟩
  rw [same]
  exact fits.silent ne

/-- Inside, with the store as it was. -/
theorem Keeps.inside {since : Instant} {next : Contender} (fits : Fits pid s contender)
    (sound : Sound s) (was : contender.section? = some since) (inTime : s.now < since + claimTimeout)
    (is : next.section? = some since) (present : next.hasMarker = true → s.gone = false)
    (absent : next.lacksMarker = true → s.gone = true) (hand : Hand pid s next) :
    Keeps pid (s, next) := by
  refine ⟨sound, .of_inside is (fits.owns since was inTime) present absent hand ?_⟩
  exact fits.silent fun returned => by rw [returned] at was; cases was

theorem Sound.unlocked (sound : Sound s) (t : ClaimToken) :
    Sound { s with store := s.store.releaseLock t } :=
  sound.of_store (fun _ is => is) rfl sound.row

/-- The store is only read. -/
theorem watching_keeps (sound : Sound s) (fits : Fits pid s contender) (runs : input.crash = false)
    (is : contender.phase = .watching) : Keeps pid (act pid s contender input) := by
  have outside {next : Contender} (ne : contender ≠ .returned) (out : next.section? = none)
      (absent : next.lacksMarker = true → s.gone = true) (hand : Hand pid s next) :
      Keeps pid (s, next) :=
    .outside fits sound rfl ne out absent hand
  cases contender with
  | heartbeat =>
      simp only [act, runs, Bool.false_eq_true, if_false]
      split
      · exact outside (nomatch ·) rfl (nomatch ·) trivial
      · exact .returned sound
  | sweep =>
      simp only [act, runs, Bool.false_eq_true, if_false]
      exact outside (nomatch ·) rfl (nomatch ·) trivial
  | swept notified =>
      simp only [act, runs, Bool.false_eq_true, if_false]
      split
      · exact outside (nomatch ·) rfl (nomatch ·) trivial
      · split
        · exact .returned sound
        · exact outside (nomatch ·) rfl (nomatch ·) trivial
  | checkingMarker =>
      simp only [act, runs, Bool.false_eq_true, if_false]
      split
      · exact outside (nomatch ·) rfl (nomatch ·) trivial
      · exact outside (nomatch ·) rfl (nomatch ·) trivial
  | checkingState =>
      simp only [act, runs, Bool.false_eq_true, if_false]
      split
      · exact outside (nomatch ·) rfl (nomatch ·) trivial
      · exact .returned sound
  | _ => cases is

/-- The lock is asked for, and left again where the marker is gone. -/
theorem entering_keeps (sound : Sound s) (fits : Fits pid s contender) (runs : input.crash = false)
    (inTime : ∀ since, contender.section? = some since → s.now < since + claimTimeout)
    (is : contender.phase = .entering) : Keeps pid (act pid s contender input) := by
  cases contender with
  | locking purpose =>
      simp only [act, runs, Bool.false_eq_true, if_false]
      rcases s.store.getLock_cases s.now (token pid) with same | ⟨_, had⟩
      · rw [same]
        exact .returned sound
      · rw [had]
        refine ⟨sound.of_store (fun _ is => is) rfl sound.row, ?_⟩
        exact .of_inside rfl rfl (nomatch ·) (nomatch ·) trivial (fits.silent (nomatch ·))
  | looking purpose since =>
      simp only [act, runs, Bool.false_eq_true, if_false]
      split
      · next absent =>
        rw [Option.isNone_iff_eq_none] at absent
        refine ⟨⟨fun _ => absent, (nomatch ·), sound.unique, sound.known, sound.row,
          sound.marker, sound.logged, sound.distinct⟩, ?_⟩
        exact .of_inside rfl (fits.owns since rfl (inTime since rfl)) (nomatch ·) (fun _ => rfl)
          trivial (fits.silent (nomatch ·))
      · next found =>
        have still : s.gone = false := by
          rw [Bool.eq_false_iff]
          intro ended
          rw [sound.gone ended] at found
          exact found rfl
        have inside {next : Contender} (is : next.section? = some since)
            (absent : next.lacksMarker = true → s.gone = true) (hand : Hand pid s next) :
            Keeps pid (s, next) :=
          .inside fits sound rfl (inTime since rfl) is (fun _ => still) absent hand
        cases purpose with
        | recovery => exact inside rfl (nomatch ·) trivial
        | conversion => exact inside rfl (nomatch ·) trivial
  | leaving purpose since =>
      simp only [act, runs, Bool.false_eq_true, if_false]
      have gone := fits.absent rfl
      have unlocked := sound.unlocked (token pid)
      cases purpose with
      | recovery => exact .outside fits unlocked rfl (nomatch ·) rfl (fun _ => gone) trivial
      | conversion => exact .outside fits unlocked rfl (nomatch ·) rfl (fun _ => gone) trivial
  | _ => cases is

/-- The row is consumed under the lock; its outage stays in hand until the marker is forgotten. -/
theorem consumingHeld_keeps {since : Instant} (sound : Sound s)
    (fits : Fits pid s (.consumingHeld since)) (runs : input.crash = false)
    (inTime : s.now < since + claimTimeout) : Keeps pid (act pid s (.consumingHeld since) input) := by
  have still := fits.present rfl since rfl inTime
  have labelled : ∀ outage ∈ s.store.outages, outage < s.store.nextOutage := by
    intro outage mem
    obtain ⟨row, is, same⟩ := mem_outages.mp mem
    exact ((sound.row row is).fresh outage same).1
  simp only [act, runs, Bool.false_eq_true, if_false]
  refine ⟨sound.of_deleted s.store.consume_rowOnly (consume_row s.store), ?_⟩
  refine .of_inside rfl ?_ (fun _ => still) (nomatch ·) (fun _ => ⟨?_, fun outage mem => ?_⟩)
    (fits.silent (nomatch ·))
  · rw [s.store.consume_rowOnly.lock]
    exact fits.owns since rfl inTime
  · exact s.store.consume_notified
  · rw [s.store.consume_rowOnly.nextOutage]
    split at mem
    · exact labelled outage mem
    · cases mem

/-- A recovery, under the lock and after it. -/
theorem recovering_keeps (sound : Sound s) (fits : Fits pid s contender) (runs : input.crash = false)
    (inTime : ∀ since, contender.section? = some since → s.now < since + claimTimeout)
    (is : contender.phase = .recovering) : Keeps pid (act pid s contender input) := by
  cases contender with
  | consuming => exact consuming_keeps sound fits runs
  | consumingHeld since => exact consumingHeld_keeps sound fits runs (inTime since rfl)
  | checkingOwner since durable outages =>
      have held := fits.owns since rfl (inTime since rfl)
      have owns := Store.ownsLock_of_held held (inTime since rfl)
      have still := fits.present rfl since rfl (inTime since rfl)
      simp only [act, runs, Bool.false_eq_true, if_false, owns, if_true]
      exact .inside fits sound rfl (inTime since rfl) rfl (fun _ => still) (nomatch ·) fits.hand
  | pulling since durable outages =>
      have still := fits.present rfl since rfl (inTime since rfl)
      simp only [act, runs, Bool.false_eq_true, if_false]
      refine .inside fits sound rfl (inTime since rfl) rfl (fun _ => still) (nomatch ·)
        fun timely => ⟨(fits.hand timely).1, fun outage mem => ?_⟩
      rcases List.mem_append.mp mem with legacy | durable
      · exact sound.marker outage (Option.mem_toList.mp legacy)
      · exact (fits.hand timely).2 outage durable
  | forgetting since recovery outages => exact forgetting_keeps sound fits runs (inTime since rfl)
  | unlocking since recovery outages =>
      have unlocked := sound.unlocked (token pid)
      simp only [act, runs, Bool.false_eq_true, if_false]
      split
      · exact .outside fits unlocked rfl (nomatch ·) rfl (nomatch ·) fits.hand
      · exact .returned unlocked
  | recovered outages => exact recovered_keeps sound fits runs
  | _ => cases is

/-- The conversion of a marker into a row, under the lock. -/
theorem converting_keeps (sound : Sound s) (fits : Fits pid s contender) (runs : input.crash = false)
    (inTime : ∀ since, contender.section? = some since → s.now < since + claimTimeout)
    (is : contender.phase = .converting) : Keeps pid (act pid s contender input) := by
  cases contender with
  | convertChecking since =>
      have still := fits.present rfl since rfl (inTime since rfl)
      simp only [act, runs, Bool.false_eq_true, if_false]
      split
      · exact .inside fits sound rfl (inTime since rfl) rfl (fun _ => still) (nomatch ·) trivial
      · exact .returned sound
  | convertPulling since =>
      have still := fits.present rfl since rfl (inTime since rfl)
      simp only [act, runs, Bool.false_eq_true, if_false]
      exact .inside fits sound rfl (inTime since rfl) rfl (fun _ => still) (nomatch ·)
        fun outage is => sound.marker outage is
  | convertForgetting since legacy =>
      have forgotten : Sound { s with store := s.store.forgetMarker } :=
        sound.of_store (fun _ is => nomatch is) rfl sound.row
      have owns := fits.owns since rfl (inTime since rfl)
      have still := fits.present rfl since rfl (inTime since rfl)
      simp only [act, runs, Bool.false_eq_true, if_false]
      refine ⟨forgotten, ?_⟩
      cases legacy with
      | some outage =>
          exact .of_inside rfl owns (fun _ => still) (nomatch ·) (fits.hand outage rfl)
            (fits.silent (nomatch ·))
      | none => exact .of_inside rfl owns (nomatch ·) (nomatch ·) trivial (fits.silent (nomatch ·))
  | recording since legacy =>
      have still := fits.present rfl since rfl (inTime since rfl)
      simp only [act, runs, Bool.false_eq_true, if_false]
      refine ⟨recordLegacyOffline_sound sound (sound.before still).1 fits.hand, ?_⟩
      refine .of_inside rfl ?_ (nomatch ·) (nomatch ·) trivial (fits.silent (nomatch ·))
      rw [(s.store.recordLegacyOffline_rowOnly s.now legacy).lock]
      exact fits.owns since rfl (inTime since rfl)
  | convertUnlocking since =>
      simp only [act, runs, Bool.false_eq_true, if_false]
      exact .returned (sound.unlocked (token pid))
  | _ => cases is

/-- An offline notification of its own: the row is claimed, and marked or released. -/
theorem notifying_keeps (sound : Sound s) (fits : Fits pid s contender) (runs : input.crash = false)
    (is : contender.phase = .notifying) : Keeps pid (act pid s contender input) := by
  cases contender with
  | claiming =>
      have gone := fits.absent rfl
      have claimed := insertClaim_sound sound (token pid)
      simp only [act, runs, Bool.false_eq_true, if_false]
      split
      · exact .outside fits claimed rfl (nomatch ·) rfl (fun _ => gone) trivial
      · exact .outside fits claimed rfl (nomatch ·) rfl (fun _ => gone) trivial
  | reclaiming now =>
      have gone := fits.absent rfl
      have claimed := reclaim_sound sound now (token pid)
      simp only [act, runs, Bool.false_eq_true, if_false]
      split
      · exact .outside fits claimed rfl (nomatch ·) rfl (fun _ => gone) trivial
      · exact .returned claimed
  | sending =>
      have gone := fits.absent rfl
      simp only [act, runs, Bool.false_eq_true, if_false]
      split
      · exact .outside fits sound rfl (nomatch ·) rfl (fun _ => gone) trivial
      · exact .outside fits sound rfl (nomatch ·) rfl (fun _ => gone) trivial
  | marking =>
      have gone := fits.absent rfl
      simp only [act, runs, Bool.false_eq_true, if_false]
      split
      · exact .returned (markDelivered_sound sound (token pid) _)
      · exact .outside fits (markDelivered_sound sound (token pid) s.delivered) rfl (nomatch ·) rfl
          (fun _ => gone) trivial
  | releasing =>
      simp only [act, runs, Bool.false_eq_true, if_false]
      exact .returned (sound.of_deleted (s.store.releaseClaim_rowOnly _) (releaseClaim_row _ _))
  | _ => cases is

/-- One statement of a timely contender. -/
theorem act_keeps (sound : Sound s) (fits : Fits pid s contender)
    (timely : Timely pid s contender input) : Keeps pid (act pid s contender input) := by
  cases runs : input.crash with
  | true =>
      simp only [act, runs, if_true]
      exact .returned sound
  | false =>
      cases is : contender.phase with
      | watching => exact watching_keeps sound fits runs is
      | entering => exact entering_keeps sound fits runs (timely runs) is
      | recovering => exact recovering_keeps sound fits runs (timely runs) is
      | converting => exact converting_keeps sound fits runs (timely runs) is
      | notifying => exact notifying_keeps sound fits runs is
      | ended =>
          cases contender with
          | returned =>
              simp only [act, runs, Bool.false_eq_true, if_false]
              exact .returned sound
          | _ => cases is

end Acts

theorem Fits.of_clock {pid : Nat} {s : Presence} {contender : Contender}
    (fits : Fits pid s contender) (microseconds : Nat) :
    Fits pid { s with now := s.now + microseconds } contender := by
  have earlier : ∀ {bound : Int}, s.now + microseconds < bound → s.now < bound :=
    fun later => Int.lt_of_le_of_lt (Int.le_add_of_nonneg_right (Int.natCast_nonneg _)) later
  constructor
  · exact fun since inside timely => fits.owns since inside (earlier timely)
  · exact fun has since inside timely => fits.present has since inside (earlier timely)
  · exact fits.absent
  · have hand := fits.hand
    cases contender with
    | checkingOwner | pulling | forgetting => exact fun timely => hand (earlier timely)
    | _ => exact hand
  · exact fits.silent

theorem Fits.of_expiry {pid : Nat} {s : Presence} {contender : Contender}
    (fits : Fits pid s contender) :
    Fits pid { s with store := s.store.forgetMarker } contender := by
  refine ⟨fits.owns, fits.present, fits.absent, ?_, fits.silent⟩
  have hand := fits.hand
  cases contender <;> exact hand

theorem step_keeps (c : Config Presence Contender) (event : Event Input Environment)
    (holds : Holds Sound Fits c) (timely : Guarded Timely c event) :
    Holds Sound Fits (step system c event) := by
  refine holds_step ?_ ?_ ?_ ?_ c event holds timely
  · exact fun pid s contender input sound fits timely => act_keeps sound fits timely
  · exact fun pid q s t t' input other _ fits fits' timely =>
      fits'.of_leaves (act_leaves fits timely) other
  · intro s change sound
    cases change with
    | clock microseconds =>
        exact ⟨sound.gone, sound.before, sound.unique, sound.known, sound.row, sound.marker,
          sound.logged, sound.distinct⟩
    | expireMarker => exact sound.of_store (fun _ is => nomatch is) rfl sound.row
  · intro pid s contender change _ fits
    cases change with
    | clock microseconds => exact fits.of_clock microseconds
    | expireMarker => exact fits.of_expiry

/-- Two recoveries are of two contenders, and each outage was taken by one. -/
theorem Sound.recoveredOnce {s : Presence} (sound : Sound s) : RecoveredOnce s := by
  refine sound.distinct.imp_of_mem fun {later earlier} hlater hearlier ne outage mem mem' => ?_
  exact ne (sound.unique _ (sound.logged later hlater outage mem) _
    (sound.logged earlier hearlier outage mem') rfl)

theorem start_keeps {store : Store} (inherited : Inherited store) (now : Instant)
    (isSweep : Nat → Bool) : Holds Sound Fits (start store now isSweep) := by
  constructor
  · refine ⟨(nomatch ·), fun _ => ⟨rfl, rfl⟩, ?_, ?_, fun row is => ?_, inherited.marker, ?_,
      List.Pairwise.nil⟩
    · exact fun _ mem => (List.not_mem_nil mem).elim
    · exact fun _ mem => (List.not_mem_nil mem).elim
    · obtain ⟨_, delivered, known⟩ := inherited.row row is
      refine ⟨delivered.mp, fun pending => ?_, fun outage same =>
        ⟨known outage same, fun _ mem => (List.not_mem_nil mem).elim⟩⟩
      rw [← Option.not_isSome_iff_eq_none, ← delivered, pending]
      exact Bool.false_ne_true
    · exact fun _ mem => (List.not_mem_nil mem).elim
  · intro pid
    have silent : ∀ r ∈ (start store now isSweep).shared.recovered, r.contender ≠ pid :=
      fun _ mem => (List.not_mem_nil mem).elim
    simp only [start]
    split
    · exact .of_outside rfl (nomatch ·) trivial silent
    · exact .of_outside rfl (nomatch ·) trivial silent

theorem start_delivered {store : Store} (inherited : Inherited store) (now : Instant)
    (isSweep : Nat → Bool) : Delivered (start store now isSweep).shared :=
  ⟨fun _ mem => (List.not_mem_nil mem).elim, fun row is => (inherited.row row is).1,
    fun _ mem => (List.not_mem_nil mem).elim, List.nodup_nil⟩

/-- In every run a row is marked delivered by one contender, a lost claim settles nothing and
a pending row is not consumed; and while the holders of the lock are timely, an outage is
closed by one recovery. -/
theorem presence_exactly_owned (store : Store) (inherited : Inherited store) (now : Instant)
    (isSweep : Nat → Bool) (events : List (Event Input Environment)) :
    Runs.Always (step system) (fun c => DeliveredOnce c.shared) (start store now isSweep) events ∧
      Runs.Along (step system) LoserChangesNothing (start store now isSweep) events ∧
      Runs.Along (step system) PendingNotConsumed (start store now isSweep) events ∧
      (Runs.Along (step system) (Guarded Timely) (start store now isSweep) events →
        Runs.Always (step system) (fun c => RecoveredOnce c.shared) (start store now isSweep)
          events) := by
  have every : Runs.Along (step system) (fun _ _ => True) (start store now isSweep) events :=
    Runs.Along.of_forall events _ fun _ _ => trivial
  refine ⟨?_, every.mono (fun c e _ => loserChangesNothing c e),
    every.mono (fun c e _ => pendingNotConsumed c e), ?_⟩
  · exact Runs.Always.of_invariant step_delivered (fun c delivered => delivered.once) events _
      (start_delivered inherited now isSweep)
  · exact Runs.Always.of_invariant_along step_keeps (fun c holds => holds.1.recoveredOnce) events _
      (start_keeps inherited now isSweep)

/-- An upgrade that left a delivered row beside the marker of the same outage. -/
def upgraded : Store where
  row := some
    { id := 1, offlineNotifiedAt := some 0, offlineClaimToken := none, offlineClaimedAt := none
      outage := some 1 }
  marker := some 1
  nextRowId := 2
  nextOutage := 2

/-- Two heartbeats, the first of which takes both. -/
def heartbeats : List (Event Input Environment) :=
  [.act 0 {}, .act 1 {}, .act 0 {}, .act 1 {}, .act 0 {}, .act 1 {}, .act 0 {}, .act 0 {},
    .act 0 {}, .act 0 {}, .act 0 {}, .act 0 {}, .act 0 {}, .act 1 {}]

theorem presence_upgraded :
    Runs.Always (step system) (fun c => RecoveredOnce c.shared) (start upgraded 0 fun _ => false)
      heartbeats := by
  refine (presence_exactly_owned upgraded ⟨fun row is => ?_, fun outage is => ?_⟩ 0
    (fun _ => false) heartbeats).2.2.2 (by decide +kernel)
  · obtain rfl := Option.some.inj is
    refine ⟨by decide, by decide, fun outage same => ?_⟩
    obtain rfl := Option.some.inj same
    decide
  · obtain rfl := Option.some.inj is
    decide

/-- The first heartbeat reports the outage. -/
example : (Runs.run (step system) (start upgraded 0 fun _ => false) heartbeats).shared.recovered =
    [{ contender := 0, outages := [1, 1] }] := by
  decide +kernel

end DevicePresenceNotificationState
end CortenDesk
