import CortenDesk.Lib.OrderedMap

/-!
Maps that are changed by overlays. A holder has no revert operation: an overlay sets
the keys it names, and one reserved value clears a key. An overlay that names every
wanted key and clears every other key that may be held moves the holder to the wanted
map, whatever it held.
-/
namespace Overlay
universe u v
variable {κ : Type u} {υ : Type v} [DecidableEq κ] (reset : υ)

/-- The sender's side: the wanted map and a reset for each listed key it lacks. -/
def withResets (desired : OrderedMap κ υ) (keys : List κ) : OrderedMap κ υ :=
  keys.foldl (fun wire k => if k ∈ wire.keys then wire else wire.set k reset) desired

theorem get?_withResets (desired : OrderedMap κ υ) (keys : List κ) (k : κ) :
    (withResets reset desired keys).get? k =
      if k ∉ desired.keys ∧ k ∈ keys then some reset else desired.get? k := by
  induction keys generalizing desired with
  | nil => simp [withResets]
  | cons j js ih =>
      rw [withResets, List.foldl_cons, ← withResets, ih]
      by_cases hj : j ∈ desired.keys
      · have other : k ∉ desired.keys → k ≠ j := fun hk he => hk (he ▸ hj)
        simp only [if_pos hj, List.mem_cons]
        by_cases hk : k ∈ desired.keys
        · simp [hk]
        · simp [hk, other hk]
      · have keys_set : k ∈ (desired.set j reset).keys ↔ k = j ∨ k ∈ desired.keys := by
          rw [OrderedMap.mem_keys_iff, OrderedMap.get?_set, OrderedMap.mem_keys_iff]
          by_cases hkj : k = j <;> simp [hkj]
        simp only [if_neg hj, List.mem_cons, keys_set, OrderedMap.get?_set]
        by_cases hkj : k = j
        · subst hkj
          simp [hj]
        · simp [hkj]

theorem mem_keys_withResets (desired : OrderedMap κ υ) (keys : List κ) (k : κ) :
    k ∈ (withResets reset desired keys).keys ↔ k ∈ desired.keys ∨ k ∈ keys := by
  rw [OrderedMap.mem_keys_iff, get?_withResets]
  by_cases hk : k ∈ desired.keys
  · simpa [hk] using (desired.mem_keys_iff k).mp hk
  · have := (desired.get?_eq_none_iff k).mpr hk
    by_cases hl : k ∈ keys <;> simp [hk, hl, this]

variable [DecidableEq υ]

/-- What a holder of a map effectively holds: its entries other than resets. -/
def effective (m : OrderedMap κ υ) (k : κ) : Option υ := (m.get? k).filter (· ≠ reset)

/-- The holder's side of an overlay. -/
def overlay (held : κ → Option υ) (wire : OrderedMap κ υ) (k : κ) : Option υ :=
  match wire.get? k with
  | none => held k
  | some v => if v = reset then none else some v

@[simp] theorem effective_empty : effective reset (∅ : OrderedMap κ υ) = fun _ => none := by
  funext k
  simp [effective]

theorem effective_eq_none_of_not_mem {m : OrderedMap κ υ} {k : κ} (h : k ∉ m.keys) :
    effective reset m k = none := by
  rw [effective, (m.get?_eq_none_iff k).mpr h, Option.filter_none]

/-- An overlay of wanted entries on themselves changes nothing. -/
theorem overlay_effective (m : OrderedMap κ υ) :
    overlay reset (effective reset m) m = effective reset m := by
  funext k
  simp only [overlay, effective]
  cases h : m.get? k with
  | none => simp
  | some v => by_cases hv : v = reset <;> simp [hv, Option.filter_some]

/-- The overlay with resets moves a holder to the wanted map when every key held is
wanted or listed. -/
theorem overlay_withResets {held : κ → Option υ} {desired wire : OrderedMap κ υ} {keys : List κ}
    (same : ∀ k, wire.get? k = (withResets reset desired keys).get? k)
    (covered : ∀ k, k ∉ desired.keys → k ∉ keys → held k = none) :
    overlay reset held wire = effective reset desired := by
  funext k
  simp only [overlay, same, get?_withResets]
  by_cases hk : k ∈ desired.keys
  · obtain ⟨v, hv⟩ := (desired.mem_keys_iff k).mp hk
    by_cases hreset : v = reset <;> simp [hk, hv, effective, hreset, Option.filter_some]
  · rw [effective_eq_none_of_not_mem reset hk]
    by_cases hl : k ∈ keys
    · simp [hk, hl]
    · simp [hl, (desired.get?_eq_none_iff k).mpr hk, covered k hk hl]

end Overlay
