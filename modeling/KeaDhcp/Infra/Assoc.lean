/-!
# Tables that are filled from a list

A table that a loop fills entry by entry, as the list of its entries, and searches that settle on
the first or on the last element with an answer.
-/

namespace Infra

open List

variable {τ κ β : Type} {key : τ → κ} {f g : τ → Option β} {ts : List τ}

/-- The table with an entry for each element that has a value. -/
def filled (key : τ → κ) (f : τ → Option β) (ts : List τ) : List (κ × β) :=
  ts.filterMap fun t => (f t).map fun b => (key t, b)

theorem filled_cons_none {t : τ} (h : f t = none) : filled key f (t :: ts) = filled key f ts := by
  simp [filled, h]

theorem filled_cons_some {t : τ} {b : β} (h : f t = some b) :
    filled key f (t :: ts) = (key t, b) :: filled key f ts := by
  simp [filled, h]

variable [BEq κ] [LawfulBEq κ]

/-- A key that no element has is in no entry. -/
theorem filled_lookup_none {k : κ} (h : ∀ t ∈ ts, key t ≠ k) : (filled key f ts).lookup k = none := by
  induction ts with
  | nil => rfl
  | cons t ts ih =>
    rw [forall_mem_cons] at h
    cases hf : f t with
    | none =>
      rw [filled_cons_none hf]
      exact ih h.2
    | some b =>
      have hne : (k == key t) = false := beq_false_of_ne (Ne.symm h.1)
      rw [filled_cons_some hf, lookup_cons, hne]
      exact ih h.2

/-- The entry of a key is the value of the element with that key. -/
theorem filled_lookup (hnodup : (ts.map key).Nodup) {t : τ} (ht : t ∈ ts) :
    (filled key f ts).lookup (key t) = f t := by
  induction ts with
  | nil => cases ht
  | cons u ts ih =>
    rw [map_cons, nodup_cons] at hnodup
    have hother : ∀ v ∈ ts, key v ≠ key u := fun v hv heq =>
      hnodup.1 (heq ▸ mem_map_of_mem hv)
    rcases mem_cons.mp ht with rfl | ht
    · cases hf : f t with
      | none =>
        rw [filled_cons_none hf]
        exact filled_lookup_none hother
      | some b => rw [filled_cons_some hf, lookup_cons_self]
    · cases hf : f u with
      | none =>
        rw [filled_cons_none hf]
        exact ih hnodup.2 ht
      | some b =>
        have hne : (key t == key u) = false := beq_false_of_ne (hother t ht)
        rw [filled_cons_some hf, lookup_cons, hne]
        exact ih hnodup.2 ht

/-- Two tables over one list are the same map exactly if the values are the same. -/
theorem filled_agree_iff (hnodup : (ts.map key).Nodup) :
    (∀ k, (filled key f ts).lookup k = (filled key g ts).lookup k) ↔ ∀ t ∈ ts, f t = g t := by
  constructor
  · intro h t ht
    have hk := h (key t)
    rwa [filled_lookup hnodup ht, filled_lookup hnodup ht] at hk
  · intro h k
    by_cases hk : ∃ t ∈ ts, key t = k
    · obtain ⟨t, ht, rfl⟩ := hk
      rw [filled_lookup hnodup ht, filled_lookup hnodup ht, h t ht]
    · have hnone : ∀ t ∈ ts, key t ≠ k := fun t ht heq => hk ⟨t, ht, heq⟩
      rw [filled_lookup_none hnone, filled_lookup_none hnone]

/-- A search finds an element first, and then its answer. -/
theorem findSome_eq_find_bind : ts.findSome? f = (ts.find? fun t => (f t).isSome).bind f := by
  induction ts with
  | nil => rfl
  | cons t ts ih =>
    cases hf : f t with
    | none => simpa [hf] using ih
    | some b => simp [hf]

/-- Where no two elements have the same answer, the answers agree exactly if the elements do. -/
theorem findSome_agree_iff (hinj : ∀ t u b, f t = some b → f u = some b → t = u) {us : List τ} :
    ts.findSome? f = us.findSome? f ↔
      (ts.find? fun t => (f t).isSome) = us.find? fun t => (f t).isSome := by
  rw [findSome_eq_find_bind, findSome_eq_find_bind]
  refine ⟨fun h => ?_, fun h => by rw [h]⟩
  have hsome : ∀ {vs : List τ} {t : τ}, vs.find? (fun t => (f t).isSome) = some t →
      ∃ b, f t = some b := by
    intro vs t ht
    have hf := find?_some ht
    exact Option.isSome_iff_exists.mp hf
  cases ht : ts.find? fun t => (f t).isSome with
  | none =>
    cases hu : us.find? fun t => (f t).isSome with
    | none => rfl
    | some u =>
      obtain ⟨b, hb⟩ := hsome hu
      simp [ht, hu, hb] at h
  | some t =>
    obtain ⟨b, hb⟩ := hsome ht
    cases hu : us.find? fun t => (f t).isSome with
    | none => simp [ht, hu, hb] at h
    | some u =>
      rw [ht, hu, Option.bind_some, hb] at h
      rw [hinj t u b hb h.symm]

end Infra
