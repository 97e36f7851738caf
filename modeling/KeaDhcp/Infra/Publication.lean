import Mathlib.Order.BooleanAlgebra.Set

/-!
# Records that are published for the entries of a table

Every entry of a table has records, each of which belongs to the key of the entry. Elsewhere a set
of records is kept by adding and removing the records of entries.
-/

namespace Infra

open Function

/-- Which records an entry has, and the key that a record belongs to. -/
structure Publication (α κ ρ : Type) where
  key : α → κ
  owner : ρ → κ
  records : α → Set ρ
  owned : ∀ {a : α} {r : ρ}, r ∈ records a → owner r = key a

namespace Publication

variable {α κ ρ : Type} [DecidableEq κ] {P : Publication α κ ρ}
  {table : κ → Option α} {zone : Set ρ}

variable (P) in
/-- The zone holds the records of the entries of the table. -/
def InSync (table : κ → Option α) (zone : Set ρ) : Prop :=
  ∀ r, r ∈ zone ↔ ∃ a, table (P.owner r) = some a ∧ r ∈ P.records a

variable {a : α} {r : ρ}

omit [DecidableEq κ] in
/-- What the zone holds for a key is what its entry has. -/
theorem InSync.mem_iff (h : P.InSync table zone) (ha : table (P.owner r) = some a) :
    r ∈ zone ↔ r ∈ P.records a := by
  rw [h r]
  constructor
  · rintro ⟨b, hb, hr⟩
    obtain rfl := Option.some.inj (ha.symm.trans hb)
    exact hr
  · exact fun hr => ⟨a, ha, hr⟩

omit [DecidableEq κ] in
theorem InSync.not_mem (h : P.InSync table zone) (hnone : table (P.owner r) = none) : r ∉ zone := by
  intro hr
  obtain ⟨a, ha, -⟩ := (h r).mp hr
  rw [hnone] at ha
  cases ha

omit [DecidableEq κ] in
/-- Only the entry of its key can have a record. -/
theorem not_mem_records (h : P.owner r ≠ P.key a) : r ∉ P.records a :=
  fun hr => h (P.owned hr)

section

variable (h : P.InSync table zone)

include h

theorem InSync.withdraw (ha : table (P.key a) = some a) :
    P.InSync (update table (P.key a) none) (zone \ P.records a) := by
  intro r
  by_cases hr : P.owner r = P.key a
  · have hmem : r ∈ zone ↔ r ∈ P.records a := h.mem_iff (by rw [hr, ha])
    simp [hr, hmem]
  · rw [update_of_ne hr, ← h r]
    simp [not_mem_records hr]

theorem InSync.announce (hfree : table (P.key a) = none) :
    P.InSync (update table (P.key a) (some a)) (zone ∪ P.records a) := by
  intro r
  by_cases hr : P.owner r = P.key a
  · have hmem : r ∉ zone := h.not_mem (by rw [hr, hfree])
    simp [hr, hmem]
  · rw [update_of_ne hr, ← h r]
    simp [not_mem_records hr]

theorem InSync.exchange {b : α} (hb : table (P.key a) = some b) (hsame : P.records b = P.records a) :
    P.InSync (update table (P.key a) (some a)) zone := by
  intro r
  by_cases hr : P.owner r = P.key a
  · have hmem : r ∈ zone ↔ r ∈ P.records b := h.mem_iff (by rw [hr, hb])
    simp [hr, hmem, hsame]
  · rw [update_of_ne hr, ← h r]

theorem InSync.announce_silent (hfree : table (P.key a) = none) (hsilent : P.records a = ∅) :
    P.InSync (update table (P.key a) (some a)) zone := by
  have hannounce := h.announce hfree
  rwa [hsilent, Set.union_empty] at hannounce

omit [DecidableEq κ] in
/-- Entries without records may be dropped together. -/
theorem InSync.restrict {table' : κ → Option α} (hsub : ∀ k a, table' k = some a → table k = some a)
    (hdrop : ∀ k a, table k = some a → table' k = some a ∨ P.records a = ∅) :
    P.InSync table' zone := by
  intro r
  rw [h r]
  constructor
  · rintro ⟨a, ha, hr⟩
    rcases hdrop _ a ha with hkeep | hsilent
    · exact ⟨a, hkeep, hr⟩
    · rw [hsilent] at hr
      exact hr.elim
  · rintro ⟨a, ha, hr⟩
    exact ⟨a, hsub _ a ha, hr⟩

end

end Publication

end Infra
