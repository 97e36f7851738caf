import Mathlib.Order.Lattice

/-!
# Maps as sorted lists

A map over a linear order as the list of its entries with ascending keys, which is the order of
iteration.
-/

namespace Infra

open List

instance uint8LinearOrder : LinearOrder UInt8 where
  le_refl _ := UInt8.le_refl _
  le_trans _ _ _ := UInt8.le_trans
  le_antisymm _ _ := UInt8.le_antisymm
  le_total := UInt8.le_total
  lt_iff_le_not_ge a b := by
    rw [UInt8.lt_iff_toNat_lt, UInt8.le_iff_toNat_le, UInt8.le_iff_toNat_le]
    omega
  toDecidableLE := inferInstance
  toDecidableEq := inferInstance
  toDecidableLT := inferInstance

instance uint8LawfulBEq : LawfulBEq UInt8 := inferInstance

variable {κ β : Type} [LinearOrder κ]

/-- The entries with ascending keys. -/
def SortedKeys (entries : List (κ × β)) : Prop := entries.Pairwise (·.1 < ·.1)

def insertEntry (key : κ) (value : β) : List (κ × β) → List (κ × β)
  | [] => [(key, value)]
  | entry :: entries =>
    if key < entry.1 then (key, value) :: entry :: entries
    else if key = entry.1 then (key, value) :: entries
    else entry :: insertEntry key value entries

variable {entries : List (κ × β)} {key : κ} {value : β}

theorem mem_insertEntry {entry : κ × β} (h : entry ∈ insertEntry key value entries) :
    entry = (key, value) ∨ entry ∈ entries := by
  induction entries with
  | nil => exact .inl (mem_singleton.mp h)
  | cons first entries ih =>
    unfold insertEntry at h
    split at h
    · exact mem_cons.mp h
    split at h
    · rcases mem_cons.mp h with heq | hmem
      · exact .inl heq
      · exact .inr (mem_cons_of_mem _ hmem)
    · rcases mem_cons.mp h with rfl | hmem
      · exact .inr mem_cons_self
      · exact (ih hmem).imp_right (mem_cons_of_mem _)

theorem lookup_insertEntry [BEq κ] [LawfulBEq κ] :
    (insertEntry key value entries).lookup key = some value := by
  induction entries with
  | nil => simp [insertEntry]
  | cons first entries ih =>
    unfold insertEntry
    split
    · exact lookup_cons_self
    split
    · exact lookup_cons_self
    · next hne =>
      have hkey : (key == first.1) = false := by simpa using hne
      rw [lookup_cons, hkey]
      exact ih

theorem SortedKeys.insertEntry (h : SortedKeys entries) (key : κ) (value : β) :
    SortedKeys (insertEntry key value entries) := by
  induction entries with
  | nil => exact pairwise_singleton _ _
  | cons first entries ih =>
    obtain ⟨hfirst, hentries⟩ := pairwise_cons.mp h
    unfold Infra.insertEntry
    split
    · next hlt =>
      refine pairwise_cons.mpr ⟨fun entry hmem => ?_, h⟩
      rcases mem_cons.mp hmem with rfl | hmem
      · exact hlt
      · exact lt_trans hlt (hfirst entry hmem)
    · split
      · next heq =>
        exact pairwise_cons.mpr ⟨fun entry hmem => heq ▸ hfirst entry hmem, hentries⟩
      · next hnlt hne =>
        refine pairwise_cons.mpr ⟨fun entry hmem => ?_, ih hentries⟩
        rcases mem_insertEntry hmem with rfl | hmem
        · exact lt_of_le_of_ne (le_of_not_gt hnlt) (Ne.symm hne)
        · exact hfirst entry hmem

/-- A new key adds an entry. -/
theorem insertEntry_perm (h : ∀ entry ∈ entries, entry.1 ≠ key) :
    (insertEntry key value entries).Perm ((key, value) :: entries) := by
  induction entries with
  | nil => exact List.Perm.refl _
  | cons first entries ih =>
    rw [forall_mem_cons] at h
    unfold insertEntry
    split
    · exact List.Perm.refl _
    · rw [if_neg (Ne.symm h.1)]
      exact ((ih h.2).cons first).trans (List.Perm.swap _ _ _)

def insertEntries (new entries : List (κ × β)) : List (κ × β) :=
  new.foldl (fun entries entry => insertEntry entry.1 entry.2 entries) entries

theorem SortedKeys.insertEntries (h : SortedKeys entries) (new : List (κ × β)) :
    SortedKeys (insertEntries new entries) := by
  induction new generalizing entries with
  | nil => exact h
  | cons entry new ih => exact ih (h.insertEntry entry.1 entry.2)

theorem insertEntries_perm {new : List (κ × β)} (h : ((new ++ entries).map (·.1)).Nodup) :
    (insertEntries new entries).Perm (new ++ entries) := by
  induction new generalizing entries with
  | nil => exact List.Perm.refl _
  | cons entry new ih =>
    have hperm : (insertEntry entry.1 entry.2 entries).Perm (entry :: entries) := by
      refine insertEntry_perm fun other hother heq => ?_
      rw [cons_append, map_cons, nodup_cons] at h
      exact h.1 (heq ▸ mem_map_of_mem (mem_append_right _ hother))
    have hmiddle : (new ++ insertEntry entry.1 entry.2 entries).Perm (entry :: new ++ entries) :=
      (hperm.append_left new).trans perm_middle
    refine (ih ((hmiddle.map _).nodup_iff.mpr h)).trans hmiddle

/-- The entries of a sorted map, in any order, make up the map. -/
theorem insertEntries_eq {new : List (κ × β)} (h : SortedKeys entries) (hperm : new.Perm entries) :
    insertEntries new [] = entries := by
  have hnodup : (entries.map (·.1)).Nodup :=
    pairwise_map.mpr (List.Pairwise.imp (fun hlt => ne_of_lt hlt) h)
  have hnew : ((new ++ ([] : List (κ × β))).map (·.1)).Nodup := by
    rw [append_nil]
    exact ((hperm.map _).nodup_iff).mpr hnodup
  have hmade := insertEntries_perm hnew
  rw [append_nil] at hmade
  have hsorted : SortedKeys (insertEntries new []) :=
    SortedKeys.insertEntries List.Pairwise.nil new
  exact List.Perm.eq_of_pairwise (fun _ _ _ _ hab hba => absurd (lt_trans hab hba) (lt_irrefl _))
    hsorted h (hmade.trans hperm)

end Infra
