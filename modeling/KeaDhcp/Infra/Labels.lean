import Mathlib.Data.List.Basic

/-!
# Strings with their lengths in front

A list of labels is written as bytes, each label after one byte with its length.
-/

namespace Infra

open List UInt8

abbrev Label := List UInt8

def encodeLabels (labels : List Label) : List UInt8 :=
  labels.flatMap fun label => ofNat label.length :: label

/-- The positions of the length bytes when the first is at `start`. -/
def labelOffsets (start : Nat) : List Label → List Nat
  | [] => []
  | label :: labels => start :: labelOffsets (start + label.length + 1) labels

@[simp] theorem encodeLabels_nil : encodeLabels [] = [] := rfl

variable {labels : List Label}

@[simp] theorem encodeLabels_cons {label : Label} :
    encodeLabels (label :: labels) = ofNat label.length :: label ++ encodeLabels labels := rfl

variable {labels' : List Label}

@[simp] theorem encodeLabels_append :
    encodeLabels (labels ++ labels') = encodeLabels labels ++ encodeLabels labels' :=
  flatMap_append

variable (start : Nat)

@[simp] theorem length_labelOffsets : (labelOffsets start labels).length = labels.length := by
  induction labels generalizing start with
  | nil => rfl
  | cons label labels ih => simp [labelOffsets, ih]

theorem labelOffsets_append (labels labels' : List Label) :
    labelOffsets start (labels ++ labels')
      = labelOffsets start labels ++ labelOffsets (start + (encodeLabels labels).length) labels' := by
  induction labels generalizing start with
  | nil => rfl
  | cons label labels ih =>
    have hstart : start + label.length + 1 + (encodeLabels labels).length
        = start + (encodeLabels (label :: labels)).length := by
      simp only [encodeLabels_cons, length_append, length_cons]
      omega
    rw [cons_append, labelOffsets, ih, hstart]
    rfl

theorem labelOffsets_getElem {i : Nat} (h : i < labels.length) :
    (labelOffsets start labels)[i]? = some (start + (encodeLabels (labels.take i)).length) := by
  induction labels generalizing start i with
  | nil => exact absurd h (Nat.not_lt_zero i)
  | cons label labels ih =>
    cases i with
    | zero => rfl
    | succ i =>
      have hnext := ih (start + label.length + 1) (Nat.lt_of_succ_lt_succ h)
      simp only [labelOffsets, getElem?_cons_succ, take_succ_cons, encodeLabels_cons,
        length_append, length_cons, hnext]
      congr 1
      omega

/-- Labels can be told apart from their bytes if an empty label follows. -/
theorem encodeLabels_injective (h : ∀ label ∈ labels, label ≠ [] ∧ label.length < 256)
    (h' : ∀ label ∈ labels', label ≠ [] ∧ label.length < 256)
    (heq : encodeLabels labels ++ [0] = encodeLabels labels' ++ [0]) : labels = labels' := by
  have hbyte {label : Label} (hl : label ≠ [] ∧ label.length < 256) :
      (ofNat label.length).toNat = label.length ∧ ofNat label.length ≠ 0 := by
    have hnat : (ofNat label.length).toNat = label.length := toNat_ofNat_of_lt' hl.2
    refine ⟨hnat, fun hzero => hl.1 ?_⟩
    rw [hzero] at hnat
    exact length_eq_zero_iff.mp hnat.symm
  induction labels generalizing labels' with
  | nil =>
    cases labels' with
    | nil => rfl
    | cons label' labels' =>
      have hne := (hbyte (h' label' mem_cons_self)).2
      simp only [encodeLabels_nil, encodeLabels_cons, nil_append, cons_append,
        cons.injEq] at heq
      exact absurd heq.1.symm hne
  | cons label labels ih =>
    have hl := hbyte (h label mem_cons_self)
    cases labels' with
    | nil =>
      simp only [encodeLabels_nil, encodeLabels_cons, nil_append, cons_append,
        cons.injEq] at heq
      exact absurd heq.1 hl.2
    | cons label' labels' =>
      have hl' := hbyte (h' label' mem_cons_self)
      simp only [encodeLabels_cons, cons_append, append_assoc, cons.injEq] at heq
      have hlength : label.length = label'.length := by rw [← hl.1, ← hl'.1, heq.1]
      obtain ⟨hlabel, hrest⟩ := append_inj heq.2 hlength
      rw [hlabel, ih (fun l hm => h l (mem_cons_of_mem _ hm))
        (fun l hm => h' l (mem_cons_of_mem _ hm)) hrest]

/-- Labels that are not empty take two bytes at least. -/
theorem two_mul_length_le (h : ∀ label ∈ labels, label ≠ []) :
    2 * labels.length ≤ (encodeLabels labels).length := by
  induction labels with
  | nil => exact Nat.le_refl 0
  | cons label labels ih =>
    have hrest := ih fun l hl => h l (mem_cons_of_mem _ hl)
    have hpos := length_pos_iff.mpr (h label mem_cons_self)
    simp only [encodeLabels_cons, length_append, length_cons]
    omega

end Infra
