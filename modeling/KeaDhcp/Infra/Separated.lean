import Mathlib.Data.List.TakeWhile

/-!
# Values between separators

Lists that are joined with a separator and taken apart again at it. Values that contain the
separator come back in parts.
-/

namespace Infra

open List

variable {α : Type} [DecidableEq α] {x : α}

/-- The part of a value before the first separator. -/
def upTo (x : α) (v : List α) : List α := v.takeWhile (· ≠ x)

variable {v : List α} {vs : List (List α)}

theorem upTo_of_not_mem (h : x ∉ v) : upTo x v = v := by
  refine takeWhile_eq_self_iff.mpr fun a ha => ?_
  simp only [decide_eq_true_eq]
  rintro rfl
  exact h ha

theorem not_mem_upTo (x : α) (v : List α) : x ∉ upTo x v := by
  intro h
  simpa using mem_takeWhile_imp h

/-- A value with the separator in it, split at the first one. -/
theorem exists_eq_upTo (h : x ∈ v) : ∃ rest, v = upTo x v ++ x :: rest := by
  induction v with
  | nil => cases h
  | cons a v ih =>
    by_cases ha : a = x
    · exact ⟨v, by simp [upTo, ha]⟩
    obtain ⟨rest, hrest⟩ := ih ((mem_cons.mp h).resolve_left (Ne.symm ha))
    refine ⟨rest, ?_⟩
    have hcons : upTo x (a :: v) = a :: upTo x v := by simp [upTo, ha]
    rw [hcons, cons_append, ← hrest]

theorem head?_splitOn : (v.splitOn x).head? = some (upTo x v) := by
  by_cases h : x ∈ v
  · obtain ⟨rest, hrest⟩ := exists_eq_upTo h
    have hsplit : v.splitOn x = upTo x v :: rest.splitOn x := by
      rw [← singleton_append, ← splitOn_eq_singleton (not_mem_upTo x v),
        ← splitOn_append_cons_self, ← hrest]
    rw [hsplit, head?_cons]
  · rw [splitOn_eq_singleton h, upTo_of_not_mem h]
    rfl

/-- Each value comes back in its parts. -/
theorem splitOn_intercalate_eq_flatMap (h : vs ≠ []) :
    ([x].intercalate vs).splitOn x = vs.flatMap (splitOn x) := by
  induction vs with
  | nil => exact absurd rfl h
  | cons v vs ih =>
    cases vs with
    | nil => simp
    | cons w vs =>
      rw [intercalate_cons_cons, append_assoc, singleton_append,
        splitOn_append_cons_self, ih (cons_ne_nil _ _)]
      rfl

theorem flatMap_splitOn (h : ∀ v ∈ vs, x ∉ v) : vs.flatMap (splitOn x) = vs := by
  induction vs with
  | nil => rfl
  | cons v vs ih =>
    obtain ⟨hv, hvs⟩ := forall_mem_cons.mp h
    rw [flatMap_cons, splitOn_eq_singleton hv, ih hvs]
    rfl

/-- Behind values without the separator, a value comes back up to its first one. -/
theorem getElem?_flatMap_splitOn {i : Nat} (hv : vs[i]? = some v) (h : ∀ u ∈ vs.take i, x ∉ u) :
    (vs.flatMap (splitOn x))[i]? = some (upTo x v) := by
  obtain ⟨hi, rfl⟩ := List.getElem?_eq_some_iff.mp hv
  have hlength : (vs.take i).length = i := List.length_take_of_le (Nat.le_of_lt hi)
  have hvs : vs = vs.take i ++ vs[i] :: vs.drop (i + 1) := by
    rw [← List.drop_eq_getElem_cons hi, List.take_append_drop]
  have hflat : vs.flatMap (splitOn x) =
      vs.take i ++ (vs[i].splitOn x ++ (vs.drop (i + 1)).flatMap (splitOn x)) := by
    conv => lhs; rw [hvs, flatMap_append, flatMap_splitOn h, flatMap_cons]
  rw [hflat, getElem?_append_right (Nat.le_of_eq hlength), hlength, Nat.sub_self,
    ← head?_eq_getElem?]
  rw [head?_append, head?_splitOn]
  rfl

end Infra
