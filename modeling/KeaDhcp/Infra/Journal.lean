import Mathlib.Data.List.Basic

/-!
# Journals

A journal is a list of rows, each for one key. A live row sets the value of its key and any other
row removes it, so that the last row of a key decides.
-/

namespace Infra

variable {α κ : Type}

/-- How the rows of a journal are read. -/
structure Journal (α κ : Type) where
  key : α → κ
  live : α → Bool

namespace Journal

variable (J : Journal α κ) [DecidableEq κ] {m m' : κ → Option α} {rows : List α} {r : α} {k : κ}

/-- What one row does to the values. -/
def enter (m : κ → Option α) (row : α) : κ → Option α :=
  Function.update m (J.key row) (if J.live row then some row else none)

/-- The values after a journal that starts with the values `m`. -/
def meaning (m : κ → Option α) (rows : List α) : κ → Option α := rows.foldl J.enter m

/-- No key has a value. -/
def blank : κ → Option α := fun _ => none

@[simp] theorem meaning_nil : J.meaning m [] = m := rfl

@[simp] theorem meaning_cons {row : α} :
    J.meaning m (row :: rows) = J.meaning (J.enter m row) rows := rfl

theorem meaning_append (m : κ → Option α) (xs ys : List α) :
    J.meaning m (xs ++ ys) = J.meaning (J.meaning m xs) ys :=
  List.foldl_append

theorem meaning_concat {xs : List α} {row : α} :
    J.meaning m (xs ++ [row]) = J.enter (J.meaning m xs) row :=
  J.meaning_append m xs [row]

theorem enter_of_ne (h : k ≠ J.key r) : J.enter m r k = m k := Function.update_of_ne h _ _

theorem enter_self : J.enter m r (J.key r) = if J.live r then some r else none :=
  Function.update_self ..

/-- A value has its key, and its row was live. -/
def Proper (m : κ → Option α) : Prop := ∀ k r, m k = some r → J.key r = k ∧ J.live r

variable {J}

theorem Proper.enter (h : J.Proper m) (row : α) : J.Proper (J.enter m row) := by
  intro k r hr
  by_cases hk : k = J.key row
  · rw [hk, J.enter_self] at hr
    split at hr
    · rename_i hlive
      cases hr
      exact ⟨hk.symm, hlive⟩
    · cases hr
  · rw [J.enter_of_ne hk] at hr
    exact h k r hr

theorem Proper.meaning (h : J.Proper m) (rows : List α) : J.Proper (J.meaning m rows) := by
  induction rows generalizing m with
  | nil => exact h
  | cons row rows ih => exact ih (h.enter row)

omit [DecidableEq κ] in
theorem proper_blank : J.Proper blank := by
  intro k r hr
  cases hr

/-- Rows that are values of `m'` set their keys to these values. -/
theorem meaning_of_sound (hsound : ∀ r ∈ rows, J.live r ∧ m' (J.key r) = some r) :
    J.meaning m rows k = if ∃ r ∈ rows, J.key r = k then m' k else m k := by
  induction rows generalizing m with
  | nil => simp
  | cons row rows ih =>
    obtain ⟨⟨hlive, hvalue⟩, hrows⟩ := List.forall_mem_cons.mp hsound
    rw [meaning_cons, ih hrows]
    by_cases hlater : ∃ r ∈ rows, J.key r = k
    · rw [if_pos hlater, if_pos]
      exact hlater.imp fun r hr => ⟨List.mem_cons_of_mem row hr.1, hr.2⟩
    rw [if_neg hlater]
    by_cases hk : J.key row = k
    · rw [if_pos ⟨row, List.mem_cons_self, hk⟩, ← hk, J.enter_self, if_pos hlive, hvalue]
    rw [if_neg, J.enter_of_ne (Ne.symm hk)]
    rintro ⟨r, hr, hrk⟩
    rcases List.mem_cons.mp hr with rfl | hr
    · exact hk hrk
    · exact hlater ⟨r, hr, hrk⟩

/-- **Compaction.** Rows that are values of `m`, and all of them, mean `m`. -/
theorem meaning_eq_of_rows (hproper : J.Proper m) (hsound : ∀ r ∈ rows, m (J.key r) = some r)
    (hcomplete : ∀ k r, m k = some r → r ∈ rows) : J.meaning blank rows = m := by
  have hrows : ∀ r ∈ rows, J.live r ∧ m (J.key r) = some r := fun r hr =>
    ⟨(hproper _ r (hsound r hr)).2, hsound r hr⟩
  funext k
  rw [meaning_of_sound hrows]
  split
  · rfl
  rename_i hnone
  cases hm : m k with
  | none => rfl
  | some r => exact absurd ⟨r, hcomplete k r hm, (hproper k r hm).1⟩ hnone

end Journal

end Infra
