import Mathlib.Data.List.Nodup
import Mathlib.Data.List.TakeWhile

/-!
# Walking a list as a ring

The elements of a list carry pairwise distinct keys. A walk starts at one of them, steps to
the next one, starts over from the front at the end of the list, and stops before it reaches
its first element again.
-/

namespace Infra

open List

variable {α κ : Type}
variable {n : Nat} {a b start x : α} {front tail u v : List α}

/-- The elements that the loop which replaces `a` by `next a` goes through, in at most `n` steps. -/
def visit (next : α → Option α) : Nat → α → List α
  | 0, a => [a]
  | n + 1, a =>
    a :: match next a with
      | none => []
      | some b => visit next n b

variable {next : α → Option α}

theorem visit_eq_cons : visit next n a = a :: (visit next n a).tail := by
  cases n <;> rfl

variable {q : α → Prop}

theorem mem_visit (hq : ∀ a b, next a = some b → q b) (h : b ∈ visit next n a) : b = a ∨ q b := by
  induction n generalizing a with
  | zero => exact .inl (mem_singleton.mp h)
  | succ n ih =>
    rcases mem_cons.mp h with rfl | h
    · exact .inl rfl
    split at h
    · exact absurd h not_mem_nil
    rename_i c hc
    rcases ih h with rfl | hb
    · exact .inr (hq a b hc)
    · exact .inr hb

/-- Two loops agree when their steps agree on everything they go through. -/
theorem visit_congr {next' : α → Option α} (hnext : ∀ a, q a → next a = next' a)
    (hq : ∀ a b, q a → next' a = some b → q b) (ha : q a) : visit next n a = visit next' n a := by
  induction n generalizing a with
  | zero => rfl
  | succ n ih =>
    rw [visit, visit, hnext a ha]
    cases hb : next' a with
    | none => rfl
    | some b =>
      have hrest := ih (hq a b ha hb)
      simp only [hrest]

/-- The loop that replaces `a` by `next a` goes through these elements, and then it ends. -/
inductive Visits (next : α → Option α) : α → List α → Prop
  | done {a : α} (h : next a = none) : Visits next a []
  | step {a b : α} {l : List α} (h : next a = some b) (hrest : Visits next b l) :
      Visits next a (b :: l)

/-- A loop that has not used up its steps has ended. -/
theorem visits_of_length_le (h : (visit next n a).length ≤ n) :
    Visits next a (visit next n a).tail := by
  induction n generalizing a with
  | zero => simp [visit] at h
  | succ n ih =>
    rw [visit] at h ⊢
    cases hb : next a with
    | none => exact .done hb
    | some b =>
      rw [hb, length_cons, Nat.add_le_add_iff_right] at h
      have hrest := Visits.step hb (ih h)
      rwa [← visit_eq_cons] at hrest

variable [DecidableEq κ]

/-- The element behind the one with key `cur`; nothing when the circle closes at `first`. -/
def ringNext (key : α → κ) (l : List α) (first cur : κ) : Option α :=
  match l.dropWhile fun a => key a ≠ cur with
  | [] => none
  | _ :: rest => (rest ++ l).head?.filter fun a => key a ≠ first

/-- The elements visited from `a` on. -/
def ringWalk (key : α → κ) (l : List α) (first : κ) (a : α) : List α :=
  visit (fun b => ringNext key l first (key b)) l.length a

/-- The next element with property `p` before the circle closes. -/
def ringNextWhere (p : α → Bool) (key : α → κ) (l : List α) (first : κ) (a : α) : Option α :=
  (ringWalk key l first a).tail.find? p

/-- The elements visited from `a` on by a walk that passes over elements without property `p`. -/
def ringWalkWhere (p : α → Bool) (key : α → κ) (l : List α) (first : κ) (a : α) : List α :=
  visit (ringNextWhere p key l first) l.length a

variable {key : α → κ} {l : List α} {first : κ}

theorem ringNext_split {pre post : List α} (hnd : (l.map key).Nodup) (hl : l = pre ++ a :: post) :
    ringNext key l first (key a) = (post ++ l).head?.filter fun b => key b ≠ first := by
  have hpre : ∀ b ∈ pre, decide (key b ≠ key a) = true := by
    intro b hb
    rw [hl, map_append] at hnd
    have hdisj := (nodup_append.mp hnd).2.2
    simpa using hdisj (key b) (mem_map.mpr ⟨b, hb, rfl⟩) (key a) (by simp)
  have hdrop : l.dropWhile (fun b => key b ≠ key a) = a :: post := by
    rw [hl, dropWhile_append_of_pos hpre]
    simp
  simp only [ringNext, hdrop]

theorem ringNext_mem {cur : κ} (h : ringNext key l first cur = some b) : b ∈ l ∧ key b ≠ first := by
  unfold ringNext at h
  split at h
  · exact absurd h (by simp)
  rename_i c rest hdrop
  obtain ⟨hhead, hne⟩ := Option.filter_eq_some_iff.mp h
  have hmem : b ∈ rest ++ l := mem_of_mem_head? hhead
  refine ⟨?_, by simpa using hne⟩
  rcases mem_append.mp hmem with hb | hb
  · exact (dropWhile_sublist _).mem (hdrop ▸ mem_cons_of_mem c hb)
  · exact hb

theorem mem_tail_ringWalk (h : b ∈ (ringWalk key l first a).tail) : b ∈ l := by
  unfold ringWalk at h
  cases hl : l.length with
  | zero => simp [hl, visit] at h
  | succ n =>
    simp only [hl, visit] at h
    split at h
    · exact absurd h not_mem_nil
    rename_i c hc
    rcases mem_visit (fun _ _ hb => (ringNext_mem hb).1) h with rfl | hb
    · exact (ringNext_mem hc).1
    · exact hb

/-! ## The order of a walk -/

omit [DecidableEq κ] in
theorem length_of_rotation (hl : l = front ++ start :: tail)
    (hr : start :: tail ++ front = u ++ x :: v) : v.length < l.length := by
  have hlen := congrArg length hr
  rw [hl]
  simp only [length_append, length_cons] at hlen ⊢
  omega

section

variable (hnd : (l.map key).Nodup) (hl : l = front ++ start :: tail)
include hnd hl

omit [DecidableEq κ] in
theorem key_ne_of_nodup : ∀ y ∈ tail ++ front, key y ≠ key start := by
  have hperm : l.Perm (start :: (tail ++ front)) := by
    rw [hl]
    exact perm_append_comm
  have hnd' := (hperm.map key).nodup_iff.mp hnd
  rw [map_cons, nodup_cons] at hnd'
  intro y hy heq
  exact hnd'.1 (mem_map.mpr ⟨y, hy, heq⟩)

/-- Along the rotation of the list that begins at `start`, each element leads to the next. -/
theorem ringNext_rotation (hr : start :: tail ++ front = u ++ x :: v) :
    ringNext key l (key start) (key x) = v.head? := by
  have hsuffix : ∀ y ∈ v, key y ≠ key start := by
    intro y hy
    refine key_ne_of_nodup hnd hl y ?_
    cases u with
    | nil =>
      obtain ⟨-, hv⟩ : start = x ∧ tail ++ front = v := by simpa using hr
      rwa [hv]
    | cons c u =>
      obtain ⟨-, hv⟩ : start = c ∧ tail ++ front = u ++ x :: v := by simpa using hr
      rw [hv]
      simp [hy]
  have hnext : ∀ pre w, l = pre ++ x :: w → (w ++ l).head? = (v ++ [start]).head? →
      ringNext key l (key start) (key x) = v.head? := by
    intro pre w hsplit hhead
    rw [ringNext_split hnd hsplit, hhead]
    cases v with
    | nil => simp
    | cons y v => simpa using hsuffix y (by simp)
  rcases append_eq_append_iff.mp hr with ⟨a, -, hfront⟩ | ⟨c, htail, hv⟩
  · exact hnext a (v ++ start :: tail) (by simp [hl, hfront]) (by cases v <;> simp)
  cases c with
  | nil =>
    have hfront : front = x :: v := by simpa using hv.symm
    exact hnext [] (v ++ start :: tail) (by simp [hl, hfront]) (by cases v <;> simp)
  | cons y c =>
    obtain ⟨rfl, rfl⟩ : x = y ∧ v = c ++ front := by simpa using hv
    refine hnext (front ++ u) c (by simp [hl, htail]) ?_
    cases c with
    | nil => cases front <;> simp [hl]
    | cons z c => simp

theorem visit_rotation (hr : start :: tail ++ front = u ++ x :: v) (hn : v.length ≤ n) :
    visit (fun b => ringNext key l (key start) (key b)) n x = x :: v := by
  induction v generalizing n u x with
  | nil =>
    cases n with
    | zero => rfl
    | succ n => simp [visit, ringNext_rotation hnd hl hr]
  | cons y v ih =>
    cases n with
    | zero => simp at hn
    | succ n =>
      have hrest := ih (n := n) (u := u ++ [x]) (x := y) (by simpa using hr) (by simpa using hn)
      simp [visit, ringNext_rotation hnd hl hr, hrest]

theorem ringWalk_rotation (hr : start :: tail ++ front = u ++ x :: v) :
    ringWalk key l (key start) x = x :: v :=
  visit_rotation hnd hl hr (length_of_rotation hl hr).le

/-- **A full walk.** It visits the rest of the list, then the part in front of its start. -/
theorem ringWalk_split : ringWalk key l (key start) start = start :: (tail ++ front) :=
  ringWalk_rotation (u := []) hnd hl rfl

end

theorem ringWalk_perm (hnd : (l.map key).Nodup) (hmem : start ∈ l) :
    (ringWalk key l (key start) start).Perm l := by
  obtain ⟨front, tail, hl⟩ := append_of_mem hmem
  have hcomm : ((start :: tail) ++ front).Perm (front ++ start :: tail) := perm_append_comm
  rw [ringWalk_split hnd hl, hl]
  exact hcomm

theorem length_ringWalk_le (hnd : (l.map key).Nodup) (hmem : start ∈ l) (hx : x ∈ l) :
    (ringWalk key l (key start) x).length ≤ l.length := by
  obtain ⟨front, tail, hl⟩ := append_of_mem hmem
  have hx' : x ∈ start :: tail ++ front := perm_append_comm.mem_iff.mp (hl ▸ hx)
  obtain ⟨u, v, hr⟩ := append_of_mem hx'
  rw [ringWalk_rotation hnd hl hr]
  exact length_of_rotation hl hr

/-! ## Passing over elements -/

variable {p : α → Bool}

theorem visitWhere_rotation (hnd : (l.map key).Nodup) (hl : l = front ++ start :: tail)
    (hr : start :: tail ++ front = u ++ x :: v) (hn : v.length ≤ n) :
    visit (ringNextWhere p key l (key start)) n x = x :: v.filter p := by
  induction n generalizing u v x with
  | zero =>
    have : v = [] := length_eq_zero_iff.mp (Nat.le_zero.mp hn)
    simp [visit, this]
  | succ n ih =>
    have hnext : ringNextWhere p key l (key start) x = v.find? p := by
      simp [ringNextWhere, ringWalk_rotation hnd hl hr]
    rw [visit, hnext]
    cases hf : v.find? p with
    | none =>
      have hnone : v.filter p = [] := by
        rw [filter_eq_nil_iff]
        exact find?_eq_none.mp hf
      simp [hnone]
    | some y =>
      obtain ⟨hy, w, v', hv, hw⟩ := find?_eq_some_iff_append.mp hf
      have hw' : w.filter p = [] := by
        simpa using hw
      have hlen : v'.length ≤ n := by
        have := congrArg length hv
        simp only [length_append, length_cons] at this
        omega
      have hrest := ih (u := u ++ x :: w) (v := v') (x := y) (by simp [hr, hv]) hlen
      simp [hv, hw', hy, hrest]

theorem ringWalkWhere_eq_filter (hnd : (l.map key).Nodup) (hmem : start ∈ l) :
    ringWalkWhere p key l (key start) start =
      start :: (ringWalk key l (key start) start).tail.filter p := by
  obtain ⟨front, tail, hl⟩ := append_of_mem hmem
  rw [ringWalk_split hnd hl]
  exact visitWhere_rotation hnd hl (u := []) rfl (length_of_rotation (u := []) hl rfl).le

end Infra
