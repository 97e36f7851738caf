/-!
# Sweeps over a list that begin somewhere inside

A queue that is filled anew from a list when it is empty. The elements that a number of steps
take are known from the queue and the list alone.
-/

namespace Infra

open List

variable {α : Type}

/-- The elements that `n` steps take from the queue, which is filled from `all` when it is empty. -/
def sweep (all : List α) : List α → Nat → List α
  | _, 0 => []
  | x :: queue, n + 1 => x :: sweep all queue n
  | [], n + 1 =>
    match all with
    | [] => []
    | x :: xs => x :: sweep all xs n

variable {n : Nat} {all queue : List α}

/-- One step takes the head of the queue, which is filled first if it is empty. -/
theorem sweep_succ [DecidableEq α] {queue' : List α} {x : α}
    (h : x :: queue' = if queue = [] then all else queue) :
    sweep all queue (n + 1) = x :: sweep all queue' n := by
  cases queue with
  | nil =>
    rw [if_pos rfl] at h
    rw [← h, sweep]
  | cons y ys =>
    rw [if_neg (cons_ne_nil y ys), cons.injEq] at h
    rw [sweep, h.1, h.2]

theorem sweep_queue (hn : n ≤ queue.length) : sweep all queue n = queue.take n := by
  induction queue generalizing n with
  | nil =>
    obtain rfl : n = 0 := by simpa using hn
    rfl
  | cons x queue ih =>
    cases n with
    | zero => rfl
    | succ n =>
      rw [length_cons] at hn
      rw [sweep, ih (by omega), take_succ_cons]

/-- Up to one round behind the queue, the steps take the queue and then the list. -/
theorem sweep_eq_take (hn : n ≤ queue.length + all.length) :
    sweep all queue n = (queue ++ all).take n := by
  induction queue generalizing n with
  | nil =>
    cases n with
    | zero => rfl
    | succ n =>
      cases all with
      | nil => simp at hn
      | cons x xs =>
        rw [length_nil, length_cons] at hn
        rw [sweep, sweep_queue (by omega), nil_append, take_succ_cons]
  | cons x queue ih =>
    cases n with
    | zero => rfl
    | succ n =>
      rw [length_cons] at hn
      rw [sweep, ih (by omega), cons_append, take_succ_cons]

end Infra
