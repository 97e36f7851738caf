/-!
# Binary search for the end of a part of a list

The algorithm of `std::upper_bound`: the position of the first element behind a boundary, in a
list where all elements behind it come after all others.
-/

namespace Infra

open List

variable {α : Type}

/-- The search in the `len` elements from `first` on. Every round makes `len` smaller. -/
def upperBoundIn (behind : α → Bool) (l : List α) : (fuel first len : Nat) → Nat
  | 0, first, _ => first
  | fuel + 1, first, len =>
    if len = 0 then first
    else
      let half := len / 2
      match l[first + half]? with
      | none => first
      | some x =>
        if behind x then upperBoundIn behind l fuel first half
        else upperBoundIn behind l fuel (first + half + 1) (len - half - 1)

/-- The position of the first element that is behind the boundary. -/
def upperBound (behind : α → Bool) (l : List α) : Nat := upperBoundIn behind l l.length 0 l.length

section Boundary

variable {behind : α → Bool} {as bs : List α}
  (has : ∀ a ∈ as, behind a = false) (hbs : ∀ b ∈ bs, behind b = true)
include has hbs

/-- The boundary stays between the ends of the part that is searched. -/
theorem upperBoundIn_append {fuel first len : Nat} (hfuel : len ≤ fuel) (hfirst : first ≤ as.length)
    (hlen : as.length ≤ first + len) (hend : first + len ≤ (as ++ bs).length) :
    upperBoundIn behind (as ++ bs) fuel first len = as.length := by
  induction fuel generalizing first len with
  | zero =>
    rw [upperBoundIn]
    omega
  | succ fuel ih =>
    rw [upperBoundIn]
    by_cases hzero : len = 0
    · rw [if_pos hzero]
      omega
    have hmid : first + len / 2 < (as ++ bs).length := by omega
    rw [if_neg hzero]
    dsimp only
    rw [getElem?_eq_getElem hmid]
    dsimp only
    by_cases hside : first + len / 2 < as.length
    · have hmem : (as ++ bs)[first + len / 2] ∈ as := by
        rw [getElem_append_left hside]
        exact getElem_mem hside
      rw [has _ hmem]
      exact ih (by omega) (by omega) (by omega) (by omega)
    · have hmem : (as ++ bs)[first + len / 2] ∈ bs := by
        rw [getElem_append_right (by omega)]
        exact getElem_mem _
      rw [hbs _ hmem]
      exact ih (by omega) hfirst (by omega) (by omega)

theorem upperBound_append : upperBound behind (as ++ bs) = as.length :=
  upperBoundIn_append has hbs (Nat.le_refl _) (Nat.zero_le _)
    (by rw [length_append]; omega) (by omega)

/-- The element at the position that is found. -/
theorem at_upperBound : (as ++ bs)[upperBound behind (as ++ bs)]? = bs.head? := by
  rw [upperBound_append has hbs, getElem?_append_right (Nat.le_refl _), Nat.sub_self,
    head?_eq_getElem?]

/-- The element before the position that is found. -/
theorem before_upperBound (hne : upperBound behind (as ++ bs) ≠ 0) :
    (as ++ bs)[upperBound behind (as ++ bs) - 1]? = as.getLast? := by
  rw [upperBound_append has hbs] at hne ⊢
  rw [getElem?_append_left (by omega), getLast?_eq_getElem?]

end Boundary

end Infra
