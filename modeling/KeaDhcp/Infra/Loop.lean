import KeaDhcp.Infra.Exec

/-!
# Loops

A `while` loop whose body may go on with a new state, return from the function or throw, and whose
rounds make a measure smaller.
-/

namespace Infra

variable {ε σ ρ : Type}

/-- A loop with its condition, its body and the measure by which it ends. -/
structure Loop (ε σ ρ : Type) where
  cond : σ → Bool
  /-- The next state, or the value that is returned. -/
  body : σ → Except ε (σ ⊕ ρ)
  measure : σ → Nat
  smaller : ∀ s s', cond s → body s = .ok (.inl s') → measure s' < measure s

namespace Loop

variable {L : Loop ε σ ρ} {s s' : σ}

/-- A loop over the positions before `length`, whose body moves on. -/
def scan (length : Nat) (offset : σ → Nat) (body : σ → Except ε (σ ⊕ ρ))
    (moves : ∀ s s', body s = .ok (.inl s') → offset s < offset s') : Loop ε σ ρ where
  cond := fun s => offset s < length
  body := body
  measure := fun s => length - offset s
  smaller := by
    intro s s' hcond hbody
    have hmove := moves s s' hbody
    have hlt : offset s < length := of_decide_eq_true hcond
    omega

/-- Runs the loop. The left value is the state in which the condition failed. -/
def run (L : Loop ε σ ρ) (s : σ) : Except ε (σ ⊕ ρ) :=
  if _ : L.cond s then
    match _ : L.body s with
    | .ok (.inl s') => L.run s'
    | .ok (.inr r) => .ok (.inr r)
    | .error e => .error e
  else .ok (.inl s)
termination_by L.measure s
decreasing_by exact L.smaller s s' ‹_› ‹_›

theorem run_next (hcond : L.cond s) (h : L.body s = .ok (.inl s')) : L.run s = L.run s' := by
  rw [run, dif_pos hcond]
  split <;> simp_all

theorem run_return {r : ρ} (hcond : L.cond s) (h : L.body s = .ok (.inr r)) :
    L.run s = .ok (.inr r) := by
  rw [run, dif_pos hcond]
  split <;> simp_all

theorem run_throw {e : ε} (hcond : L.cond s) (h : L.body s = .error e) : L.run s = .error e := by
  rw [run, dif_pos hcond]
  split <;> simp_all

theorem run_exit (hcond : L.cond s = false) : L.run s = .ok (.inl s) := by
  rw [run, dif_neg (by simp [hcond])]

/-- The rule for loops: `I` holds before each round, and a round keeps it or ends the loop. -/
theorem run_ends {I : σ → Prop} {P : σ ⊕ ρ → Prop} {E : ε → Prop}
    (hbody : ∀ s, I s → L.cond s → Ends (Sum.elim I fun r => P (.inr r)) E (L.body s))
    (hexit : ∀ s, I s → L.cond s = false → P (.inl s)) (h : I s) : Ends P E (L.run s) := by
  induction s using Loop.run.induct L with
  | case1 s hcond s' heq ih =>
    have hround := hbody s h hcond
    rw [heq] at hround
    rw [run_next hcond heq]
    exact ih hround
  | case2 s hcond r heq =>
    have hround := hbody s h hcond
    rw [heq] at hround
    rw [run_return hcond heq]
    exact hround
  | case3 s hcond e heq =>
    have hround := hbody s h hcond
    rw [heq] at hround
    rw [run_throw hcond heq]
    exact hround
  | case4 s hcond =>
    have hfalse : L.cond s = false := by simpa using hcond
    rw [run_exit hfalse]
    exact hexit s h hfalse

end Loop

end Infra
