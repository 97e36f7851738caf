import KeaDhcp.Infra.MultiIndex

/-!
# Counters kept beside a container

Counters that are meant to equal sums over the elements of a container, while both are updated
separately. `w a k` is what the element `a` counts for in the counter `k`.
-/

namespace Infra

open MultiIndex

variable {α κ ι π : Type} {S : IndexSpec α κ ι} {tracked : π → Prop} {w : α → π → Int}
  {d : MultiIndex S} {c c' : π → Int}

/-- Every tracked counter is the sum of what the elements count for. -/
def Balanced (tracked : π → Prop) (w : α → π → Int) (d : MultiIndex S) (c : π → Int) : Prop :=
  ∀ k, tracked k → c k = d.total fun a => w a k

theorem Balanced.empty : Balanced tracked w (empty : MultiIndex S) fun _ => 0 := by
  intro k _
  rw [total_empty]

section

variable (h : Balanced tracked w d c)

include h

/-- A counter whose weights are zero or one counts elements. -/
theorem Balanced.count {k : π} (hk : tracked k) {p : α → Bool}
    (hw : ∀ a, w a k = if p a then 1 else 0) : c k = d.count p := by
  rw [h k hk, ← total_indicator]
  exact congrArg d.total (funext hw)

theorem Balanced.filter {q : α → Bool} (hq : ∀ a ∈ d, ¬q a → ∀ k, tracked k → w a k = 0) :
    Balanced tracked w (d.filter q) c := by
  intro k hk
  rw [total_filter fun a ha hqa => hq a ha hqa k hk]
  exact h k hk

variable [DecidableEq κ]

theorem Balanced.insert {x : α} (hfree : d.find (S.key x) = none)
    (hc : ∀ k, tracked k → c' k = c k + w x k) : Balanced tracked w (d.insert x) c' := by
  intro k hk
  rw [hc k hk, h k hk, total_insert hfree]

theorem Balanced.erase {j : κ} {a : α} (hfind : d.find j = some a)
    (hc : ∀ k, tracked k → c' k = c k - w a k) : Balanced tracked w (d.erase j) c' := by
  intro k hk
  rw [hc k hk, h k hk, total_erase hfind]

theorem Balanced.replace {x a : α} (hfind : d.find (S.key x) = some a)
    (hc : ∀ k, tracked k → c' k = c k - w a k + w x k) : Balanced tracked w (d.replace x) c' := by
  intro k hk
  rw [hc k hk, h k hk, total_replace hfind]

end

end Infra
