/-!
# Runs of a system

A system takes one operation after the other; `step o s` is the state after the operation `o`.
-/

namespace Infra

variable {ο σ : Type} {step : ο → σ → σ} {ok ok' : ο → σ → Prop} {init s : σ}

/-- `s` is reached from `init` by operations that meet `ok` in the state they are applied to. -/
inductive Reaches (step : ο → σ → σ) (ok : ο → σ → Prop) (init : σ) : σ → Prop
  | start : Reaches step ok init init
  | next {s : σ} (o : ο) (h : Reaches step ok init s) (hok : ok o s) :
      Reaches step ok init (step o s)

/-- The invariant rule: holds at the start, and every step that meets the condition keeps it. -/
theorem Reaches.inv {I : σ → Prop} (h : Reaches step ok init s) (hinit : I init)
    (hstep : ∀ o t, I t → ok o t → I (step o t)) : I s := by
  induction h with
  | start => exact hinit
  | next o _ hok ih => exact hstep o _ ih hok

/--
`s` is reached from `init` with the history `hist`: the operations, each with the state it was applied
to, the latest one first. An operation meets `ok` for the history before it.
-/
inductive Traces (step : ο → σ → σ) (ok : List (ο × σ) → ο → σ → Prop) (init : σ) :
    List (ο × σ) → σ → Prop
  | start : Traces step ok init [] init
  | next {hist : List (ο × σ)} {s : σ} (o : ο) (h : Traces step ok init hist s) (hok : ok hist o s) :
      Traces step ok init ((o, s) :: hist) (step o s)

/-- The invariant rule for a property of the state and its history. -/
theorem Traces.inv {okh : List (ο × σ) → ο → σ → Prop} {hist : List (ο × σ)}
    {I : List (ο × σ) → σ → Prop} (h : Traces step okh init hist s) (hinit : I [] init)
    (hstep : ∀ hist o t, I hist t → okh hist o t → I ((o, t) :: hist) (step o t)) : I hist s := by
  induction h with
  | start => exact hinit
  | next o _ hok ih => exact hstep _ o _ ih hok

end Infra
