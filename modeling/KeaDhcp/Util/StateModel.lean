import Mathlib.Logic.Function.Basic
import KeaDhcp.Infra.Exec

/-!
# State models

`src/lib/util/state_model.cc`. A class derived from `StateModel` has states and events of its own;
they are types here, so that every state has a handler. Beside the model an object has further
members.

What a handler learns from outside while it runs (the time, the outcome of a blocking exchange) is
an argument of it, and the loop of `runModel` has one for each round. A loop that is still going
when they are used up has not returned.
-/

namespace Util

inductive StatePausing where
  | always | never | once
  deriving DecidableEq

/-- `NEW_ST`, `END_ST` and the states of the derived class. -/
inductive ModelState (σ : Type) where
  | new | ended | derived (state : σ)
  deriving DecidableEq

/-- `NOP_EVT`, `START_EVT`, `END_EVT`, `FAIL_EVT` and the events of the derived class. -/
inductive ModelEvent (ε : Type) where
  | nop | start | ended | fail | derived (event : ε)
  deriving DecidableEq

structure StateModel (σ ε : Type) where
  /-- `pausing_` and `was_paused_` of each `State`. -/
  pausing : σ → StatePausing
  wasPaused : σ → Bool
  currState : ModelState σ
  prevState : ModelState σ
  lastEvent : ModelEvent ε
  nextEvent : ModelEvent ε
  onEntryFlag : Bool
  onExitFlag : Bool
  paused : Bool

namespace StateModel

variable {σ ε : Type} [DecidableEq σ]

/-- The constructor. -/
def fresh (pausing : σ → StatePausing) : StateModel σ ε :=
  { pausing := pausing, wasPaused := fun _ => false, currState := .new, prevState := .new
    lastEvent := .nop, nextEvent := .nop, onEntryFlag := false, onExitFlag := false
    paused := false }

/-- `State::shouldPause`; a state that pauses remembers it. -/
def shouldPause (m : StateModel σ ε) (state : σ) : Bool :=
  match m.pausing state with
  | .always => true
  | .once => !m.wasPaused state
  | .never => false

def setState (m : StateModel σ ε) (state : ModelState σ) : StateModel σ ε :=
  let flag := state ≠ .ended && m.currState ≠ state
  let m' := { m with
    prevState := m.currState, currState := state, onEntryFlag := flag, onExitFlag := flag }
  match state with
  | .derived s =>
    if flag && !m.paused && m.shouldPause s then
      { m' with paused := true, wasPaused := Function.update m.wasPaused s true }
    else m'
  | _ => m'

def postNextEvent (m : StateModel σ ε) (event : ModelEvent ε) : StateModel σ ε :=
  { m with lastEvent := m.nextEvent, nextEvent := event }

def transition (m : StateModel σ ε) (state : ModelState σ) (event : ModelEvent ε) :
    StateModel σ ε :=
  (m.setState state).postNextEvent event

def abortModel (m : StateModel σ ε) : StateModel σ ε := m.transition .ended .fail

def unpauseModel (m : StateModel σ ε) : StateModel σ ε := { m with paused := false }

def isModelDone (m : StateModel σ ε) : Bool := m.currState = .ended

/-- What `doOnEntry` leaves behind; it returns the flag. -/
def entered (m : StateModel σ ε) : StateModel σ ε := { m with onEntryFlag := false }

/-! ### What the operations change -/

section Lemmas

variable (m : StateModel σ ε) (state : ModelState σ) (event : ModelEvent ε)

@[simp] theorem currState_setState : (m.setState state).currState = state := by
  unfold setState
  cases state with
  | derived s => dsimp only; split <;> rfl
  | new | ended => rfl

@[simp] theorem nextEvent_setState : (m.setState state).nextEvent = m.nextEvent := by
  unfold setState
  cases state with
  | derived s => dsimp only; split <;> rfl
  | new | ended => rfl

@[simp] theorem onEntryFlag_setState :
    (m.setState state).onEntryFlag = (decide (state ≠ .ended) && decide (m.currState ≠ state)) := by
  unfold setState
  cases state with
  | derived s => dsimp only; split <;> rfl
  | new | ended => rfl

@[simp] theorem currState_transition : (m.transition state event).currState = state :=
  currState_setState m state

@[simp] theorem nextEvent_transition : (m.transition state event).nextEvent = event := rfl

@[simp] theorem onEntryFlag_transition : (m.transition state event).onEntryFlag =
    (decide (state ≠ .ended) && decide (m.currState ≠ state)) :=
  onEntryFlag_setState m state

end Lemmas

end StateModel

/-! ## Derived classes -/

/-- An object of a class derived from `StateModel`, with the members of that class. -/
structure Derived (σ ε δ : Type) where
  model : StateModel σ ε
  members : δ

namespace Derived

variable {σ ε δ ρ χ : Type} [DecidableEq σ] [DecidableEq ε]

/-- The condition of the loop, negated. -/
def rests (m : StateModel σ ε) : Bool := m.isModelDone || m.nextEvent = .nop

/--
The loop of `runModel`. An exception ends the model; `NEW_ST` and `END_ST` have handlers that do
nothing.
-/
def runLoop (handler : σ → ρ → EStateM χ (Derived σ ε δ) Unit) :
    List ρ → Derived σ ε δ → Option (Derived σ ε δ)
  | [], _ => none
  | r :: rs, d =>
    match d.model.currState with
    | .derived s =>
      match handler s r d with
      | .ok _ d' => if rests d'.model then some d' else runLoop handler rs d'
      | .error _ d' => some { d' with model := d'.model.abortModel }
    | .new | .ended => if rests d.model then some d else runLoop handler rs d

def runModel (handler : σ → ρ → EStateM χ (Derived σ ε δ) Unit) (event : ModelEvent ε)
    (rounds : List ρ) (d : Derived σ ε δ) : Option (Derived σ ε δ) :=
  runLoop handler rounds { d with model := d.model.postNextEvent event }

/-! ### Runs of the loop -/

/--
`Calls handler rounds d s r d₁`: the loop that starts with `d` calls the handler of the state `s`
with the outside `r`, in the state `d₁`.
-/
inductive Calls (handler : σ → ρ → EStateM χ (Derived σ ε δ) Unit) :
    List ρ → Derived σ ε δ → σ → ρ → Derived σ ε δ → Prop
  | here {s : σ} {r : ρ} {rs : List ρ} {d : Derived σ ε δ} (hs : d.model.currState = .derived s) :
      Calls handler (r :: rs) d s r d
  | later {s t : σ} {r q : ρ} {rs : List ρ} {d d' d₁ : Derived σ ε δ}
      (hs : d.model.currState = .derived s) (hrun : handler s r d = .ok () d')
      (hgoes : rests d'.model = false) (h : Calls handler rs d' t q d₁) :
      Calls handler (r :: rs) d t q d₁

variable {handler : σ → ρ → EStateM χ (Derived σ ε δ) Unit} {I J F : Derived σ ε δ → Prop}
  {rounds : List ρ} {d d' d₁ : Derived σ ε δ}

/--
The rule for the loop. A round that starts with `I` ends with `I` again if the loop goes on, and
with `J` if it rests; a round that throws leaves `J` behind once the model has been aborted.
-/
theorem runLoop_inv (hinv : ∀ s r d, I d → d.model.currState = .derived s →
      Infra.Post (handler s r) d
        (fun _ d' => if rests d'.model then J d' else I d')
        (fun _ d' => J { d' with model := d'.model.abortModel }))
    (hidle : ∀ d, I d → (∀ s, d.model.currState ≠ .derived s) → J d)
    (hI : I d) (hrun : runLoop handler rounds d = some d') : J d' := by
  fun_induction runLoop handler rounds d with
  | case1 => cases hrun
  | case2 r rs d s hs u d₁ hstep hrest =>
    cases hrun
    have hround := (hinv s r d hI hs).ok hstep
    rwa [if_pos hrest] at hround
  | case3 r rs d s hs u d₁ hstep hrest ih =>
    have hround := (hinv s r d hI hs).ok hstep
    rw [if_neg hrest] at hround
    exact ih hround hrun
  | case4 r rs d s hs e d₁ hstep =>
    cases hrun
    exact (hinv s r d hI hs).error hstep
  | case5 r rs d hs hrest | case7 r rs d hs hrest =>
    cases hrun
    exact hidle _ hI (by simp [hs])
  | case6 r rs d hs hrest ih | case8 r rs d hs hrest ih => exact ih hI hrun

theorem Calls.inv {s : σ} {r : ρ} (h : Calls handler rounds d s r d₁)
    (hinv : ∀ s r d, I d → d.model.currState = .derived s →
      Infra.Post (handler s r) d (fun _ d' => rests d'.model = false → I d') fun _ _ => True)
    (hI : I d) : I d₁ ∧ d₁.model.currState = .derived s := by
  induction h with
  | here hs => exact ⟨hI, hs⟩
  | later hs hrun hgoes _ ih => exact ih ((hinv _ _ _ hI hs).ok hrun hgoes)

end Derived

end Util
