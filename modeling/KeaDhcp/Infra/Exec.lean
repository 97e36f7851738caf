/-!
# Stateful computations that may throw

Rules for `EStateM`, whose state survives an exception. `after x s` is the state that `x`
leaves behind when it is started in `s`, whether it returns or throws.
-/

namespace Infra

variable {ε σ α β : Type}
variable {s' : σ} {a : α} {f : α → EStateM ε σ β} {τ : Type}

/-- The state that a result carries. -/
def finalState : EStateM.Result ε σ α → σ
  | .ok _ s => s
  | .error _ s => s

/-- The state after a run. -/
def after (x : EStateM ε σ α) (s : σ) : σ := finalState (x s)

/-! ## What the operations do -/

variable {s : σ}

@[simp] theorem run_pure : (pure a : EStateM ε σ α) s = .ok a s := rfl

variable {x : EStateM ε σ α}

theorem run_bind :
    (x >>= f) s = match x s with
      | .ok a s' => f a s'
      | .error e s' => .error e s' := rfl

theorem run_map (f : α → β) (x : EStateM ε σ α) (s : σ) :
    (f <$> x) s = match x s with
      | .ok a s' => .ok (f a) s'
      | .error e s' => .error e s' := rfl

theorem run_bind_ok (h : x s = .ok a s') (f : α → EStateM ε σ β) : (x >>= f) s = f a s' := by
  rw [run_bind, h]

@[simp] theorem run_get (s : σ) : (get : EStateM ε σ σ) s = .ok s s := rfl

@[simp] theorem run_modify {f : σ → σ} : (modify f : EStateM ε σ Unit) s = .ok () (f s) := rfl

@[simp] theorem run_set : (set s' : EStateM ε σ Unit) s = .ok () s' := rfl

@[simp] theorem run_throw (e : ε) (s : σ) : (throw e : EStateM ε σ α) s = .error e s := rfl

theorem run_tryCatch {f : ε → EStateM ε σ α} :
    (tryCatch x f) s = match x s with
      | .ok a s' => .ok a s'
      | .error e s' => f e s' := by
  show EStateM.tryCatch x f s = _
  unfold EStateM.tryCatch
  cases x s <;> rfl

/-- A computation whose exceptions are dropped always returns. -/
theorem run_tryCatch_pure {x : EStateM ε σ Unit} :
    (tryCatch x fun _ => pure ()) s = .ok () (after x s) := by
  rw [run_tryCatch]
  unfold after
  cases x s <;> rfl

/-- A loop whose rounds always return. -/
theorem run_forM {f : α → EStateM ε σ Unit} {g : σ → α → σ} (h : ∀ a s, f a s = .ok () (g s a))
    (l : List α) (s : σ) : l.forM f s = .ok () (l.foldl g s) := by
  induction l generalizing s with
  | nil => rfl
  | cons a l ih =>
    show (f a >>= fun _ => l.forM f) s = _
    rw [run_bind_ok (h a s)]
    exact ih (g s a)

/-- A computation that returns was made of a part that returned and the rest. -/
theorem bind_eq_ok {b : β} (h : (x >>= f) s = .ok b s') :
    ∃ a t, x s = .ok a t ∧ f a t = .ok b s' := by
  rw [run_bind] at h
  generalize x s = result at h ⊢
  cases result with
  | ok a t => exact ⟨a, t, rfl, h⟩
  | error e t => cases h

/-- The same for a computation without a state. -/
theorem except_bind_eq_ok {x : Except ε α} {f : α → Except ε β} {b : β}
    (h : (x >>= f) = .ok b) : ∃ a, x = .ok a ∧ f a = .ok b := by
  cases x with
  | error e => cases h
  | ok a => exact ⟨a, rfl, h⟩

theorem except_map_eq_ok {x : Except ε α} {f : α → β} {b : β} (h : x.map f = .ok b) :
    ∃ a, x = .ok a ∧ f a = b := by
  cases x with
  | error e => cases h
  | ok a => exact ⟨a, rfl, Except.ok.inj h⟩

theorem except_map_eq_error {x : Except ε α} {f : α → β} {e : ε} (h : x.map f = .error e) :
    x = .error e := by
  cases x with
  | error e' => exact congrArg _ (Except.error.inj h)
  | ok a => cases h

theorem except_ok_bind (a : α) (f : α → Except ε β) : (Except.ok a >>= f) = f a := rfl

/-! ## A part of the state -/

/-- Runs a computation on the part of the state that `view` shows and `put` writes back. -/
def zoom {τ : Type} (view : τ → σ) (put : σ → τ → τ) (x : EStateM ε σ α) : EStateM ε τ α := fun t =>
  match x (view t) with
  | .ok a s => .ok a (put s t)
  | .error e s => .error e (put s t)

variable {put : σ → τ → τ} {t : τ} {view : τ → σ}

theorem run_zoom :
    zoom view put x t = match x (view t) with
      | .ok a s => .ok a (put s t)
      | .error e s => .error e (put s t) := rfl

theorem after_zoom : after (zoom view put x) t = put (after x (view t)) t := by
  unfold after
  rw [run_zoom]
  cases x (view t) <;> rfl

/-! ## Properties of the state that a computation preserves -/

/-- Started in a state with property `I`, the computation ends in one, also when it throws. -/
def Keeps (I : σ → Prop) (x : EStateM ε σ α) : Prop := ∀ s, I s → I (after x s)

variable {I : σ → Prop}

theorem Keeps.pure (a : α) : Keeps I (pure a : EStateM ε σ α) := fun _ h => h

theorem Keeps.throw (e : ε) : Keeps I (throw e : EStateM ε σ α) := fun _ h => h

theorem Keeps.get : Keeps I (get : EStateM ε σ σ) := fun _ h => h

theorem Keeps.modify {f : σ → σ} (hf : ∀ s, I s → I (f s)) : Keeps I (modify f : EStateM ε σ Unit) :=
  hf

theorem Keeps.bind (hx : Keeps I x) (hf : ∀ a, Keeps I (f a)) : Keeps I (x >>= f) := by
  intro s hs
  have h := hx s hs
  unfold after at h ⊢
  rw [run_bind]
  generalize x s = result at h ⊢
  cases result with
  | ok a t => exact hf a t h
  | error e t => exact h

theorem Keeps.ite {c : Prop} [Decidable c] {y : EStateM ε σ α} (hx : c → Keeps I x)
    (hy : ¬c → Keeps I y) : Keeps I (if c then x else y) := by
  split
  · exact hx ‹_›
  · exact hy ‹_›

/-- A computation on a part of the state preserves what does not depend on that part. -/
theorem Keeps.zoom {J : τ → Prop} (h : ∀ t, J t → J (put (after x (view t)) t)) :
    Keeps J (zoom view put x) := by
  intro t ht
  rw [after_zoom]
  exact h t ht

/-! ## Postconditions -/

/-- The run returns with `Q`, or throws with `E`. -/
def Post (x : EStateM ε σ α) (s : σ) (Q : α → σ → Prop) (E : ε → σ → Prop) : Prop :=
  match x s with
  | .ok a s' => Q a s'
  | .error e s' => E e s'

variable {Q Q' : α → σ → Prop} {E E' : ε → σ → Prop}

theorem Post.of_ok (h : x s = .ok a s') (hQ : Q a s') : Post x s Q E := by
  rw [Post, h]
  exact hQ

theorem Post.of_error {e : ε} (h : x s = .error e s') (hE : E e s') : Post x s Q E := by
  rw [Post, h]
  exact hE

/-- What a run that returns has established. -/
theorem Post.ok (h : Post x s Q E) (hx : x s = .ok a s') : Q a s' := by
  rwa [Post, hx] at h

/-- What a run that throws has established. -/
theorem Post.error {e : ε} (h : Post x s Q E) (hx : x s = .error e s') : E e s' := by
  rwa [Post, hx] at h

theorem Post.intro (hQ : ∀ a s', x s = .ok a s' → Q a s') (hE : ∀ e s', x s = .error e s' → E e s') :
    Post x s Q E := by
  unfold Post
  cases hx : x s with
  | ok a s' => exact hQ a s' hx
  | error e s' => exact hE e s' hx

/-- The computation returns, with `Q`. -/
abbrev Yields (x : EStateM ε σ α) (s : σ) (Q : α → σ → Prop) : Prop := Post x s Q fun _ _ => False

/-- The computation leaves a state with `P` behind, however it ends. -/
abbrev EndsIn (x : EStateM ε σ α) (s : σ) (P : σ → Prop) : Prop :=
  Post x s (fun _ s' => P s') fun _ s' => P s'

theorem Post.iff_after {P : σ → Prop} : EndsIn x s P ↔ P (after x s) := by
  unfold EndsIn Post Infra.after
  cases x s <;> rfl

theorem Post.after {P : σ → Prop} (h : EndsIn x s P) : P (after x s) := iff_after.mp h

/-- What a computation preserves holds however it ends. -/
theorem Keeps.post (h : Keeps I x) (hs : I s) : EndsIn x s I := Post.iff_after.mpr (h s hs)

theorem Post.mono (h : Post x s Q E) (hQ : ∀ a s', Q a s' → Q' a s')
    (hE : ∀ e s', E e s' → E' e s') : Post x s Q' E' :=
  .intro (fun a s' hx => hQ a s' (h.ok hx)) fun e s' hx => hE e s' (h.error hx)

theorem Post.imp (h : Post x s Q E) (hQ : ∀ a s', Q a s' → Q' a s') : Post x s Q' E :=
  h.mono hQ fun _ _ hE => hE

theorem Yields.imp (h : Yields x s Q) (hQ : ∀ a s', Q a s' → Q' a s') : Post x s Q' E :=
  h.mono hQ fun _ _ hE => hE.elim

/-- Two facts about one run. -/
theorem Post.and (h : Post x s Q E) (h' : Post x s Q' E') :
    Post x s (fun a s' => Q a s' ∧ Q' a s') fun e s' => E e s' ∧ E' e s' :=
  .intro (fun _ _ hx => ⟨h.ok hx, h'.ok hx⟩) fun _ _ hx => ⟨h.error hx, h'.error hx⟩

theorem Post.pure (h : Q a s) : Post (Pure.pure a : EStateM ε σ α) s Q E := h

variable {R : β → σ → Prop}

theorem Post.bind (h : Post x s (fun a s' => Post (f a) s' R E) E) : Post (x >>= f) s R E := by
  unfold Post at h ⊢
  rw [run_bind]
  cases hx : x s with
  | ok a s' | error e s' =>
    rw [hx] at h
    exact h

/-- The rest of a computation whose first part is known to return. -/
theorem Post.step (h : x s = .ok a s') (hrest : Post (f a) s' R E) : Post (x >>= f) s R E :=
  .bind (.of_ok h hrest)

/-- The rule of sequences. -/
theorem Post.seq (h : Post x s Q E) (hrest : ∀ a s', Q a s' → Post (f a) s' R E) :
    Post (x >>= f) s R E :=
  .bind (h.imp hrest)

theorem Yields.seq (h : Yields x s Q) (hrest : ∀ a s', Q a s' → Post (f a) s' R E) :
    Post (x >>= f) s R E :=
  .bind (h.imp hrest)

/-- A computation on a part of the state. -/
theorem Post.zoom {Q : α → τ → Prop} {E : ε → τ → Prop}
    (h : Post x (view t) (fun a s' => Q a (put s' t)) fun e s' => E e (put s' t)) :
    Post (zoom view put x) t Q E := by
  unfold Post at h ⊢
  rw [run_zoom]
  cases hx : x (view t) with
  | ok a s' | error e s' =>
    rw [hx] at h
    exact h

theorem Post.tryCatch {f : ε → EStateM ε σ α}
    (h : Post x s Q fun e s' => Post (f e) s' Q E) : Post (tryCatch x f) s Q E := by
  unfold Post at h ⊢
  rw [run_tryCatch]
  cases hx : x s with
  | ok a s' | error e s' =>
    rw [hx] at h
    exact h

/-! ## How a computation without a state ends -/

/-- The value satisfies `P`, or the exception satisfies `E`. -/
def Ends (P : α → Prop) (E : ε → Prop) : Except ε α → Prop
  | .ok a => P a
  | .error e => E e

section Ends

variable {P : α → Prop} {Q : β → Prop} {E : ε → Prop}

theorem Ends.bind {x : Except ε α} {f : α → Except ε β} (hx : Ends P E x)
    (hf : ∀ a, P a → Ends Q E (f a)) : Ends Q E (x >>= f) := by
  cases x with
  | ok a => exact hf a hx
  | error e => exact hx

theorem Ends.mono {P' : α → Prop} {x : Except ε α} (hx : Ends P E x) (h : ∀ a, P a → P' a) :
    Ends P' E x := by
  cases x with
  | ok a => exact h a hx
  | error e => exact hx

end Ends

end Infra
