/-!
# The callout manager

`src/lib/hooks/callout_manager.cc`, with the contexts of the libraries in a `CalloutHandle`. What the
callouts do to the manager and to everything else is a parameter; calls for other hooks are a part
of it.
-/

namespace Hooks

open List

/-- `CalloutVector`: the callouts of a hook, each with the index of its library. -/
abbrev CalloutVector (κ : Type) := List (Int × κ)

structure CalloutManager (κ : Type) where
  /-- The names of the hooks, by hook index. -/
  serverHooks : List String
  numLibraries : Int
  currentHook : Int
  currentLibrary : Int
  hookVector : List (CalloutVector κ)

namespace CalloutManager

variable {κ σ : Type} (m : CalloutManager κ) (name : String)

/-- `INT_MAX` is the index of the callouts behind those of all libraries. -/
def checkLibraryIndex (library : Int) : Bool :=
  -1 ≤ library && library ≤ m.numLibraries || library = 2147483647

def ensureHookLibsVectorSize : CalloutManager κ :=
  { m with hookVector := m.hookVector ++ replicate (m.serverHooks.length - m.hookVector.length) [] }

/-- Changes the vector of a hook; `none` stands for the exception of `ServerHooks::getIndex`. -/
def modifyHook (f : CalloutVector κ → CalloutVector κ) : Option (CalloutManager κ) :=
  (m.serverHooks.idxOf? name).map fun hook =>
    { m with hookVector := m.ensureHookLibsVectorSize.hookVector.modify hook f }

/-- The callout goes in front of the first one of a greater index. -/
def registerCallout (callout : κ) : Option (CalloutManager κ) :=
  if m.checkLibraryIndex m.currentLibrary then
    m.modifyHook name fun callouts =>
      callouts.takeWhile (·.1 ≤ m.currentLibrary) ++
        (m.currentLibrary, callout) :: callouts.dropWhile (·.1 ≤ m.currentLibrary)
  else none

/-- `deregisterCallout`: the entries of the callout for the current library go, if there are any. -/
def deregisterCallout [DecidableEq κ] (callout : κ) : Option (CalloutManager κ × Bool) :=
  if m.checkLibraryIndex m.currentLibrary then
    (m.modifyHook name (·.filter (· ≠ (m.currentLibrary, callout)))).map fun m' =>
      (m', m'.hookVector.map length ≠ m.ensureHookLibsVectorSize.hookVector.map length)
  else none

/-- `CalloutHandle::getContextForLibrary`; `none` stands for its exception. -/
def getContextForLibrary {ε : Type} (contextCollection : Int → Option ε) : Option ε :=
  contextCollection m.currentLibrary

variable (invoke : κ → CalloutManager κ × σ → CalloutManager κ × σ)

/-- The loop over the copy of the vector. A callout that throws ends like one that returns. -/
def callEach : CalloutVector κ → CalloutManager κ × σ → CalloutManager κ × σ
  | [], (m, s) => (m, s)
  | (library, callout) :: callouts, (m, s) =>
    callEach callouts (invoke callout ({ m with currentLibrary := library }, s))

/-- `none` stands for the exception of `calloutsPresent`. -/
def callCallouts (hook : Nat) (s : σ) : Option (CalloutManager κ × σ) :=
  m.hookVector[hook]?.map fun callouts =>
    if callouts = [] then (m, s)
    else
      let (m, s) := callEach invoke callouts ({ m with currentHook := hook }, s)
      ({ m with currentHook := -1, currentLibrary := -1 }, s)

/-! ## Whom the operations of a callout are for -/

/-- The entry stands in the vector of the hook. -/
def Registered (hook : Nat) (entry : Int × κ) : Prop := entry ∈ m.hookVector.getD hook []

/--
What a callout registers, deregisters and reads as its context is that of the library, and the hook
that it is told to be attached to is `hook`.
-/
structure ActsFor [DecidableEq κ] (library hook : Int) : Prop where
  hook : m.currentHook = hook
  registers : ∀ name callout m' target, m.serverHooks.idxOf? name = some target →
    m.registerCallout name callout = some m' → ∀ i e,
      m'.Registered i e ↔ m.Registered i e ∨ i = target ∧ e = (library, callout)
  deregisters : ∀ name callout m' removed target, m.serverHooks.idxOf? name = some target →
    m.deregisterCallout name callout = some (m', removed) → ∀ i e,
      m'.Registered i e ↔ m.Registered i e ∧ ¬(i = target ∧ e = (library, callout))
  context : ∀ (ε : Type) (contexts : Int → Option ε),
    m.getContextForLibrary contexts = contexts library

section

variable {m} {m' : CalloutManager κ} {name} {target i : Nat} {callout : κ} {e : Int × κ}

/-- A hook that has been added since the last call gets an empty vector. -/
theorem ensureHookLibsVectorSize_getD :
    m.ensureHookLibsVectorSize.hookVector.getD i [] = m.hookVector.getD i [] := by
  rw [ensureHookLibsVectorSize, getD_eq_getElem?_getD, getD_eq_getElem?_getD, getElem?_append]
  split
  · rfl
  · next h =>
    rw [getElem?_replicate, getElem?_eq_none (Nat.not_lt.mp h)]
    split <;> rfl

theorem registered_modifyHook_iff {f : CalloutVector κ → CalloutVector κ}
    (htarget : m.serverHooks.idxOf? name = some target) (h : m.modifyHook name f = some m') :
    m'.Registered i e ↔
      if i = target then e ∈ f (m.hookVector.getD i []) else m.Registered i e := by
  obtain ⟨hlt, -⟩ := findIdx?_eq_some_iff_getElem.mp htarget
  rw [modifyHook, htarget, Option.map_some, Option.some.injEq] at h
  subst h
  have hlength : target < m.ensureHookLibsVectorSize.hookVector.length := by
    simp only [ensureHookLibsVectorSize, length_append, length_replicate]
    omega
  rw [Registered, Registered, ← ensureHookLibsVectorSize_getD (m := m), getD_eq_getElem?_getD,
    getElem?_modify]
  by_cases hi : i = target
  · subst hi
    rw [getD_eq_getElem?_getD, getElem?_eq_getElem hlength]
    simp
  · simp [hi, Ne.symm hi]

/-- `registerCallout` adds one entry, for the current library. -/
theorem registered_registerCallout_iff (htarget : m.serverHooks.idxOf? name = some target)
    (h : m.registerCallout name callout = some m') :
    m'.Registered i e ↔ m.Registered i e ∨ i = target ∧ e = (m.currentLibrary, callout) := by
  unfold registerCallout at h
  split at h
  · rw [registered_modifyHook_iff htarget h]
    split
    · next hi =>
      rw [perm_middle.mem_iff, mem_cons, takeWhile_append_dropWhile, Registered, or_comm]
      simp [hi]
    · next hi => simp [hi]
  · cases h

/-- `deregisterCallout` removes the entries of one callout, for the current library. -/
theorem registered_deregisterCallout_iff [DecidableEq κ] {removed : Bool}
    (htarget : m.serverHooks.idxOf? name = some target)
    (h : m.deregisterCallout name callout = some (m', removed)) :
    m'.Registered i e ↔ m.Registered i e ∧ ¬(i = target ∧ e = (m.currentLibrary, callout)) := by
  unfold deregisterCallout at h
  split at h
  · obtain ⟨_, hmodify, heq⟩ := Option.map_eq_some_iff.mp h
    cases heq
    rw [registered_modifyHook_iff htarget hmodify]
    split
    · next hi => simp [hi, Registered]
    · next hi => simp [hi]
  · cases h

theorem actsFor_iff [DecidableEq κ] {library hook : Int} :
    m.ActsFor library hook ↔ m.currentLibrary = library ∧ m.currentHook = hook := by
  constructor
  · intro h
    exact ⟨Option.some.inj (h.context Int some), h.hook⟩
  · rintro ⟨rfl, rfl⟩
    exact ⟨rfl, fun _ _ _ _ htarget h _ _ => registered_registerCallout_iff htarget h,
      fun _ _ _ _ _ htarget h _ _ => registered_deregisterCallout_iff htarget h, fun _ _ => rfl⟩

end

/--
**A callout keeps its library and hook across a nested call** exactly if the nested call has nothing
to do. Otherwise it acts for no library and no hook, whatever the callouts in the nested call do.
-/
theorem callCallouts_identity_iff [DecidableEq κ] (s : σ) (library : Int) (outer inner : Nat) :
    ((∀ m' s', callCallouts { m with currentLibrary := library, currentHook := outer } invoke inner s =
        some (m', s') → m'.ActsFor library outer) ↔ m.hookVector.getD inner [] = []) ∧
    (m.hookVector.getD inner [] ≠ [] →
      ∀ m' s', callCallouts m invoke inner s = some (m', s') → m'.ActsFor (-1) (-1)) := by
  rw [getD_eq_getElem?_getD]
  simp only [callCallouts, actsFor_iff]
  cases m.hookVector[inner]? with
  | none => exact ⟨iff_of_true nofun rfl, fun h => absurd rfl h⟩
  | some callouts =>
    rw [Option.getD_some]
    by_cases hnone : callouts = []
    · rw [Option.map_some, if_pos hnone]
      refine ⟨iff_of_true ?_ hnone, fun h => absurd hnone h⟩
      rintro m' s' ⟨⟩
      exact ⟨rfl, rfl⟩
    · rw [Option.map_some, Option.map_some, if_neg hnone, if_neg hnone]
      refine ⟨iff_of_false (fun hsame => ?_) hnone, ?_⟩
      · have hhook : (-1 : Int) = outer := (hsame _ _ rfl).2
        omega
      · rintro - m' s' ⟨⟩
        exact ⟨rfl, rfl⟩

/--
The callout of library 1 registers another one after a call for the other hook, and fails to
deregister itself.
-/
theorem registers_without_library :
    ∃ m', callCallouts ⟨["a", "b"], 2, 0, 1, [[(1, 0)], [(2, 1)]]⟩ (fun _ => id) 1 () = some (m', ()) ∧
      m'.currentHook = -1 ∧
      (m'.registerCallout "b" 5).map (·.hookVector) = some [[(1, 0)], [(-1, 5), (2, 1)]] ∧
      (m'.deregisterCallout "a" 0).map (·.2) = some false :=
  ⟨_, rfl, rfl, by decide, by decide⟩

end CalloutManager

end Hooks
