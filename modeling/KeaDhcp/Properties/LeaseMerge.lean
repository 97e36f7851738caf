import Mathlib
import KeaDhcp.Ha.LeaseSync
import KeaDhcp.Properties.LeaseFile

/-!
# Synchronization merges leases

The loop over the partner's leases keeps, for each address, the newest of the local lease and of
the leases that were received: `List.argmax` by `cltt`, which takes the first of several maxima.
-/

namespace Infra

variable {α β : Type} [Preorder β] [DecidableLT β] {f : α → β}

theorem argmax_append {l m : List α} : ((l.argmax f).toList ++ m).argmax f = (l ++ m).argmax f := by
  -- on the last element of `m`: each choice compares it with the choice before
  induction m using List.reverseRecOn with
  | nil =>
    rw [List.append_nil, List.append_nil]
    cases l.argmax f <;> rfl
  | append_singleton m a ih =>
    rw [← List.append_assoc, ← List.append_assoc, List.argmax_concat, List.argmax_concat, ih]

end Infra

namespace Dhcp

open Data Infra Lease4Storage StoredLease4 MultiIndex Option Memfile

variable {A : IOAddressText} {element : Element} {elements : List Element} {l : Lease4}
  {m : Memfile lease4Spec} {addr : Address 32}

/-- The lease that an element of the answer stands for, when it can be parsed. -/
def fetchedLease4 (A : IOAddressText) (element : Element) : Option Lease4 :=
  ((fromElement A element).map toLease4).toOption

theorem StoredLease4.fromElement_hwaddr {stored : StoredLease4 MapElement}
    (h : fromElement A element = .ok stored) : stored.hwaddr.isSome := by
  obtain ⟨lease, -, h⟩ := except_bind_eq_ok h
  cases element with
  | map map =>
    cases haddr : lease.addr with
    | v4 addr =>
      cases hhwaddr : lease.hwaddr with
      | none =>
        simp only [haddr, hhwaddr] at h
        cases h
      | some hwaddr =>
        simp only [haddr, hhwaddr] at h
        obtain ⟨clientId, -, h⟩ := except_bind_eq_ok h
        cases h
        rfl
    | v6 addr =>
      simp only [haddr] at h
      cases h
  | _ => cases h

theorem fetchedLease4_hwaddr (h : fetchedLease4 A element = some l) : l.hwaddr.isSome := by
  unfold fetchedLease4 at h
  cases hparse : fromElement A element with
  | error e =>
    rw [hparse] at h
    cases h
  | ok stored =>
    rw [hparse] at h
    cases h
    exact fromElement_hwaddr hparse

/-! ## One round -/

theorem syncLease4_run : syncLease4 A element m = .ok () (after (syncLease4 A element) m) := by
  unfold syncLease4 syncLease
  unfold after
  rw [run_tryCatch_pure]
  rfl

/-- What the round does to the manager: nothing, or one call for the lease that was fetched. -/
theorem after_syncLease4 :
    after (syncLease4 A element) m =
      match fetchedLease4 A element with
      | none => m
      | some lease =>
        match m.storage.find lease.addr with
        | none => after (Memfile4.addLease lease) m
        | some existing =>
          if existing.cltt < lease.cltt then after (Memfile4.updateLease4 lease) m else m := by
  unfold syncLease4 syncLease fetchedLease4
  have hcatch (x : MemfileM lease4Spec Unit) : after (tryCatch x fun _ => pure ()) m = after x m := by
    unfold after
    rw [run_tryCatch_pure]
    rfl
  rw [hcatch]
  cases fromElement A element with
  | error e => rfl
  | ok stored =>
    simp only [Except.map, Except.toOption, getLease4]
    have hget (f : Memfile lease4Spec → MemfileM lease4Spec Unit) :
        after (get >>= f) m = after (f m) m := rfl
    rw [hget]
    cases m.storage.find stored.toLease4.addr with
    | none =>
      show after (discard (Memfile4.addLease stored.toLease4)) m = _
      unfold after
      rw [show discard (Memfile4.addLease stored.toLease4) m = _ from run_map _ _ m]
      cases Memfile4.addLease stored.toLease4 m <;> rfl
    | some existing =>
      dsimp only
      split <;> rfl

theorem stale_run {existing : Lease4} (hfetch : fetchedLease4 A element = some l)
    (hfind : m.storage.find l.addr = some existing) (hstale : l.cltt ≤ existing.cltt) :
    syncLease4 A element m = .ok () m := by
  rw [syncLease4_run, after_syncLease4]
  simp only [hfetch, hfind, if_neg (Int.not_lt.mpr hstale)]

theorem find_addLease (hwaddr : l.hwaddr.isSome) (hfind : m.storage.find l.addr = none) :
    (after (Memfile4.addLease l) m).storage.find addr =
      if addr = l.addr then some l else m.storage.find addr := by
  have hwritable : leaseFile4.writable l = true := hwaddr
  unfold Memfile4.addLease
  rw [after_add]
  simp only [getLease4, hfind, hwritable, isSome_none, Bool.not_false,
    Bool.and_self]
  exact find_insert hfind

theorem find_updateLease4 {existing : Lease4} (hwaddr : l.hwaddr.isSome)
    (hfind : m.storage.find l.addr = some existing) :
    (after (Memfile4.updateLease4 l) m).storage.find addr =
      if addr = l.addr then some l else m.storage.find addr := by
  have hwritable : leaseFile4.writable l = true := hwaddr
  have hkey : m.storage.find (lease4Spec.key l) = some existing := hfind
  unfold Memfile4.updateLease4
  rw [after_update]
  simp only [hkey, hwritable, isSome_some, Bool.and_self]
  exact find_replace hfind

/-- One round makes the choice between the local lease and the one that was fetched. -/
theorem sync_step :
    (after (syncLease4 A element) m).storage.find addr = ((m.storage.find addr).toList ++
        (fetchedLease4 A element).toList.filter (·.addr = addr)).argmax (·.cltt) := by
  rw [after_syncLease4]
  cases hfetch : fetchedLease4 A element with
  | none => cases m.storage.find addr <;> rfl
  | some l =>
    have hwaddr := fetchedLease4_hwaddr hfetch
    dsimp only
    by_cases haddr : l.addr = addr
    · subst haddr
      cases hfind : m.storage.find l.addr with
      | none =>
        rw [find_addLease hwaddr hfind]
        simp
      | some existing =>
        dsimp only
        by_cases hnewer : existing.cltt < l.cltt
        · rw [if_pos hnewer, find_updateLease4 hwaddr hfind]
          simp [List.argmax_cons, hnewer]
        · rw [if_neg hnewer, hfind]
          simp [List.argmax_cons, hnewer]
    · -- the lease of another address stays what it was
      have hother : [l].filter (·.addr = addr) = [] := by simp [haddr]
      have hkept : ((m.storage.find addr).toList ++ []).argmax (·.cltt) = m.storage.find addr := by
        cases m.storage.find addr <;> rfl
      rw [toList_some, hother, hkept]
      cases hfind : m.storage.find l.addr with
      | none =>
        rw [find_addLease hwaddr hfind, if_neg (Ne.symm haddr)]
      | some existing =>
        dsimp only
        split
        · rw [find_updateLease4 hwaddr hfind, if_neg (Ne.symm haddr)]
        · rfl

/-! ## The loop -/

theorem asyncSyncLeases4_run : asyncSyncLeases4 A elements m =
      .ok () (elements.foldl (fun m element => after (syncLease4 A element) m) m) :=
  run_forM (fun _ _ => syncLease4_run) elements m

/-- The leases of the answer that can be parsed. -/
def fetchedLeases4 (A : IOAddressText) (elements : List Element) : List Lease4 :=
  elements.filterMap (fetchedLease4 A)

/-- The leases among which the loop chooses for one address, in the order of their arrival. -/
def contenders (A : IOAddressText) (elements : List Element) (m : Memfile lease4Spec)
    (addr : Address 32) : List Lease4 :=
  (getLease4 m.storage addr).toList ++ (fetchedLeases4 A elements).filter (·.addr = addr)

/-- The loop makes the choice among the local lease and all leases that were received. -/
theorem sync_run (A : IOAddressText) (elements : List Element) (m : Memfile lease4Spec)
    (addr : Address 32) :
    (elements.foldl (fun m element => after (syncLease4 A element) m) m).storage.find addr =
      (contenders A elements m addr).argmax (·.cltt) := by
  -- on the elements: the rest of the loop chooses between the first choice and the rest
  induction elements generalizing m with
  | nil =>
    show m.storage.find addr = ((m.storage.find addr).toList ++ []).argmax (·.cltt)
    cases m.storage.find addr <;> rfl
  | cons element elements ih =>
    have hsplit : (fetchedLeases4 A (element :: elements)).filter (·.addr = addr) =
        (fetchedLease4 A element).toList.filter (·.addr = addr) ++
          (fetchedLeases4 A elements).filter (·.addr = addr) := by
      unfold fetchedLeases4
      cases hfetch : fetchedLease4 A element with
      | none => simp [hfetch]
      | some l => simp [hfetch, List.filter_cons]; split <;> rfl
    rw [List.foldl_cons, ih]
    unfold contenders
    rw [hsplit, ← List.append_assoc]
    show (((after (syncLease4 A element) m).storage.find addr).toList ++ _).argmax _ = _
    rw [sync_step, argmax_append]
    rfl

theorem sync_settled (hfetch : fetchedLease4 A element = some l) (hmem : element ∈ elements) :
    ∃ existing, (elements.foldl (fun m element => after (syncLease4 A element) m) m).storage.find
      l.addr = some existing ∧ l.cltt ≤ existing.cltt := by
  have hl : l ∈ contenders A elements m l.addr := by
    refine List.mem_append_right _ (List.mem_filter.mpr ⟨?_, by simp⟩)
    exact List.mem_filterMap.mpr ⟨element, hmem, hfetch⟩
  rw [sync_run]
  cases hbest : (contenders A elements m l.addr).argmax (·.cltt) with
  | none =>
    rw [List.argmax_eq_none.mp hbest] at hl
    cases hl
  | some existing => exact ⟨existing, rfl, List.le_of_mem_argmax (f := fun l : Lease4 => l.cltt) hl hbest⟩

theorem asyncSyncLeases4_stale (h : ∀ element ∈ elements, ∀ l, fetchedLease4 A element = some l →
      ∃ existing, m.storage.find l.addr = some existing ∧ l.cltt ≤ existing.cltt) :
    asyncSyncLeases4 A elements m = .ok () m := by
  induction elements with
  | nil => rfl
  | cons element elements ih =>
    have hround : syncLease4 A element m = .ok () m := by
      cases hfetch : fetchedLease4 A element with
      | none =>
        rw [syncLease4_run, after_syncLease4]
        simp only [hfetch]
      | some l =>
        obtain ⟨existing, hfind, hstale⟩ := h element List.mem_cons_self l hfetch
        exact stale_run hfetch hfind hstale
    show (syncLease4 A element >>= fun _ => asyncSyncLeases4 A elements) m = _
    rw [run_bind_ok hround]
    exact ih fun other hother => h other (List.mem_cons_of_mem _ hother)

/--
**Synchronization is a merge in which the last writer wins.** For every database and every list of
leases the loop ends. Each address then holds the lease with the greatest `cltt` among the local one
and those received, the first of them when several have it. The same list changes nothing when it is
processed again, and elements that cannot be parsed are skipped.
-/
theorem lease_sync_merges (A : IOAddressText) (elements : List Element) (m : Memfile lease4Spec) :
    ∃ m', asyncSyncLeases4 A elements m = .ok () m' ∧ (∀ addr, getLease4 m'.storage addr =
        (contenders A elements m addr).argmax (·.cltt)) ∧
      (∀ addr, addr ∉ (fetchedLeases4 A elements).map (·.addr) →
        getLease4 m'.storage addr = getLease4 m.storage addr) ∧
      asyncSyncLeases4 A elements m' = .ok () m' := by
  refine ⟨_, asyncSyncLeases4_run, sync_run A elements m, ?_, ?_⟩
  · intro addr hnot
    have hnone : (fetchedLeases4 A elements).filter (·.addr = addr) = [] := by
      rw [List.filter_eq_nil_iff]
      intro l hl haddr
      exact hnot (List.mem_map.mpr ⟨l, hl, of_decide_eq_true haddr⟩)
    rw [show getLease4 _ addr = _ from sync_run A elements m addr]
    unfold contenders
    rw [hnone]
    cases getLease4 m.storage addr <;> rfl
  · refine asyncSyncLeases4_stale ?_
    intro element hmem l hfetch
    exact sync_settled hfetch hmem

end Dhcp
