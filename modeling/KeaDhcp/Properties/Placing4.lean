import KeaDhcp.Dhcpsrv.AllocEngine4

/-!
# Placing a DHCPv4 lease

What the engine does to the server when it creates a lease or takes over an expired one, and where
its search for an address ends. Which addresses it tries depends on the cursors of the allocator
only.
-/

namespace Dhcp

open Infra Engine4 SubnetPtr Lease4Storage ClientContext4 Option List Lease4

variable {env : Env} {ctx : ClientContext4} {s t : SubnetPtr 32} {st st' : Server4}
  {l : Lease4} {db : Lease4Storage}

/-! ## Reclamation before use -/

/-- The statistics after the reclamation of a lease. -/
def Lease4.reclaimStats (l : Lease4) (stats : Stats) : Stats :=
  let stats := if l.stateDeclined then
      (((stats.addValue (.subnet l.subnetId .declinedAddresses) (-1)).addValue
        (.global .declinedAddresses) (-1)).addValue
        (.global .reclaimedDeclinedAddresses) 1).addValue
        (.subnet l.subnetId .reclaimedDeclinedAddresses) 1
    else stats
  ((stats.addValue (.subnet l.subnetId .assignedAddresses) (-1)).addValue
    (.global .reclaimedLeases) 1).addValue (.subnet l.subnetId .reclaimedLeases) 1

/-- The statistics after `reclaimBeforeUse4`. -/
def Lease4.useStats (l : Lease4) (stats : Stats) : Stats :=
  if l.stateExpiredReclaimed then stats else l.reclaimStats stats

/-- The name change requests that `reclaimBeforeUse4` sends. -/
def Lease4.useNcrs (env : Env) (l : Lease4) : List (NameChangeRequest 32) :=
  if l.stateExpiredReclaimed then [] else (queueNCR4 env.d2 .remove l).toList

theorem reclaimBeforeUse4_run :
    reclaimBeforeUse4 env l st =
      .ok () { st with stats := l.useStats st.stats, ncrs := st.ncrs ++ l.useNcrs env } := by
  unfold reclaimBeforeUse4 useStats useNcrs
  split
  · simp
  · cases hd : l.stateDeclined <;>
      simp [reclaimExpiredLease4, reclaimDeclined4, reclaimStats, run_bind, hd]

/-- A lease that is due is removed, or kept in the database as reclaimed. -/
theorem reclaimExpiredLease4_run {mode : DbReclaimMode} (hmode : mode ≠ .leaveUnchanged)
    (hl : l ∈ st.leases) :
    reclaimExpiredLease4 env mode l st = .ok ()
      { st with
        leases := if l.stateDeclined || mode = .remove then st.leases.erase l.addr
          else st.leases.replace l.reclaimed
        stats := l.reclaimStats st.stats
        ncrs := st.ncrs ++ (queueNCR4 env.d2 .remove l).toList } := by
  have hget : st.leases.getLease4 l.reclaimed.addr = some l := getLease4_of_mem hl
  have hupd : ∀ stats ncrs, Engine4.updateLease4 l.reclaimed
      { st with stats := stats, ncrs := ncrs } =
        .ok () { st with leases := st.leases.replace l.reclaimed, stats := stats, ncrs := ncrs } :=
    fun stats ncrs => updateLease4_run hget
  cases hd : l.stateDeclined <;> cases mode <;>
    simp_all [reclaimExpiredLease4, reclaimDeclined4, reclaimLeaseInDatabase4,
      reclaimStats, run_bind]

/-! ## Placing a lease -/

variable {addr : Address 32}

theorem createLease4_real (hfake : ctx.fakeAllocation = false)
    (hfree : st.leases.getLease4 addr = none) :
    createLease4 env ctx s addr st = .ok (some (newLease4 env ctx s addr))
      { st with
        leases := st.leases.insert (newLease4 env ctx s addr)
        stats := st.stats.addValue (.subnet s.getID .assignedAddresses) 1 } := by
  have hadd : Engine4.addLease (newLease4 env ctx s addr) st = _ := addLease_run hfree
  simp [createLease4, hfake, run_bind, run_map, hadd]

/-- The lease that renewing or reusing `l` in the subnet writes. -/
def renewedLease4 (env : Env) (ctx : ClientContext4) (s : SubnetPtr 32) (l : Lease4) : Lease4 :=
  { updateLease4Information env ctx s l with state := .default }

@[simp] theorem renewedLease4_addr : (renewedLease4 env ctx s l).addr = l.addr := rfl

@[simp] theorem renewedLease4_subnetId : (renewedLease4 env ctx s l).subnetId = s.getID := rfl

theorem reuseExpiredLease4_real (env : Env) (s : SubnetPtr 32) (hfake : ctx.fakeAllocation = false)
    (hl : l ∈ st.leases) :
    reuseExpiredLease4 env ctx s l st = .ok (renewedLease4 env ctx s l)
      { st with
        leases := st.leases.replace (renewedLease4 env ctx s l)
        stats := (l.useStats st.stats).addValue (.subnet s.getID .assignedAddresses) 1
        ncrs := st.ncrs ++ l.useNcrs env } := by
  have hget : st.leases.getLease4 (renewedLease4 env ctx s l).addr = some l :=
    getLease4_of_mem hl
  have hupd : Engine4.updateLease4 (renewedLease4 env ctx s l)
      { st with stats := l.useStats st.stats, ncrs := st.ncrs ++ l.useNcrs env } = _ :=
    updateLease4_run hget
  simp only [renewedLease4] at hupd ⊢
  simp [reuseExpiredLease4, hfake, run_bind, run_map, reclaimBeforeUse4_run, hupd]

/-- The statistics after the renewal of `l` in the subnet. -/
def renewStats (env : Env) (s : SubnetPtr 32) (l : Lease4) (stats : Stats) : Stats :=
  if l.expired env.now then (l.useStats stats).addValue (.subnet s.getID .assignedAddresses) 1
  else if l.stateExpiredReclaimed then stats.addValue (.subnet s.getID .assignedAddresses) 1
  else stats

theorem renewLease4_real (env : Env) (s : SubnetPtr 32) (hfake : ctx.fakeAllocation = false)
    (hl : l ∈ st.leases) :
    renewLease4 env ctx s l st = .ok (renewedLease4 env ctx s l)
      { st with
        leases := st.leases.replace (renewedLease4 env ctx s l)
        stats := renewStats env s l st.stats
        ncrs := st.ncrs ++ if l.expired env.now then l.useNcrs env else [] } := by
  have hget : st.leases.getLease4 (renewedLease4 env ctx s l).addr = some l :=
    getLease4_of_mem hl
  cases hexp : l.expired env.now with
  | true =>
    have hupd : Engine4.updateLease4 (renewedLease4 env ctx s l)
        { st with stats := l.useStats st.stats, ncrs := st.ncrs ++ l.useNcrs env } = _ :=
      updateLease4_run hget
    simp only [renewedLease4] at hupd ⊢
    simp [renewLease4, renewStats, hfake, hexp, run_bind, run_map, reclaimBeforeUse4_run, hupd]
  | false =>
    have hupd : Engine4.updateLease4 (renewedLease4 env ctx s l) st = _ := updateLease4_run hget
    simp only [renewedLease4] at hupd ⊢
    cases hrc : l.stateExpiredReclaimed <;>
      simp [renewLease4, renewStats, hfake, hexp, hrc, run_bind, run_map, hupd]

/-- The database, the statistics and the name change requests are the same in both states. -/
structure Unchanged4 (st st' : Server4) : Prop where
  leases : st'.leases = st.leases
  stats : st'.stats = st.stats
  ncrs : st'.ncrs = st.ncrs

theorem Unchanged4.refl (st : Server4) : Unchanged4 st st := ⟨rfl, rfl, rfl⟩

variable {st₀ : Server4}

theorem Unchanged4.trans (h : Unchanged4 st₀ st) (h' : Unchanged4 st st') : Unchanged4 st₀ st' :=
  ⟨h'.leases.trans h.leases, h'.stats.trans h.stats, h'.ncrs.trans h.ncrs⟩

/--
A lease for `addr` in the subnet came about: it was created, it took the place of an expired
lease, or it is only offered and the database does not have it.
-/
inductive Placed4 (env : Env) (ctx : ClientContext4) (s : SubnetPtr 32) (addr : Address 32)
    (st st' : Server4) : Lease4 → Option Lease4 → Prop
  | created (hfake : ctx.fakeAllocation = false) (hfree : st.leases.getLease4 addr = none)
      (hleases : st'.leases = st.leases.insert (newLease4 env ctx s addr))
      (hstats : st'.stats = st.stats.addValue (.subnet s.getID .assignedAddresses) 1)
      (hncrs : st'.ncrs = st.ncrs) : Placed4 env ctx s addr st st' (newLease4 env ctx s addr) none
  | reused {e : Lease4} (hfake : ctx.fakeAllocation = false)
      (hexist : st.leases.getLease4 addr = some e) (hexp : e.expired env.now)
      (hleases : st'.leases = st.leases.replace (renewedLease4 env ctx s e))
      (hstats : st'.stats =
        (e.useStats st.stats).addValue (.subnet s.getID .assignedAddresses) 1)
      (hncrs : st'.ncrs = st.ncrs ++ e.useNcrs env) : Placed4 env ctx s addr st st' (renewedLease4 env ctx s e) (some e)
  | offered {lease : Lease4} {old : Option Lease4} (hfake : ctx.fakeAllocation = true)
      (haddr : lease.addr = addr) (hsubnet : lease.subnetId = s.getID)
      (hsame : Unchanged4 st st') :
      Placed4 env ctx s addr st st' lease old

variable {lease : Lease4} {old : Option Lease4}

namespace Placed4

section

variable (h : Placed4 env ctx s addr st st' lease old)

include h

theorem addr_eq : lease.addr = addr := by
  cases h with
  | created => rfl
  | reused _ hexist => exact (mem_of_getLease4 hexist).2
  | offered _ haddr => exact haddr

theorem subnetId_eq : lease.subnetId = s.getID := by
  cases h with
  | created => rfl
  | reused => rfl
  | offered _ _ hsubnet => exact hsubnet

theorem of_unchanged (hsame : Unchanged4 st₀ st) : Placed4 env ctx s addr st₀ st' lease old := by
  cases h with
  | created hfake hfree hleases hstats hncrs =>
    rw [hsame.leases] at hfree hleases
    rw [hsame.stats] at hstats
    rw [hsame.ncrs] at hncrs
    exact created hfake hfree hleases hstats hncrs
  | reused hfake hexist hexp hleases hstats hncrs =>
    rw [hsame.leases] at hexist hleases
    rw [hsame.stats] at hstats
    rw [hsame.ncrs] at hncrs
    exact reused hfake hexist hexp hleases hstats hncrs
  | offered hfake haddr hsubnet hsame' =>
    exact offered hfake haddr hsubnet (hsame.trans hsame')

end

end Placed4

theorem allocateOrReuseLease4_inUse (h : notInUse env st.leases addr = false) :
    allocateOrReuseLease4 env ctx s addr st = .ok (none, none) st := by
  cases hget : st.leases.getLease4 addr with
  | none => simp [notInUse, hget] at h
  | some e =>
    have hexp : e.expired env.now = false := by simpa [notInUse, hget] using h
    simp [allocateOrReuseLease4, run_bind, hget, hexp]

theorem allocateOrReuseLease4_free (ctx : ClientContext4) (s : SubnetPtr 32)
    (h : notInUse env st.leases addr) :
    ∃ lease old st', allocateOrReuseLease4 env ctx s addr st = .ok (some lease, old) st' ∧
      Placed4 env ctx s addr st st' lease old := by
  cases hget : st.leases.getLease4 addr with
  | none =>
    cases hfake : ctx.fakeAllocation with
    | true =>
      simp only [allocateOrReuseLease4, createLease4, run_bind, getLease4_run, hget, hfake, if_true]
      exact ⟨_, _, _, rfl, .offered hfake rfl rfl (.refl st)⟩
    | false =>
      simp only [allocateOrReuseLease4, run_bind, getLease4_run, hget,
        createLease4_real hfake hget]
      exact ⟨_, _, _, rfl, .created hfake hget rfl rfl rfl⟩
  | some e =>
    have he := mem_of_getLease4 hget
    have hexp : e.expired env.now := by simpa [notInUse, hget] using h
    cases hfake : ctx.fakeAllocation with
    | true =>
      simp only [allocateOrReuseLease4, reuseExpiredLease4, run_bind, getLease4_run, hget, hexp,
        hfake]
      exact ⟨_, _, _, rfl, .offered hfake he.2 rfl (.refl st)⟩
    | false =>
      have hreuse := reuseExpiredLease4_real env s hfake he.1
      simp only [allocateOrReuseLease4, run_bind, getLease4_run, hget, hexp, hreuse, if_true]
      exact ⟨_, _, _, rfl, .reused hfake hget hexp rfl rfl rfl⟩

/-- The address is in use, and nothing happens, or a lease is placed on it. -/
theorem allocateOrReuseLease4_run (env : Env) (ctx : ClientContext4) (s : SubnetPtr 32)
    (addr : Address 32) (st : Server4) :
    allocateOrReuseLease4 env ctx s addr st = .ok (none, none) st ∨
      ∃ lease old st', allocateOrReuseLease4 env ctx s addr st = .ok (some lease, old) st' ∧
        Placed4 env ctx s addr st st' lease old := by
  cases hfree : notInUse env st.leases addr with
  | true => exact .inr (allocateOrReuseLease4_free ctx s hfree)
  | false => exact .inl (allocateOrReuseLease4_inUse hfree)

/-! ## The allocator's walk -/

/-- The engine can lease the address: no other client has it reserved or has it now. -/
def Usable (env : Env) (ctx : ClientContext4) (s : SubnetPtr 32) (db : Lease4Storage)
    (x : Address 32) : Prop :=
  addressReserved env ctx s x = false ∧ notInUse env db x

instance (env : Env) (ctx : ClientContext4) (s : SubnetPtr 32) (db : Lease4Storage) (x : Address 32) :
    Decidable (Usable env ctx s db x) := inferInstanceAs (Decidable (_ ∧ _))

/-- The addresses of `n` picks in a row, and the cursors after them. -/
def picks (clock : Time) (s : SubnetPtr 32) (classes : ClientClasses) :
    Nat → AllocatorState 32 → List (Address 32) × AllocatorState 32
  | 0, a => ([], a)
  | n + 1, a =>
    match pickAddress clock .v4 s.subnet classes a with
    | none => ([], a)
    | some (x, a') => (x :: (picks clock s classes n a').1, (picks clock s classes n a').2)

theorem picks_succ {clock : Time} {classes : ClientClasses} {a a' : AllocatorState 32}
    {x : Address 32} (h : pickAddress clock .v4 s.subnet classes a = some (x, a')) {n : Nat} :
    picks clock s classes (n + 1) a =
      (x :: (picks clock s classes n a').1, (picks clock s classes n a').2) := by
  simp only [picks, h]

/-- The first candidate that can be used is leased; without one, only the cursors have moved. -/
def TriesOut (env : Env) (ctx : ClientContext4) (s : SubnetPtr 32) (st : Server4)
    (candidates : List (Address 32)) (a' : AllocatorState 32)
    (result : EStateM.Result EngineError Server4 (Option Lease4 × Option Lease4)) : Prop :=
  match candidates.find? fun x => Usable env ctx s st.leases x with
  | some x => ∃ lease old st', result = .ok (some lease, old) st' ∧ Placed4 env ctx s x st st' lease old
  | none => result = .ok (none, none) { st with allocator := a' }

/-- The attempts of one subnet come to the first of its candidates that can be used. -/
theorem tryCandidates4_tries (env : Env) (ctx : ClientContext4) (s : SubnetPtr 32) (n : Nat)
    (hn : n ≠ 0 → s.subnet.getPoolCapacity .v4 ctx.classes ≠ 0) (st : Server4) :
    TriesOut env ctx s st (picks env.clock s ctx.classes n st.allocator).1
      (picks env.clock s ctx.classes n st.allocator).2 (tryCandidates4 env ctx s n st) := by
  induction n generalizing st with
  | zero => simp [TriesOut, tryCandidates4, picks]
  | succ n ih =>
    obtain ⟨⟨x, a'⟩, hpick⟩ := Option.isSome_iff_exists.mp
      (pickAddress_isSome (hn (Nat.succ_ne_zero n)) env.clock st.allocator)
    have hrun : pickAddress4 env ctx s st = .ok x { st with allocator := a' } := by
      simp [pickAddress4, run_bind, run_map, hpick]
    have hmoved : Unchanged4 st { st with allocator := a' } := ⟨rfl, rfl, rfl⟩
    have ih' := ih (fun _ => hn (Nat.succ_ne_zero n)) { st with allocator := a' }
    -- A candidate that cannot be used is passed over: the others decide.
    have hrest : ¬Usable env ctx s st.leases x →
        TriesOut env ctx s st (x :: (picks env.clock s ctx.classes n a').1)
          (picks env.clock s ctx.classes n a').2
          (tryCandidates4 env ctx s n { st with allocator := a' }) := by
      intro hnot
      unfold TriesOut at ih' ⊢
      dsimp only at ih'
      rw [find?_cons_of_neg (by simpa using hnot)]
      cases hfirst : find? (fun x => Usable env ctx s st.leases x)
          (picks env.clock s ctx.classes n a').1 with
      | none =>
        rw [hfirst] at ih'
        exact ih'
      | some y =>
        rw [hfirst] at ih'
        obtain ⟨lease, old, st', hok, hplaced⟩ := ih'
        exact ⟨lease, old, st', hok, hplaced.of_unchanged hmoved⟩
    rw [tryCandidates4, run_bind_ok hrun, picks_succ hpick]
    by_cases hres : addressReserved env ctx s x
    · rw [if_pos hres]
      exact hrest fun h => by simp [h.1] at hres
    rw [if_neg hres]
    cases hfree : notInUse env st.leases x with
    | true =>
      have hgood : Usable env ctx s st.leases x := ⟨Bool.of_not_eq_true hres, hfree⟩
      have hfree' : notInUse env ({ st with allocator := a' } : Server4).leases x := hfree
      obtain ⟨lease, old, st', halloc, hplaced⟩ := allocateOrReuseLease4_free ctx s hfree'
      rw [run_bind_ok halloc, TriesOut, find?_cons_of_pos (by simpa using hgood)]
      exact ⟨lease, old, st', rfl, hplaced.of_unchanged hmoved⟩
    | false =>
      have hfree' : notInUse env ({ st with allocator := a' } : Server4).leases x = false := hfree
      rw [run_bind_ok (allocateOrReuseLease4_inUse hfree')]
      exact hrest fun h => by simp [Usable, hfree] at h

/-- The candidates of one subnet after the other. -/
def candidates4 (env : Env) (classes : ClientClasses) :
    List (SubnetPtr 32) → AllocatorState 32 → List (SubnetPtr 32 × Address 32)
  | [], _ => []
  | t :: ts, a =>
    let picked := picks env.clock t classes (maxAttempts env .v4 t.subnet classes) a
    picked.1.map (t, ·) ++ candidates4 env classes ts picked.2

/-- The candidate that can be used and comes first. -/
def firstUsable (env : Env) (ctx : ClientContext4) (db : Lease4Storage)
    (candidates : List (SubnetPtr 32 × Address 32)) : Option (SubnetPtr 32 × Address 32) :=
  candidates.find? fun c => Usable env ctx c.1 db c.2

/-- The lease is on this candidate; without one, there is no lease and nothing has changed. -/
def LeasedOn (env : Env) (ctx : ClientContext4) (st st' : Server4) (r : Allocation4) :
    Option (SubnetPtr 32 × Address 32) → Prop
  | some c => ∃ lease, r.newLease = some lease ∧ Placed4 env ctx c.1 c.2 st st' lease r.oldLease
  | none => r.newLease = none ∧ Unchanged4 st st'

theorem LeasedOn.of_unchanged {st₀ st' : Server4} {r : Allocation4}
    {c : Option (SubnetPtr 32 × Address 32)} (h : LeasedOn env ctx st st' r c)
    (hsame : Unchanged4 st₀ st) : LeasedOn env ctx st₀ st' r c := by
  cases c with
  | none => exact h.imp_right hsame.trans
  | some c => exact h.imp fun _ => And.imp_right (·.of_unchanged hsame)

/-- The walk over the subnets comes to the first of all candidates that can be used. -/
theorem trySubnets4_first (env : Env) (ctx : ClientContext4) (current : SubnetPtr 32)
    (subnets : List (SubnetPtr 32)) (st : Server4) :
    ∃ r st', trySubnets4 env ctx current subnets st = .ok r st' ∧
      LeasedOn env ctx st st' r
        (firstUsable env ctx st.leases (candidates4 env ctx.classes subnets st.allocator)) := by
  induction subnets generalizing current st with
  | nil => exact ⟨_, st, rfl, rfl, .refl st⟩
  | cons t ts ih =>
    have htry := tryCandidates4_tries env ctx t (maxAttempts env .v4 t.subnet ctx.classes)
      maxAttempts_ne_zero st
    rw [trySubnets4, candidates4, firstUsable, find?_append, find?_map]
    unfold TriesOut at htry
    split at htry
    · rename_i x hfirst
      obtain ⟨lease, old, st', hrun, hplaced⟩ := htry
      rw [run_bind_ok hrun]
      refine ⟨_, st', rfl, ?_⟩
      simp only [Function.comp_def, hfirst, Option.map_some, Option.some_or]
      exact ⟨lease, rfl, hplaced⟩
    · rename_i hnone
      rw [run_bind_ok htry]
      simp only [Function.comp_def, hnone, Option.map_none, Option.none_or]
      obtain ⟨r, st', hrun, hfirst⟩ := ih t { st with
        allocator := (picks env.clock t ctx.classes
          (maxAttempts env .v4 t.subnet ctx.classes) st.allocator).2 }
      exact ⟨r, st', hrun, hfirst.of_unchanged ⟨rfl, rfl, rfl⟩⟩

/-- The candidates from the subnet on that was used last. -/
def candidatesFrom (env : Env) (classes : ClientClasses) (s : SubnetPtr 32) (a : AllocatorState 32) :
    List (SubnetPtr 32 × Address 32) :=
  candidates4 env classes ((getPreferredSubnet a .v4 s).walkFor classes) a

/-- The search comes to the first candidate that can be used. -/
theorem allocateUnreservedLease4_first :
    ∃ r st', allocateUnreservedLease4 env ctx s st = .ok r st' ∧ LeasedOn env ctx st st' r
      (firstUsable env ctx st.leases (candidatesFrom env ctx.classes s st.allocator)) :=
  trySubnets4_first env ctx _ _ st

theorem mem_picks {clock : Time} {classes : ClientClasses} {n : Nat} {a : AllocatorState 32}
    {x : Address 32} (h : x ∈ (picks clock s classes n a).1) : s.subnet.inPoolFor .v4 x classes := by
  induction n generalizing a with
  | zero => cases h
  | succ n ih =>
    unfold picks at h
    split at h
    · cases h
    rename_i hpick
    rcases mem_cons.mp h with rfl | h
    · exact pickAddress_inPoolFor hpick
    · exact ih h

theorem mem_candidates4 {classes : ClientClasses} {subnets : List (SubnetPtr 32)}
    {a : AllocatorState 32} {c : SubnetPtr 32 × Address 32}
    (h : c ∈ candidates4 env classes subnets a) :
    c.1 ∈ subnets ∧ c.1.subnet.inPoolFor .v4 c.2 classes := by
  induction subnets generalizing a with
  | nil => cases h
  | cons t ts ih =>
    rcases mem_append.mp h with h | h
    · obtain ⟨x, hx, rfl⟩ := mem_map.mp h
      exact ⟨mem_cons_self, mem_picks hx⟩
    · exact (ih h).imp_left (mem_cons_of_mem t)

/-- A lease was placed on an address of a pool that the client may use, not reserved for others. -/
def PickedIn4 (env : Env) (ctx : ClientContext4) (s : SubnetPtr 32) (st st' : Server4)
    (lease : Lease4) (old : Option Lease4) : Prop :=
  s.subnet.inPoolFor .v4 lease.addr ctx.classes ∧ addressReserved env ctx s lease.addr = false ∧
    Placed4 env ctx s lease.addr st st' lease old

/-- What the search returns: no lease, with nothing changed, or a lease in a subnet of the network. -/
theorem allocateUnreservedLease4_run :
    ∃ r st', allocateUnreservedLease4 env ctx s st = .ok r st' ∧
      ((r.newLease = none ∧ Unchanged4 st st') ∨ ∃ lease preferred u,
        r.newLease = some lease ∧ preferred ∈ s.siblings ∧
        preferred.clientSupported ctx.classes = s.clientSupported ctx.classes ∧
        u ∈ preferred.walkFor ctx.classes ∧ PickedIn4 env ctx u st st' lease r.oldLease) := by
  obtain ⟨r, st', hrun, hleased⟩ := allocateUnreservedLease4_first
  refine ⟨r, st', hrun, ?_⟩
  cases hfirst : firstUsable env ctx st.leases (candidatesFrom env ctx.classes s st.allocator) with
  | none =>
    rw [hfirst] at hleased
    exact .inl hleased
  | some c =>
    rw [hfirst] at hleased
    obtain ⟨lease, hnew, hplaced⟩ := hleased
    obtain ⟨hmem, hpool⟩ := mem_candidates4 (mem_of_find?_eq_some hfirst)
    have husable : Usable env ctx c.1 st.leases c.2 := by simpa using find?_some hfirst
    have haddr := hplaced.addr_eq
    rw [← haddr] at hpool husable hplaced
    exact .inr ⟨lease, getPreferredSubnet st.allocator .v4 s, c.1, hnew,
      (getPreferredSubnet_spec _ _ _).1, getPreferredSubnet_supported _ _ _, hmem, hpool, husable.1,
      hplaced⟩

end Dhcp
