import KeaDhcp.Dhcpsrv.AllocEngine6

/-!
# What the steps of DHCPv6 allocation do

One lemma per function of the engine: the value it returns and the state it leaves behind. The
properties of whole calls are derived from these.
-/

namespace Dhcp

open Infra ServerM6 Engine6 MultiIndex Lease6Storage SubnetPtr List Lease6

variable {env : Env} {ctx : ClientContext6} {s : SubnetPtr 128} {st st' : Server6}
  {sn sn' : Session6}

/-! ## Reclamation -/

/-- The statistics after the reclamation of a lease. -/
def Lease6.reclaimStats (l : Lease6) (stats : Stats) : Stats :=
  let stats := if l.stateDeclined then
      (((stats.addValue (.subnet l.subnetId .declinedAddresses) (-1)).addValue
        (.global .declinedAddresses) (-1)).addValue
        (.global .reclaimedDeclinedAddresses) 1).addValue
        (.subnet l.subnetId .reclaimedDeclinedAddresses) 1
    else stats
  let stats := match l.type.assignedStat with
    | some name => stats.addValue (.subnet l.subnetId name) (-1)
    | none => stats
  (stats.addValue (.global .reclaimedLeases) 1).addValue (.subnet l.subnetId .reclaimedLeases) 1

/-- The statistics after `reclaimBeforeUse6`. -/
def Lease6.useStats (l : Lease6) (stats : Stats) : Stats :=
  if l.stateExpiredReclaimed then stats else l.reclaimStats stats

theorem reclaimBeforeUse6_run (env : Env) (l : Lease6) (st : Server6) :
    ∃ ncrs, reclaimBeforeUse6 env l st =
      .ok () { st with stats := l.useStats st.stats, ncrs := ncrs } := by
  unfold reclaimBeforeUse6 useStats
  split
  · exact ⟨st.ncrs, rfl⟩
  refine ⟨st.ncrs ++ (queueNCR6 env.d2 .remove l).toList, ?_⟩
  cases hd : l.stateDeclined <;> cases ht : l.type.assignedStat <;>
    simp [reclaimExpiredLease6, reclaimDeclined6, reclaimStats, run_bind, hd, ht]

variable {l : Lease6}

/-- A lease that is due is removed, or kept in the database as reclaimed. -/
theorem reclaimExpiredLease6_run {mode : DbReclaimMode} (hmode : mode ≠ .leaveUnchanged)
    (hl : l ∈ st.leases) :
    ∃ ncrs, reclaimExpiredLease6 env mode l st = .ok ()
      { st with
        leases := if l.stateDeclined || mode = .remove then st.leases.erase l.addr
          else st.leases.replace l.reclaimed
        stats := l.reclaimStats st.stats
        ncrs := ncrs } := by
  have hfind : st.leases.find l.reclaimed.addr = some l := find_eq_some_iff.mpr ⟨hl, rfl⟩
  have hupd : ∀ stats ncrs, ServerM6.updateLease6 l.reclaimed
      { st with stats := stats, ncrs := ncrs } =
        .ok () { st with leases := st.leases.replace l.reclaimed, stats := stats, ncrs := ncrs } :=
    fun stats ncrs => updateLease6_run hfind
  cases hd : l.stateDeclined <;> cases mode <;> cases ht : l.type.assignedStat <;>
    simp_all [reclaimExpiredLease6, reclaimDeclined6, reclaimLeaseInDatabase6,
      reclaimStats, run_bind]

/-! ## Placing a lease -/

/-- The statistics after `countPlaced6`. -/
def placedStats6 (ctx : ClientContext6) (s : SubnetPtr 128) (addr : Address 128) (stats : Stats) :
    Stats :=
  if s.subnet.inPool ctx.type addr then stats.addValue (.subnet s.getID ctx.statName) 1 else stats

variable {addr : Address 128}

@[simp] theorem countPlaced6_run :
    countPlaced6 ctx s addr st = .ok () { st with stats := placedStats6 ctx s addr st.stats } := by
  unfold countPlaced6 placedStats6
  split <;> rfl

variable {len : Nat}

theorem createLease6_real (hfake : ctx.fakeAllocation = false)
    (hfree : sn.server.leases.getLease6 ctx.type addr = none) :
    createLease6 env ctx addr len sn = .ok (some (newLease6 env ctx sn.subnet sn.hostname addr len))
      { sn with
        server :=
          { sn.server with
            leases := sn.server.leases.insert (newLease6 env ctx sn.subnet sn.hostname addr len)
            stats := placedStats6 ctx sn.subnet addr sn.server.stats } } := by
  have hadd : ServerM6.addLease (newLease6 env ctx sn.subnet sn.hostname addr len) sn.server = _ :=
    addLease_run hfree
  simp [createLease6, hfake, run_bind, run_map, lift_run, hadd]

theorem createLease6_fake (hfake : ctx.fakeAllocation = true)
    (hfree : sn.server.leases.getLease6 ctx.type addr = none) :
    createLease6 env ctx addr len sn =
      .ok (some (newLease6 env ctx sn.subnet sn.hostname addr len)) sn := by
  simp [createLease6, hfake, run_bind, run_map, lift_run, hfree]

theorem reuseExpiredLease6_real (env : Env) (hfake : ctx.fakeAllocation = false) (len : Nat)
    (hexp : l.expired env.now) (hl : l ∈ sn.server.leases) :
    ∃ ncrs, reuseExpiredLease6 env ctx l len sn =
      .ok (reusedLease6 env ctx sn.subnet sn.hostname l len) { sn with
        server :=
          { sn.server with
            leases := sn.server.leases.replace (reusedLease6 env ctx sn.subnet sn.hostname l len)
            stats := placedStats6 ctx sn.subnet l.addr (l.useStats sn.server.stats)
            ncrs := ncrs } } := by
  obtain ⟨ncrs, hrec⟩ := reclaimBeforeUse6_run env l sn.server
  have hfind : sn.server.leases.find (reusedLease6 env ctx sn.subnet sn.hostname l len).addr = some l :=
    find_eq_some_iff.mpr ⟨hl, rfl⟩
  have hupd : ServerM6.updateLease6 (reusedLease6 env ctx sn.subnet sn.hostname l len)
      { sn.server with stats := l.useStats sn.server.stats, ncrs := ncrs } = _ :=
    updateLease6_run hfind
  simp [reuseExpiredLease6, hfake, hexp, run_bind, run_map, lift_run, hrec, hupd]

theorem reuseExpiredLease6_fake (hfake : ctx.fakeAllocation = true) (hexp : l.expired env.now) :
    reuseExpiredLease6 env ctx l len sn =
      .ok (reusedLease6 env ctx sn.subnet sn.hostname l len) sn := by
  simp [reuseExpiredLease6, hfake, hexp, run_bind]

/-- The database and the statistics are the same in both states. -/
structure Unchanged6 (st st' : Server6) : Prop where
  leases : st'.leases = st.leases
  stats : st'.stats = st.stats

theorem Unchanged6.refl (st : Server6) : Unchanged6 st st := ⟨rfl, rfl⟩

variable {st₀ : Server6}

theorem Unchanged6.trans (h : Unchanged6 st₀ st) (h' : Unchanged6 st st') : Unchanged6 st₀ st' :=
  ⟨h'.leases.trans h.leases, h'.stats.trans h.stats⟩

/--
A lease for `addr` in the subnet came about: it was created, it took the place of an expired
lease, or it is only offered and the database does not have it.
-/
inductive Placed6 (env : Env) (ctx : ClientContext6) (s : SubnetPtr 128) (addr : Address 128)
    (st st' : Server6) : Lease6 → Prop
  | created {hostname : String} {len : Nat} (hfake : ctx.fakeAllocation = false)
      (hfree : st.leases.getLease6 ctx.type addr = none)
      (hleases : st'.leases = st.leases.insert (newLease6 env ctx s hostname addr len))
      (hstats : st'.stats = placedStats6 ctx s addr st.stats) :
      Placed6 env ctx s addr st st' (newLease6 env ctx s hostname addr len)
  | reused {e : Lease6} {hostname : String} {len : Nat} (hfake : ctx.fakeAllocation = false)
      (hexist : st.leases.getLease6 ctx.type addr = some e) (hexp : e.expired env.now)
      (hleases : st'.leases = st.leases.replace (reusedLease6 env ctx s hostname e len))
      (hstats : st'.stats = placedStats6 ctx s addr (e.useStats st.stats)) :
      Placed6 env ctx s addr st st' (reusedLease6 env ctx s hostname e len)
  | offered {lease : Lease6} (hfake : ctx.fakeAllocation = true) (haddr : lease.addr = addr)
      (hsubnet : lease.subnetId = s.getID) (hsame : Unchanged6 st st') :
      Placed6 env ctx s addr st st' lease

variable {lease : Lease6}

namespace Placed6

section

variable (h : Placed6 env ctx s addr st st' lease)

include h

theorem addr_eq : lease.addr = addr := by
  cases h with
  | created => rfl
  | reused _ hexist => exact (getLease6_eq_some.mp hexist).2.1
  | offered _ haddr => exact haddr

theorem subnetId_eq : lease.subnetId = s.getID := by
  cases h with
  | created => rfl
  | reused => rfl
  | offered _ _ hsubnet => exact hsubnet

theorem unchanged_of_fake (hfake : ctx.fakeAllocation = true) : Unchanged6 st st' := by
  cases h with
  | created hreal | reused hreal => simp [hfake] at hreal
  | offered _ _ _ hsame => exact hsame

theorem of_unchanged (hsame : Unchanged6 st₀ st) : Placed6 env ctx s addr st₀ st' lease := by
  cases h with
  | created hfake hfree hleases hstats =>
    rw [hsame.leases] at hfree hleases
    rw [hsame.stats] at hstats
    exact created hfake hfree hleases hstats
  | reused hfake hexist hexp hleases hstats =>
    rw [hsame.leases] at hexist hleases
    rw [hsame.stats] at hstats
    exact reused hfake hexist hexp hleases hstats
  | offered hfake haddr hsubnet hsame' =>
    exact offered hfake haddr hsubnet (hsame.trans hsame')

end

end Placed6

/-- `createLease6` on an address without a lease of its type places one in the current subnet. -/
theorem createLease6_post (hfree : sn.server.leases.getLease6 ctx.type addr = none) :
    Yields (createLease6 env ctx addr len) sn
      fun r sn' => ∃ lease, r = some lease ∧ sn'.subnet = sn.subnet ∧
        Placed6 env ctx sn.subnet addr sn.server sn'.server lease := by
  cases hfake : ctx.fakeAllocation with
  | true =>
    exact .of_ok (createLease6_fake hfake hfree)
      ⟨_, rfl, rfl, .offered hfake rfl rfl (.refl _)⟩
  | false =>
    exact .of_ok (createLease6_real hfake hfree)
      ⟨_, rfl, rfl, .created hfake hfree rfl rfl⟩

/-- `reuseExpiredLease` on an expired lease places one in the current subnet. -/
theorem reuseExpiredLease6_post (hexp : l.expired env.now)
    (hexist : sn.server.leases.getLease6 ctx.type addr = some l) :
    Yields (reuseExpiredLease6 env ctx l len) sn
      fun lease sn' => sn'.subnet = sn.subnet ∧
        Placed6 env ctx sn.subnet addr sn.server sn'.server lease := by
  obtain ⟨hl, haddr, -⟩ := getLease6_eq_some.mp hexist
  subst haddr
  cases hfake : ctx.fakeAllocation with
  | true =>
    exact .of_ok (reuseExpiredLease6_fake hfake hexp)
      ⟨rfl, .offered hfake rfl rfl (.refl _)⟩
  | false =>
    obtain ⟨ncrs, hrun⟩ := reuseExpiredLease6_real env hfake len hexp hl
    exact .of_ok hrun ⟨rfl, .reused hfake hexist hexp rfl rfl⟩

/-! ## Removal passes -/

/-- The database without these leases. -/
def eraseAll (removed : List Lease6) (db : Lease6Storage) : Lease6Storage :=
  removed.foldl (fun db l => db.erase l.addr) db

/-- The statistics, with each of these leases subtracted once. -/
def uncountAll (ctx : ClientContext6) (removed : List Lease6) (stats : Stats) : Stats :=
  removed.foldl (fun stats l => stats.addValue (.subnet l.subnetId ctx.statName) (-1)) stats

variable {removed : List Lease6} {db : Lease6Storage}

theorem mem_eraseAll {a : Lease6} :
    a ∈ eraseAll removed db ↔ a ∈ db ∧ ∀ l ∈ removed, a.addr ≠ l.addr := by
  induction removed generalizing db with
  | nil => simp [eraseAll]
  | cons l ls ih =>
    rw [eraseAll, foldl_cons, ← eraseAll, ih, mem_erase, lease6Spec_key,
      forall_mem_cons, and_assoc]

theorem uncountAll_apply {stats : Stats} {k : StatKey} :
    uncountAll ctx removed stats k =
      stats k - removed.countP fun l => k = .subnet l.subnetId ctx.statName := by
  induction removed generalizing stats with
  | nil => simp [uncountAll]
  | cons l ls ih =>
    rw [uncountAll, foldl_cons, ← uncountAll, ih, countP_cons]
    split
    · simp_all
      omega
    · simp_all

/-- These leases, and nothing else, were removed from the database and from the statistics. -/
structure Removed6 (ctx : ClientContext6) (removed : List Lease6) (st st' : Server6) : Prop where
  leases : st'.leases = eraseAll removed st.leases
  stats : st'.stats = uncountAll ctx removed st.stats

theorem Removed6.of_unchanged (ctx : ClientContext6) (h : Unchanged6 st st') : Removed6 ctx [] st st' :=
  ⟨h.leases, h.stats⟩

variable {removed' : List Lease6}

theorem Removed6.append (h : Removed6 ctx removed st₀ st) (h' : Removed6 ctx removed' st st') :
    Removed6 ctx (removed ++ removed') st₀ st' where
  leases := by rw [h'.leases, h.leases, eraseAll, eraseAll, eraseAll, foldl_append]
  stats := by rw [h'.stats, h.stats, uncountAll, uncountAll, uncountAll, foldl_append]

/-- The leases were removed, and the context is where it was. -/
structure Dropped6 (ctx : ClientContext6) (removed : List Lease6) (sn sn' : Session6) : Prop extends
    Removed6 ctx removed sn.server sn'.server where
  subnet : sn'.subnet = sn.subnet
  hostSubnet : sn'.hostSubnet = sn.hostSubnet
  hostname : sn'.hostname = sn.hostname
  allocator : sn'.server.allocator = sn.server.allocator

theorem Dropped6.nil (ctx : ClientContext6) (sn : Session6) : Dropped6 ctx [] sn sn :=
  ⟨⟨rfl, rfl⟩, rfl, rfl, rfl, rfl⟩

theorem Dropped6.append {sn₀ : Session6} (h : Dropped6 ctx removed sn₀ sn)
    (h' : Dropped6 ctx removed' sn sn') :
    Dropped6 ctx (removed ++ removed') sn₀ sn' where
  toRemoved6 := h.toRemoved6.append h'.toRemoved6
  subnet := h'.subnet.trans h.subnet
  hostSubnet := h'.hostSubnet.trans h.hostSubnet
  hostname := h'.hostname.trans h.hostname
  allocator := h'.allocator.trans h.allocator

theorem removeLease6_post (env : Env) (ctx : ClientContext6) (l : Lease6) (sn : Session6) :
    Yields (removeLease6 env ctx l) sn fun _ sn' => Dropped6 ctx [l] sn sn' := by
  have hrun : removeLease6 env ctx l sn = .ok ()
      { sn with
        server :=
          { sn.server with
            leases := sn.server.leases.erase l.addr
            stats := sn.server.stats.addValue (.subnet l.subnetId ctx.statName) (-1)
            ncrs := sn.server.ncrs ++ (queueNCR6 env.d2 .remove l).toList }
        oldLeases := sn.oldLeases ++ [l] } := by
    simp [removeLease6, run_bind, lift_run]
  exact .of_ok hrun ⟨⟨rfl, rfl⟩, rfl, rfl, rfl, rfl⟩

/--
What a removal pass makes of a list: the leases that it removes, and the ones that it leaves or
the exception that ends it.
-/
structure Pass6 where
  removed : List Lease6
  kept : Except EngineError (List Lease6)

/--
The pass that removes what `keep` does not keep. With a number of leases to begin with, it stops
when one lease is left.
-/
def sift (keep : Lease6 → Except EngineError Bool) : Option Nat → List Lease6 → Pass6
  | _, [] => { removed := [], kept := .ok [] }
  | total, l :: ls =>
    match keep l with
    | .error e => { removed := [], kept := .error e }
    | .ok true =>
      { removed := (sift keep total ls).removed, kept := (sift keep total ls).kept.map (l :: ·) }
    | .ok false =>
      if total = some 2 then { removed := [l], kept := .ok ls }
      else
        { removed := l :: (sift keep (total.map (· - 1)) ls).removed
          kept := (sift keep (total.map (· - 1)) ls).kept }

/-- The computation carries out the pass. -/
def Pass6.CarriedOut (p : Pass6) (ctx : ClientContext6) (x : Engine6 (List Lease6)) (sn : Session6) :
    Prop :=
  Post x sn (fun kept sn' => p.kept = .ok kept ∧ Dropped6 ctx p.removed sn sn')
    fun e sn' => p.kept = .error e ∧ Dropped6 ctx p.removed sn sn'

/-- The loop of a pass when the leases `pre` in front are settled already. -/
theorem removeUnkept6_post (env : Env) (ctx : ClientContext6)
    (keep : Lease6 → Except EngineError Bool) (pre copy : List Lease6)
    (hnodup : ((pre ++ copy).map (·.addr)).Nodup) (sn : Session6) :
    Post (removeUnkept6 env ctx keep copy (pre ++ copy)) sn
      (fun r sn' => (∃ kept, (sift keep none copy).kept = .ok kept ∧ r = pre ++ kept) ∧
        Dropped6 ctx (sift keep none copy).removed sn sn')
      fun e sn' => (sift keep none copy).kept = .error e ∧ Dropped6 ctx (sift keep none copy).removed sn sn' := by
  induction copy generalizing pre sn with
  | nil => exact .pure ⟨⟨[], rfl, rfl⟩, .nil ctx sn⟩
  | cons l ls ih =>
    unfold removeUnkept6 sift
    cases hkeep : keep l with
    | error e => exact .of_error (run_throw e sn) ⟨rfl, .nil ctx sn⟩
    | ok verdict =>
      cases verdict with
      | true =>
        have happ : pre ++ l :: ls = (pre ++ [l]) ++ ls := by simp
        rw [happ] at hnodup ⊢
        refine .mono (ih (pre ++ [l]) hnodup sn) ?_ ?_
        · rintro r sn' ⟨⟨kept, hkept, rfl⟩, hrem⟩
          exact ⟨⟨l :: kept, by rw [hkept]; rfl, by simp⟩, hrem⟩
        · rintro e sn' ⟨hkept, hrem⟩
          exact ⟨by rw [hkept]; rfl, hrem⟩
      | false =>
        have hrest : removeLeases (pre ++ l :: ls) l.addr = pre ++ ls := by
          have hne : ∀ m ∈ pre ++ ls, m.addr ≠ l.addr := by
            intro m hm heq
            have hperm : (l :: (pre ++ ls)).Perm (pre ++ l :: ls) := perm_middle.symm
            have hcons := (hperm.map (·.addr)).nodup_iff.mpr hnodup
            exact (nodup_cons.mp hcons).1 (mem_map.mpr ⟨m, hm, heq⟩)
          have hfilter : (pre ++ ls).filter (fun m => decide (m.addr ≠ l.addr)) = pre ++ ls :=
            filter_eq_self.mpr fun m hm => decide_eq_true (hne m hm)
          simpa [removeLeases] using hfilter
        have hsub : (pre ++ ls).Sublist (pre ++ l :: ls) :=
          (sublist_cons_self l ls).append_left pre
        refine Yields.seq (removeLease6_post env ctx l sn) ?_
        intro _ sn₁ hrem₁
        rw [hrest]
        refine .mono (ih pre (hnodup.sublist (hsub.map _)) sn₁) ?_ ?_
        · rintro r sn' ⟨hkept, hrem⟩
          exact ⟨hkept, hrem₁.append hrem⟩
        · rintro e sn' ⟨hkept, hrem⟩
          exact ⟨hkept, hrem₁.append hrem⟩

variable {leases : List Lease6}

theorem removeNonmatching_post (hnodup : (leases.map (·.addr)).Nodup) :
    (sift (mayKeep6 env ctx sn.subnet) none leases).CarriedOut ctx
      (removeNonmatchingReservedLeases6 env ctx leases) sn := by
  refine .imp (removeUnkept6_post env ctx _ [] leases hnodup sn) ?_
  rintro r sn' ⟨⟨kept, hkept, rfl⟩, hrem⟩
  exact ⟨hkept, hrem⟩

theorem removeNonreserved6_post (env : Env) (ctx : ClientContext6) (total : Nat)
    (leases : List Lease6) (sn : Session6) :
    (sift (isReserved6 ctx) (some total) leases).CarriedOut ctx
      (removeNonreserved6 env ctx total leases) sn := by
  induction leases generalizing total sn with
  | nil =>
    exact .pure ⟨rfl, .nil ctx sn⟩
  | cons l ls ih =>
    unfold removeNonreserved6 sift
    cases hres : isReserved6 ctx l with
    | error e => exact .of_error (run_throw e sn) ⟨rfl, .nil ctx sn⟩
    | ok verdict =>
      cases verdict with
      | true =>
        refine .bind (.mono (ih total sn) ?_ ?_)
        · rintro kept sn' ⟨hkept, hrem⟩
          exact .pure ⟨by simp [hkept, Except.map], hrem⟩
        · rintro e sn' ⟨hkept, hrem⟩
          exact ⟨by simp [hkept, Except.map], hrem⟩
      | false =>
        refine Yields.seq (removeLease6_post env ctx l sn) ?_
        intro _ sn₁ hrem₁
        by_cases hlast : total = 2
        · subst hlast
          exact .pure ⟨rfl, hrem₁⟩
        have hmore : total - 1 ≠ 1 := by omega
        simp only [hmore, Option.some.injEq, hlast]
        refine .mono (ih (total - 1) sn₁) ?_ ?_
        · rintro kept sn' ⟨hkept, hrem⟩
          exact ⟨hkept, hrem₁.append hrem⟩
        · rintro e sn' ⟨hkept, hrem⟩
          exact ⟨hkept, hrem₁.append hrem⟩

theorem removeNonreserved_post (env : Env) (ctx : ClientContext6) (leases : List Lease6)
    (sn : Session6) :
    (sift (isReserved6 ctx) (some leases.length) leases).CarriedOut ctx
      (removeNonreservedLeases6 env ctx leases) sn :=
  removeNonreserved6_post env ctx leases.length leases sn

variable {e : EngineError}

section Passes

variable {keep : Lease6 → Except EngineError Bool} {kept : List Lease6} {total : Option Nat}

/-- A pass that ends well parts the list. -/
theorem sift_perm (h : (sift keep total leases).kept = .ok kept) :
    ((sift keep total leases).removed ++ kept).Perm leases := by
  fun_induction sift keep total leases generalizing kept with
  | case1 =>
    cases h
    exact .nil
  | case2 => cases h
  | case3 total l ls hl ih =>
    obtain ⟨rest, hrest, rfl⟩ := except_map_eq_ok h
    exact perm_middle.trans ((ih hrest).cons l)
  | case4 =>
    cases h
    exact .refl _
  | case5 total l ls hl htotal ih => exact (ih h).cons l

theorem sift_removed_sublist (keep : Lease6 → Except EngineError Bool) (total : Option Nat)
    (leases : List Lease6) : (sift keep total leases).removed.Sublist leases := by
  fun_induction sift keep total leases with
  | case1 => exact .slnil
  | case2 => exact nil_sublist _
  | case3 total l ls hl ih => exact ih.cons l
  | case4 l ls => exact (nil_sublist ls).cons_cons l
  | case5 total l ls hl htotal ih => exact ih.cons_cons l

theorem sift_removed_eq_nil :
    (sift keep total leases).removed = [] ↔ leases.allM keep ≠ .ok false := by
  fun_induction sift keep total leases with
  | case1 => simp [pure, Except.pure]
  | case2 total l ls e hl => simp [hl, bind, Except.bind]
  | case3 total l ls hl ih => simpa [hl, bind, Except.bind] using ih
  | case4 l ls hl | case5 total l ls hl => simp [hl, bind, Except.bind, pure, Except.pure]

theorem sift_of_allM (h : leases.allM keep ≠ .ok false) :
    sift keep total leases = { removed := [], kept := (leases.allM keep).map fun _ => leases } := by
  fun_induction sift keep total leases with
  | case1 => rfl
  | case2 total l ls e hl => simp [hl, bind, Except.bind, Except.map]
  | case3 total l ls hl ih =>
    have hls : ls.allM keep ≠ .ok false := by simpa [hl, bind, Except.bind] using h
    simp only [allM, hl, bind, ih hls]
    cases ls.allM keep <;> rfl
  | case4 l ls hl | case5 total l ls hl => simp [hl, bind, Except.bind, pure, Except.pure] at h

theorem sift_error (h : (sift keep total leases).kept = .error e) :
    ∃ l ∈ leases, keep l = .error e := by
  fun_induction sift keep total leases with
  | case1 => cases h
  | case2 total l ls e hl =>
    cases h
    exact ⟨l, mem_cons_self, hl⟩
  | case3 total l ls hl ih =>
    obtain ⟨m, hm, hkeep⟩ := ih (except_map_eq_error h)
    exact ⟨m, mem_cons_of_mem l hm, hkeep⟩
  | case4 => cases h
  | case5 total l ls hl htotal ih =>
    obtain ⟨m, hm, hkeep⟩ := ih h
    exact ⟨m, mem_cons_of_mem l hm, hkeep⟩

theorem keep_of_sift (h : (sift keep none leases).kept = .ok kept) (hl : l ∈ kept) :
    keep l = .ok true := by
  generalize hnone : none = total at h
  fun_induction sift keep total leases generalizing kept with
  | case1 =>
    cases h
    cases hl
  | case2 => cases h
  | case3 total m ms hm ih =>
    obtain ⟨rest, hrest, rfl⟩ := except_map_eq_ok h
    rcases mem_cons.mp hl with rfl | hl
    · exact hm
    · exact ih hl hnone hrest
  | case4 => cases hnone
  | case5 total m ms hm htotal ih => exact ih hl (hnone ▸ rfl) h

theorem keep_of_sift_removed (hl : l ∈ (sift keep total leases).removed) : keep l = .ok false := by
  fun_induction sift keep total leases with
  | case1 | case2 => cases hl
  | case3 total m ms hm ih => exact ih hl
  | case4 m ms hm => exact mem_singleton.mp hl ▸ hm
  | case5 total m ms hm htotal ih =>
    rcases mem_cons.mp hl with rfl | hl
    · exact hm
    · exact ih hl

theorem mem_of_sift (h : (sift keep total leases).kept = .ok kept) (hl : l ∈ leases)
    (hkeep : keep l = .ok true) : l ∈ kept := by
  refine (mem_append.mp ((sift_perm h).mem_iff.mpr hl)).resolve_left fun hrem => ?_
  rw [keep_of_sift_removed hrem] at hkeep
  cases hkeep

/--
A pass that counts the leases, `k` of which it has kept so far, differs from one that does not in
one case: when everything before the last lease goes, the last lease stays without a look at it.
-/
theorem sift_counted (keep : Lease6 → Except EngineError Bool) (k : Nat) (pre : List Lease6)
    (l : Lease6) :
    (sift keep (some (k + pre.length + 1)) (pre ++ [l])).kept =
      if k = 0 ∧ pre ≠ [] ∧ ∀ m ∈ pre, keep m = .ok false then .ok [l]
      else (sift keep none (pre ++ [l])).kept := by
  induction pre generalizing k with
  | nil => rcases hl : keep l with e | _ | _ <;> simp [sift]
  | cons m pre ih =>
    rw [cons_append, sift, sift]
    rcases hm : keep m with e | _ | _
    · simp [hm]
    · have hone : k + (pre.length + 1) + 1 = 2 ↔ k = 0 ∧ pre = [] := by
        rw [← length_eq_zero_iff]
        omega
      by_cases hlast : k = 0 ∧ pre = []
      · simp [hlast, hm]
      have hleft : k + (pre.length + 1) + 1 - 1 = k + pre.length + 1 := rfl
      have hpre : k = 0 → pre ≠ [] := fun hk hp => hlast ⟨hk, hp⟩
      simp only [length_cons, Option.some.injEq, hone,
        Option.map_some, hleft, ih, forall_mem_cons, hm]
      by_cases hk : k = 0
      · simp [hpre hk]
      · simp [hk]
    · have hkept := ih (k + 1)
      rw [show k + 1 + pre.length + 1 = k + (pre.length + 1) + 1 by omega] at hkept
      simp [hkept, hm]

/-- A pass that does not count looks at every lease. -/
theorem looked_of_sift (h : (sift keep none leases).kept = .ok kept) :
    ∀ m ∈ leases, ∃ b, keep m = .ok b := by
  intro m hm
  rcases mem_append.mp ((sift_perm h).mem_iff.mpr hm) with hrem | hkept
  · exact ⟨false, keep_of_sift_removed hrem⟩
  · exact ⟨true, keep_of_sift h hkept⟩

end Passes

/-! ## The leases of the client -/

section ClientLeases

variable {duid : DUID}

theorem mem_clientLeases6 :
    l ∈ clientLeases6 ctx duid db s ↔ l ∈ db ∧ l.duid = some duid ∧ l.iaid = ctx.iaid ∧
      l.type = ctx.type ∧ ∃ t ∈ s.siblings, l.subnetId = t.getID := by
  simp only [clientLeases6, List.mem_flatMap, getLeases6InSubnet, List.mem_filter,
    mem_getLeases6, mem_walk, decide_eq_true_eq]
  constructor
  · rintro ⟨t, ht, ⟨hdb, hduid, hiaid, htype⟩, hid⟩
    exact ⟨hdb, hduid, hiaid, htype, t, ht, hid⟩
  · rintro ⟨hdb, hduid, hiaid, htype, t, ht, hid⟩
    exact ⟨t, ht, ⟨hdb, hduid, hiaid, htype⟩, hid⟩

theorem clientLeases6_nodup : ((clientLeases6 ctx duid db s).map (·.addr)).Nodup := by
  rw [clientLeases6, map_flatMap, nodup_flatMap]
  refine ⟨fun t _ => ?_, ?_⟩
  · exact nodup_of_sublist_seq (d := db) (i := Lease6Index.duidIaidType)
      (filter_sublist.trans filter_sublist)
  have hids : s.walk.Pairwise fun t u => t.getID ≠ u.getID :=
    pairwise_map.mp walk_ids_nodup
  refine hids.imp fun {t u} hne => ?_
  intro addr ht hu
  obtain ⟨l, hl, rfl⟩ := mem_map.mp ht
  obtain ⟨m, hm, hlm⟩ := mem_map.mp hu
  simp only [getLeases6InSubnet, List.mem_filter, mem_getLeases6,
    decide_eq_true_eq] at hl hm
  have heq : m = l := eq_of_key_eq hm.1.1 hl.1.1 hlm
  subst heq
  exact hne (hl.2.symm.trans hm.2)

end ClientLeases

/-! ## Reservations of the client -/

/-- The only exception of the checks is the one of `IPv6Resrv`. -/
theorem hasReservation_error {type : ResrvType} (h : ctx.hasReservation l type len = .error e) :
    e = .badValue := by
  unfold ClientContext6.hasReservation at h
  split at h
  · cases h
  split at h
  · cases h
  · cases h
    rfl

theorem mayKeep6_error (h : mayKeep6 env ctx s l = .error e) : e = .badValue := by
  unfold mayKeep6 at h
  split at h
  · cases h
  unfold keepsReserved at h
  split at h
  · rename_i hres
    cases h
    exact hasReservation_error hres
  · cases h
  · cases h

theorem isReserved6_error (h : isReserved6 ctx l = .error e) : e = .badValue := by
  unfold isReserved6 at h
  split at h
  · cases h
    rfl
  · cases h

theorem findReservedLease_error (h : findReservedLease ctx leases = .error e) : e = .badValue := by
  fun_induction findReservedLease ctx leases with
  | case1 | case4 => cases h
  | case2 m ms hlft ih => exact ih h
  | case3 m ms hlft e' hres =>
    cases h
    exact hasReservation_error hres
  | case5 m ms hlft hres ih => exact ih h

/-- The lease that is written with a new lifetime takes the place of its former self. -/
theorem find_extended (env : Env) {k : Lease6} (hk : k ∈ db) :
    db.find (lease6Spec.key (conditionalExtendLifetime env k)) = some k :=
  find_eq_some_iff.mpr ⟨hk, rfl⟩

theorem findReservedLease_mem (h : findReservedLease ctx leases = .ok (some l)) :
    l ∈ leases ∧ ctx.hasReservation l ctx.resrvType l.prefixlen = .ok true := by
  fun_induction findReservedLease ctx leases with
  | case1 | case3 => cases h
  | case2 m ms hlft ih => exact ⟨mem_cons_of_mem m (ih h).1, (ih h).2⟩
  | case4 m ms hlft hres =>
    cases h
    exact ⟨mem_cons_self, hres⟩
  | case5 m ms hlft hres ih => exact ⟨mem_cons_of_mem m (ih h).1, (ih h).2⟩

variable {t : SubnetPtr 128} {h : Host}

theorem findFreeReservation_some {r : IPv6Resrv}
    (hfree : findFreeReservation ctx db s = some (t, h, r)) :
    t ∈ s.siblings ∧ t.clientSupported ctx.classes ∧ ctx.findHost t.getID = some h ∧
      r ∈ h.getIPv6Reservations ctx.resrvType ∧ db.getLease6 ctx.type r.addr = none := by
  obtain ⟨u, hu, hsome⟩ := exists_of_findSome?_eq_some hfree
  split at hsome
  · rename_i hsupported
    obtain ⟨k, hk, hmap⟩ := Option.bind_eq_some_iff.mp hsome
    obtain ⟨r', hr', heq⟩ := Option.map_eq_some_iff.mp hmap
    obtain ⟨rfl, rfl, rfl⟩ := heq
    have hcond := find?_some hr'
    simp only [Bool.and_eq_true, Option.isNone_iff_eq_none] at hcond
    exact ⟨mem_walk.mp hu, hsupported, hk, mem_of_find?_eq_some hr', hcond.2⟩
  · cases hsome

/-- The lease that a free reservation is turned into. -/
def reservedLease6 (env : Env) (ctx : ClientContext6) (sn : Session6) (t : SubnetPtr 128) (h : Host)
    (r : IPv6Resrv) : Lease6 :=
  newLease6 env ctx t (stickToHost env ctx (some t) (some h) sn).hostname r.addr r.len

/--
What `allocateReservedLeases6` decides: the subnet it moves to, and the list with the lease that
is extended or added.
-/
def planned6 (env : Env) (ctx : ClientContext6) (sn : Session6) (leases : List Lease6) :
    Except EngineError (SubnetPtr 128 × List Lease6) :=
  if ctx.hosts.isEmpty then .ok (sn.subnet, leases)
  else
    match findReservedLease ctx leases with
    | .error e => .error e
    | .ok (some l) =>
      .ok (sn.subnet, if ctx.fakeAllocation then leases
        else leases.map fun k => if k = l then conditionalExtendLifetime env k else k)
    | .ok none =>
      match findFreeReservation ctx sn.server.leases sn.subnet with
      | none => .ok (sn.subnet, leases)
      | some (t, h, r) => .ok (t, leases ++ [reservedLease6 env ctx sn t h r])

theorem map_addr_extended :
    (leases.map fun k => if k = l then conditionalExtendLifetime env k else k).map (·.addr) =
      leases.map (·.addr) := by
  rw [map_map]
  refine map_congr_left fun k _ => ?_
  dsimp only [Function.comp_apply]
  split <;> rfl

/--
What `allocateReservedLeases6` does to the server, with the subnet and the list that it ends with.
-/
inductive ReservedEffect6 (env : Env) (ctx : ClientContext6) (leases : List Lease6) (sn : Session6)
    (st' : Server6) : SubnetPtr 128 → List Lease6 → Prop
  | unchanged (hsame : Unchanged6 sn.server st') :
      ReservedEffect6 env ctx leases sn st' sn.subnet leases
  | extended {l : Lease6} (hfake : ctx.fakeAllocation = false)
      (hfound : findReservedLease ctx leases = .ok (some l))
      (hleases : st'.leases = sn.server.leases.replace (conditionalExtendLifetime env l))
      (hstats : st'.stats = sn.server.stats) :
      ReservedEffect6 env ctx leases sn st' sn.subnet
        (leases.map fun k => if k = l then conditionalExtendLifetime env k else k)
  | created {t : SubnetPtr 128} {h : Host} {r : IPv6Resrv} (hfake : ctx.fakeAllocation = false)
      (hfree : findFreeReservation ctx sn.server.leases sn.subnet = some (t, h, r))
      (hleases : st'.leases = sn.server.leases.insert (reservedLease6 env ctx sn t h r))
      (hstats : st'.stats = placedStats6 ctx t r.addr sn.server.stats) :
      ReservedEffect6 env ctx leases sn st' t (leases ++ [reservedLease6 env ctx sn t h r])
  | offered {t : SubnetPtr 128} {h : Host} {r : IPv6Resrv} (hfake : ctx.fakeAllocation = true)
      (hfree : findFreeReservation ctx sn.server.leases sn.subnet = some (t, h, r))
      (hsame : Unchanged6 sn.server st') :
      ReservedEffect6 env ctx leases sn st' t (leases ++ [reservedLease6 env ctx sn t h r])

variable {ls : List Lease6}

namespace ReservedEffect6

theorem unchanged_of_fake (hfake : ctx.fakeAllocation = true)
    (h : ReservedEffect6 env ctx leases sn st' t ls) : Unchanged6 sn.server st' := by
  cases h with
  | unchanged hsame => exact hsame
  | extended hreal | created hreal => simp [hfake] at hreal
  | offered _ _ hsame => exact hsame

theorem subnet_mem (h : ReservedEffect6 env ctx leases sn st' t ls) : t ∈ sn.subnet.siblings := by
  cases h with
  | unchanged | extended => exact sn.subnet.self_mem_siblings
  | created _ hfree | offered _ hfree => exact (findFreeReservation_some hfree).1

/-- The list stays free of duplicates: a reservation that has a lease is not used again. -/
theorem nodup (h : ReservedEffect6 env ctx leases sn st' t ls)
    (hmem : ∀ l ∈ leases, l ∈ sn.server.leases ∧ l.type = ctx.type)
    (hnodup : (leases.map (·.addr)).Nodup) : (ls.map (·.addr)).Nodup := by
  have hnew : ∀ {t h r}, findFreeReservation ctx sn.server.leases sn.subnet = some (t, h, r) →
      ((leases ++ [reservedLease6 env ctx sn t h r]).map (·.addr)).Nodup := by
    intro t h r hfree
    obtain ⟨-, -, -, -, hnone⟩ := findFreeReservation_some hfree
    rw [map_append, nodup_append_comm]
    refine nodup_cons.mpr ⟨fun hin => ?_, hnodup⟩
    obtain ⟨l, hl, hladdr⟩ := mem_map.mp hin
    obtain ⟨hdb, htype⟩ := hmem l hl
    have hsome : sn.server.leases.getLease6 ctx.type r.addr = some l :=
      getLease6_eq_some.mpr ⟨hdb, hladdr, htype⟩
    rw [hnone] at hsome
    cases hsome
  cases h with
  | unchanged => exact hnodup
  | extended =>
    rw [map_addr_extended]
    exact hnodup
  | created _ hfree | offered _ hfree => exact hnew hfree

end ReservedEffect6

theorem stickToLease_server :
    (stickToLease env ctx l sn).server = sn.server ∧
      (stickToLease env ctx l sn).subnet = sn.subnet := by
  unfold stickToLease stickToHost
  split
  · exact ⟨rfl, rfl⟩
  · split <;> exact ⟨rfl, rfl⟩

variable {queued : Bool}

theorem stickToHost_move :
    stickToHost env ctx (some t) (some h) { sn with subnet := t } =
      { stickToHost env ctx (some t) (some h) sn with subnet := t } := by
  unfold stickToHost
  split <;> rfl

theorem stickToHost_server : (stickToHost env ctx (some t) (some h) sn).server = sn.server := by
  unfold stickToHost
  split <;> rfl

theorem allocateReserved_post (env : Env) (ctx : ClientContext6)
    (hmem : ∀ l ∈ leases, l ∈ sn.server.leases) :
    Post (allocateReservedLeases6 env ctx leases) sn
      (fun ls sn' => planned6 env ctx sn leases = .ok (sn'.subnet, ls) ∧
        ReservedEffect6 env ctx leases sn sn'.server sn'.subnet ls ∧
        sn'.server.allocator = sn.server.allocator)
      fun e sn' => planned6 env ctx sn leases = .error e ∧ e = .badValue ∧ sn' = sn := by
  unfold allocateReservedLeases6 planned6
  cases hhosts : ctx.hosts.isEmpty with
  | true => exact .pure ⟨rfl, .unchanged (.refl _), rfl⟩
  | false =>
    cases hfound : findReservedLease ctx leases with
    | error e => exact .of_error (run_throw e sn) ⟨rfl, findReservedLease_error hfound, rfl⟩
    | ok found =>
      cases found with
      | some l =>
        obtain ⟨hserver, hsubnet⟩ :
            (stickToLease env ctx l sn).server = sn.server ∧
              (stickToLease env ctx l sn).subnet = sn.subnet := stickToLease_server
        refine .step run_modify ?_
        cases hfake : ctx.fakeAllocation with
        | true =>
          refine .pure ⟨by simp [hsubnet], ?_, by rw [hserver]⟩
          rw [hserver, hsubnet]
          exact .unchanged (.refl _)
        | false =>
          have hfind : sn.server.leases.find (conditionalExtendLifetime env l).addr = some l :=
            find_eq_some_iff.mpr ⟨hmem l (findReservedLease_mem hfound).1, rfl⟩
          have hupd : (updateLease6 (conditionalExtendLifetime env l) : Engine6 Unit)
              (stickToLease env ctx l sn) = .ok ()
              { stickToLease env ctx l sn with
                server := { sn.server with
                  leases := sn.server.leases.replace (conditionalExtendLifetime env l) } } := by
            rw [lift_run, hserver, updateLease6_run hfind]
          refine .step hupd (.pure ⟨by simp [hsubnet], ?_, rfl⟩)
          rw [hsubnet]
          exact .extended hfake hfound rfl rfl
      | none =>
        refine .step (run_get sn) ?_
        cases hfree : findFreeReservation ctx sn.server.leases sn.subnet with
        | none => exact .pure ⟨rfl, .unchanged (.refl _), rfl⟩
        | some found =>
          obtain ⟨t, host, r⟩ := found
          obtain ⟨-, -, -, -, hnone⟩ := findFreeReservation_some hfree
          have hserver : (stickToHost env ctx (some t) (some host) sn).server = sn.server :=
            stickToHost_server
          refine .step run_modify (.bind ?_)
          rw [stickToHost_move]
          rw [← hserver] at hnone
          cases hfake : ctx.fakeAllocation with
          | true =>
            refine .of_ok (createLease6_fake hfake hnone) (.pure ⟨rfl, ?_, by rw [hserver]⟩)
            refine .offered hfake hfree ?_
            rw [hserver]
            exact .refl _
          | false =>
            refine .of_ok (createLease6_real hfake hnone) (.pure ⟨rfl, ?_, by rw [hserver]⟩)
            refine .created hfake hfree ?_ ?_
            · rw [hserver]
              rfl
            · rw [hserver]

/-! ## Leases that are kept -/

@[simp] theorem updatedLease6_addr (env : Env) (ctx : ClientContext6) (hostname : String) (l : Lease6) :
    (updatedLease6 env ctx hostname l).addr = l.addr := by
  unfold updatedLease6
  split <;> rfl

@[simp] theorem updatedLease6_subnetId {hostname : String} :
    (updatedLease6 env ctx hostname l).subnetId = l.subnetId := by
  unfold updatedLease6
  split <;> rfl

/-- The statistics after `updateLeaseData` has seen a lease: a reclaimed one is counted again. -/
def restoredStats6 (ctx : ClientContext6) (s : SubnetPtr 128) (l : Lease6) (stats : Stats) : Stats :=
  if l.stateExpiredReclaimed && inAllowedPool6 ctx s ctx.type l.addr true then
    stats.addValue (.subnet l.subnetId ctx.statName) 1
  else stats

/-- The leases, one by one, are in the database as `updateLeaseData` changes them. -/
structure Updated6 (env : Env) (ctx : ClientContext6) (kept : List Lease6) (sn sn' : Session6) :
    Prop where
  leases : sn'.server.leases =
    kept.foldl (fun db l => db.replace (updatedLease6 env ctx sn.hostname l)) sn.server.leases
  stats : sn'.server.stats =
    kept.foldl (fun stats l => restoredStats6 ctx sn.subnet l stats) sn.server.stats
  subnet : sn'.subnet = sn.subnet
  hostname : sn'.hostname = sn.hostname

theorem countRestored6_run :
    countRestored6 ctx s l st = .ok () { st with stats := restoredStats6 ctx s l st.stats } := by
  unfold countRestored6 restoredStats6
  split <;> rfl

theorem queueRemovalIf_run (env : Env) (reason : Bool) (l : Lease6) (st : Server6) :
    ∃ ncrs, queueRemovalIf env reason l st = .ok () { st with ncrs := ncrs } := by
  cases reason
  · exact ⟨st.ncrs, rfl⟩
  · exact ⟨_, rfl⟩

/-- One round of `updateLeaseData` in a real allocation. -/
theorem updateLeaseData_cons (hfake : ctx.fakeAllocation = false)
    {Q : List Lease6 → Session6 → Prop} {E : EngineError → Session6 → Prop}
    (hl : l ∈ sn.server.leases)
    (hrest : ∀ queued' sn₁, Updated6 env ctx [l] sn sn₁ → Post (updateLeaseData env ctx queued' ls)
      sn₁ (fun r sn' => Q (updatedLease6 env ctx sn.hostname l :: r) sn') E) :
    Post (updateLeaseData env ctx queued (l :: ls)) sn Q E := by
  have hfind : sn.server.leases.find (updatedLease6 env ctx sn.hostname l).addr = some l :=
    find_eq_some_iff.mpr ⟨hl, (updatedLease6_addr ..).symm⟩
  refine .step (run_get sn) ?_
  simp only [hfake, Bool.false_eq_true]
  refine .step (lift_ok countRestored6_run) ?_
  refine .step run_modify ?_
  refine .step (lift_ok (updateLease6_run hfind)) ?_
  obtain ⟨ncrs, hrun⟩ := queueRemovalIf_run env
    ((l.type ≠ .pd && !(updatedLease6 env ctx sn.hostname l).hasIdenticalFqdn l.toLease) && !queued) l
    { sn.server with
      leases := sn.server.leases.replace (updatedLease6 env ctx sn.hostname l)
      stats := restoredStats6 ctx sn.subnet l sn.server.stats }
  refine .step (lift_ok hrun) (.bind ?_)
  exact .imp (hrest _ _ ⟨rfl, rfl, rfl, rfl⟩) (fun _ _ h => .pure h)

theorem updateLeaseData_post (env : Env) (hfake : ctx.fakeAllocation = false) (queued : Bool)
    (sn : Session6) (hmem : ∀ l ∈ leases, l ∈ sn.server.leases)
    (hnodup : (leases.map (·.addr)).Nodup) :
    Yields (updateLeaseData env ctx queued leases) sn
      fun ls sn' => ls = leases.map (updatedLease6 env ctx sn.hostname) ∧
        Updated6 env ctx leases sn sn' := by
  induction leases generalizing queued sn with
  | nil =>
    exact .pure ⟨rfl, rfl, rfl, rfl, rfl⟩
  | cons l ls ih =>
    rw [map_cons, nodup_cons] at hnodup
    have hl := hmem l mem_cons_self
    refine updateLeaseData_cons hfake hl fun queued' sn₁ h₁ => ?_
    have hmem₁ : ∀ m ∈ ls, m ∈ sn₁.server.leases := by
      intro m hm
      have hfind : sn.server.leases.find
          (lease6Spec.key (updatedLease6 env ctx sn.hostname l)) = some l :=
        find_eq_some_iff.mpr ⟨hl, (updatedLease6_addr ..).symm⟩
      have hne : m.addr ≠ l.addr := fun heq =>
        hnodup.1 (mem_map.mpr ⟨m, hm, heq⟩)
      rw [h₁.leases, foldl_cons, foldl_nil, mem_replace hfind]
      exact .inr ⟨hmem m (mem_cons_of_mem l hm), by simpa using hne⟩
    refine .imp (ih queued' sn₁ hmem₁ hnodup.2) ?_
    rintro r sn' ⟨rfl, h'⟩
    rw [h₁.hostname]
    refine ⟨rfl, ?_, ?_, h'.subnet.trans h₁.subnet, h'.hostname.trans h₁.hostname⟩
    · rw [h'.leases, h₁.leases, h₁.hostname]
      rfl
    · rw [h'.stats, h₁.stats, h₁.subnet]
      rfl

theorem updateLeaseData_fake (hfake : ctx.fakeAllocation = true) :
    updateLeaseData env ctx queued leases sn =
      .ok (leases.map (updatedLease6 env ctx sn.hostname)) sn := by
  induction leases with
  | nil => rfl
  | cons l ls ih => simp [updateLeaseData, hfake, run_bind, run_map, ih]

/-- The statistics after an extension in the subnet. -/
def extendStats6 (env : Env) (ctx : ClientContext6) (s : SubnetPtr 128) (l : Lease6) (stats : Stats) :
    Stats :=
  if l.expired env.now then placedStats6 ctx s l.addr (l.useStats stats) else stats

theorem reclaimOrRename6_run :
    ∃ ncrs, reclaimOrRename6 env ctx s l lease st =
      .ok () { st with stats := extendStats6 env ctx s l st.stats, ncrs := ncrs } := by
  unfold reclaimOrRename6 extendStats6
  split
  · obtain ⟨ncrs, hrun⟩ := reclaimBeforeUse6_run env l st
    exact ⟨ncrs, by rw [run_bind_ok hrun, countPlaced6_run]⟩
  · exact queueRemovalIf_run env _ l st

/-- What `extendLease6` does to a lease, in the subnet that it moves to: it removes it or renews it. -/
inductive Extended6 (env : Env) (ctx : ClientContext6) (l : Lease6) (sn sn' : Session6) :
    Lease6 → Prop
  | removed (hleaves : leavesSubnet ctx sn'.subnet l)
      (hleases : sn'.server.leases = sn.server.leases.erase l.addr)
      (hstats : sn'.server.stats =
        sn.server.stats.addValue (.subnet sn'.subnet.getID .assignedNas) (-1)) :
      Extended6 env ctx l sn sn' l
  | renewed {old : Lease6} (hstays : leavesSubnet ctx sn'.subnet l = false)
      (hfind : sn.server.leases.find l.addr = some old)
      (hleases : sn'.server.leases =
        sn.server.leases.replace (extendedLease6 env ctx sn'.subnet sn.hostname l))
      (hstats : sn'.server.stats = extendStats6 env ctx sn'.subnet l sn.server.stats) :
      Extended6 env ctx l sn sn' (extendedLease6 env ctx sn'.subnet sn.hostname l)

theorem extendLease6_post :
    Post (extendLease6 env ctx l) sn
      (fun lease sn' => sn'.subnet = subnetOfLease sn.subnet l ∧ sn'.hostname = sn.hostname ∧
        Extended6 env ctx l sn sn' lease)
      fun e _ => e = .noSuchLease ∧ leavesSubnet ctx (subnetOfLease sn.subnet l) l = false ∧
        sn.server.leases.find l.addr = none := by
  refine .step run_modify (.step (run_get _) ?_)
  cases hleaves : leavesSubnet ctx (subnetOfLease sn.subnet l) l with
  | true =>
    refine .step (lift_ok (deleteLease_run _)) ?_
    refine .step (lift_ok (queueNCR_run _ _ _)) ?_
    refine .step (lift_ok (addValue_run _ _)) ?_
    refine .step run_modify (.pure ⟨rfl, rfl, ?_⟩)
    exact .removed hleaves rfl rfl
  | false =>
    obtain ⟨ncrs, hrun⟩ := reclaimOrRename6_run
    refine .step (lift_ok hrun) (.bind ?_)
    cases hfind : sn.server.leases.find l.addr with
    | none => exact .of_error (lift_error (updateLease6_missing hfind)) ⟨rfl, rfl, rfl⟩
    | some old =>
      refine .of_ok (lift_ok (updateLease6_run hfind)) ?_
      refine .step run_modify (.pure ⟨rfl, rfl, ?_⟩)
      exact .renewed hleaves hfind rfl rfl

end Dhcp
