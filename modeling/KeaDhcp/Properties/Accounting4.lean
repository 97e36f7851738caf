import KeaDhcp.Infra.Ledger
import KeaDhcp.Dhcp4.Dhcp4Srv
import KeaDhcp.Properties.Reservations4

/-!
# The DHCPv4 lease statistics

The statistics of assigned and declined addresses are kept by hand, next to every change of the
database. Here they are compared with what the database holds.
-/

namespace Dhcp

open Infra Engine4 Sample Lease4Storage Balanced Lease4 Lease SubnetPtr Stats Bool MultiIndex Option

variable {env : Env} {ctx : ClientContext4} {s t : SubnetPtr 32} {st st' : Server4}
variable {k : StatKey} {l lease : Lease4} {addr : Address 32} {old previous : Option Lease4}
    {u c : SubnetPtr 32} {db : Lease4Storage} {mode : DbReclaimMode}

/-! ## What a lease counts for -/

/-- The statistics that say something about the leases of the database. -/
def tracked4 : StatKey → Prop
  | .subnet _ .assignedAddresses | .subnet _ .declinedAddresses | .global .declinedAddresses => True
  | _ => False

/-- An address is assigned until its lease is reclaimed, also while it is declined. -/
def Lease4.weight (l : Lease4) : StatKey → Int
  | .subnet id .assignedAddresses => if id = l.subnetId ∧ l.state ≠ .expiredReclaimed then 1 else 0
  | .subnet id .declinedAddresses => if id = l.subnetId ∧ l.state = .declined then 1 else 0
  | .global .declinedAddresses => if l.state = .declined then 1 else 0
  | _ => 0

/-- The statistics are what the database says. -/
def Balanced4 (st : Server4) : Prop := Balanced tracked4 weight st.leases st.stats

theorem tracked4_cases (hk : tracked4 k) :
    (∃ id, k = .subnet id .assignedAddresses) ∨ (∃ id, k = .subnet id .declinedAddresses) ∨
      k = .global .declinedAddresses := by
  unfold tracked4 at hk
  split at hk
  · exact .inl ⟨_, rfl⟩
  · exact .inr (.inl ⟨_, rfl⟩)
  · exact .inr (.inr rfl)
  · exact hk.elim

theorem weight_reclaimed (h : l.state = .expiredReclaimed) (hk : tracked4 k) : l.weight k = 0 := by
  rcases tracked4_cases hk with ⟨id, rfl⟩ | ⟨id, rfl⟩ | rfl <;> simp [weight, h]

theorem weight_default (h : l.state = .default) (hk : tracked4 k) :
    l.weight k = if k = .subnet l.subnetId .assignedAddresses then 1 else 0 := by
  rcases tracked4_cases hk with ⟨id, rfl⟩ | ⟨id, rfl⟩ | rfl <;> simp [weight, h]

theorem weight_declined (h : l.state = .declined) (hk : tracked4 k) :
    l.weight k = (if k = .subnet l.subnetId .assignedAddresses then 1 else 0) +
      (if k = .subnet l.subnetId .declinedAddresses then 1 else 0) +
      (if k = .global .declinedAddresses then 1 else 0) := by
  rcases tracked4_cases hk with ⟨id, rfl⟩ | ⟨id, rfl⟩ | rfl <;> simp [weight, h]

variable {stats : Stats}

/-- Reclamation takes a lease out of all statistics that it counts for. -/
theorem reclaimStats_apply (h : l.state ≠ .expiredReclaimed) (hk : tracked4 k) :
    l.reclaimStats stats k = stats k - l.weight k := by
  have hother : ∀ id, k ≠ .global .reclaimedLeases ∧ k ≠ .subnet id .reclaimedLeases ∧
      k ≠ .global .reclaimedDeclinedAddresses ∧ k ≠ .subnet id .reclaimedDeclinedAddresses := by
    rcases tracked4_cases hk with ⟨id, rfl⟩ | ⟨id, rfl⟩ | rfl <;> simp
  obtain ⟨h₁, h₂, h₃, h₄⟩ := hother l.subnetId
  cases hs : l.state with
  | expiredReclaimed => exact absurd hs h
  | default =>
    have hd : l.stateDeclined = false := by simp [stateDeclined, hs]
    rw [weight_default hs hk, reclaimStats, hd]
    simp only [false_eq_true, if_false, addValue_apply]
    split <;> omega
  | declined =>
    have hd : l.stateDeclined = true := by simp [stateDeclined, hs]
    rw [weight_declined hs hk, reclaimStats, hd]
    simp only [if_true, addValue_apply, h₄, if_false]
    split <;> split <;> split <;> omega

/-- What is counted for a lease is subtracted when it is taken over. -/
theorem useStats_apply (hk : tracked4 k) : l.useStats stats k = stats k - l.weight k := by
  unfold useStats
  split
  · rename_i hrec
    rw [weight_reclaimed (by simpa [stateExpiredReclaimed] using hrec) hk]
    omega
  · rename_i hrec
    exact reclaimStats_apply (by simpa [stateExpiredReclaimed] using hrec) hk

theorem addValue_assigned (h : l.state = .default) (stats : Stats) (hk : tracked4 k) :
    stats.addValue (.subnet l.subnetId .assignedAddresses) 1 k = stats k + l.weight k := by
  rw [addValue_apply, weight_default h hk]

theorem addValue_unassigned (h : l.state = .default) (hk : tracked4 k) :
    stats.addValue (.subnet l.subnetId .assignedAddresses) (-1) k = stats k - l.weight k := by
  rw [addValue_apply, weight_default h hk]
  split <;> omega

/-! ## What the steps of an allocation ask of the leases involved -/

theorem Balanced4.of_unchanged (h : Balanced4 st) (hsame : Unchanged4 st st') : Balanced4 st' := by
  unfold Balanced4
  rw [hsame.leases, hsame.stats]
  exact h

/-- A lease that is placed is counted once. -/
theorem Placed4.balanced (h : Placed4 env ctx s addr st st' lease old) (hbal : Balanced4 st) :
    Balanced4 st' := by
  unfold Balanced4
  cases h with
  | created _ hfree hleases hstats =>
    rw [hleases, hstats]
    exact insert hbal hfree fun k hk =>
      addValue_assigned (l := newLease4 env ctx s addr) rfl st.stats hk
  | @reused e _ hexist _ hleases hstats =>
    have hfind : st.leases.find (lease4Spec.key (renewedLease4 env ctx s e)) = some e := by
      rw [lease4Spec_key, renewedLease4_addr, (mem_of_getLease4 hexist).2]
      exact hexist
    rw [hleases, hstats]
    refine replace hbal hfind fun k hk => ?_
    have hadd := addValue_assigned (l := renewedLease4 env ctx s e) rfl (e.useStats st.stats) hk
    rw [renewedLease4_subnetId] at hadd
    rw [hadd, useStats_apply hk]
  | offered _ _ _ hsame => exact hbal.of_unchanged hsame

theorem Removed4.balanced (h : Removed4 previous st st') (hbal : Balanced4 st)
    (hprevious : ∀ l, previous = some l → l ∈ st.leases ∧ l.state = .default) : Balanced4 st' := by
  cases previous with
  | none => exact hbal.of_unchanged h
  | some l =>
    obtain ⟨hleases, hstats, -⟩ := h
    obtain ⟨hl, hstate⟩ := hprevious l rfl
    unfold Balanced4
    rw [hleases, hstats]
    exact erase hbal (getLease4_of_mem hl) fun k hk =>
      addValue_unassigned hstate hk

/-- The renewal of `l` in subnet `t` is counted right. -/
def RenewalCounted (env : Env) (t : SubnetPtr 32) (l : Lease4) : Prop :=
  l.expired env.now ∨ l.state = .expiredReclaimed ∨ (l.state = .default ∧ l.subnetId = t.getID)

/-- A renewal counts the lease as it is now. -/
theorem renewStats_apply (h : RenewalCounted env t l) (hk : tracked4 k) :
    renewStats env t l stats k =
      stats k - l.weight k + (renewedLease4 env ctx t l).weight k := by
  have hadd : ∀ stats : Stats, stats.addValue (.subnet t.getID .assignedAddresses) 1 k =
      stats k + (renewedLease4 env ctx t l).weight k := fun stats =>
    addValue_assigned (l := renewedLease4 env ctx t l) rfl stats hk
  unfold renewStats
  split
  · rw [hadd, useStats_apply hk]
  rename_i hactive
  split
  · rename_i hrec
    rw [hadd, weight_reclaimed (l := l) (by simpa [stateExpiredReclaimed] using hrec) hk]
    omega
  · rename_i hrec
    -- The lease is in use and stays in its subnet: it counts for the same as before.
    rcases h with hexp | hrec' | ⟨hstate, hsubnet⟩
    · exact absurd hexp hactive
    · simp [stateExpiredReclaimed, hrec'] at hrec
    rw [weight_default hstate hk, weight_default (l := renewedLease4 env ctx t l) rfl hk,
      renewedLease4_subnetId, hsubnet]
    omega

/-! ## A new lease and the lease that it takes the place of -/

variable {found : Bool} {m : ClientMessage4}

theorem Cleared4.walk_of_any (h : Cleared4 env ctx db s 0 t) : t ∈ s.walkFor ctx.classes := by
  cases h with
  | any _ _ hnone => exact hasAddressReservation_walk hnone
  | reserved _ hres => exact hasAddressReservation_walk hres
  | requested hne => exact absurd rfl hne

/-- An address that is picked is not the one the client has. -/
theorem pick_other_addr {preferred : SubnetPtr 32} (hs : s.clientSupported ctx.classes)
    (hplan : requestPlan env ctx db s = .ok (.pick t previous))
    (hpreferred : preferred ∈ t.siblings)
    (hsupported : preferred.clientSupported ctx.classes = t.clientSupported ctx.classes)
    (hu : u ∈ preferred.walkFor ctx.classes) (hin : u.subnet.inPoolFor .v4 addr ctx.classes)
    (hl : previous = some l) : l.addr ≠ addr := by
  obtain ⟨-, hclear, hnone⟩ := requestPlan_pick hplan
  have hpool := (renewalSubnet_none (hnone l hl) (.inr rfl)).2
  have ht := walkFor_trans hs (findClientLease_subnet_mem db ctx s) hclear.walk_of_any
  obtain ⟨-, hts⟩ := (mem_walkFor_of_supported hs).mp ht
  have hwalk : u ∈ t.walkFor ctx.classes :=
    walkFor_trans hts
      ((mem_walkFor_of_supported hts).mpr ⟨hpreferred, hsupported.trans hts⟩) hu
  rintro rfl
  exact inAllowedPool_none hpool hwalk hin

theorem Placed4.keeps_other_addr (h : Placed4 env ctx s addr st st' lease old) (hl : l ∈ st.leases)
    (hne : l.addr ≠ addr) : l ∈ st'.leases := by
  cases h with
  | created _ hfree hleases =>
    have hnew : st.leases.find (lease4Spec.key (newLease4 env ctx s addr)) = none := hfree
    rw [hleases]
    exact (mem_insert hnew).mpr (.inr hl)
  | @reused e _ hexist _ hleases =>
    obtain ⟨he, haddr⟩ := mem_of_getLease4 hexist
    rw [hleases]
    refine mem_of_replaced hl he rfl ?_
    rintro rfl
    exact hne haddr
  | offered _ _ _ hsame =>
    rw [hsame.leases]
    exact hl

theorem Placed4.removed_balanced {st₁ : Server4} (hplaced : Placed4 env ctx s addr st st₁ lease old)
    (hremoved : Removed4 previous st₁ st') (hbal : Balanced4 st)
    (hprevious : ∀ l, previous = some l → l ∈ st.leases ∧ l.addr ≠ addr ∧ l.state = .default) :
    Balanced4 st' := by
  refine hremoved.balanced (hplaced.balanced hbal) fun l hl => ?_
  obtain ⟨hmem, hne, hstate⟩ := hprevious l hl
  exact ⟨hplaced.keeps_other_addr hmem hne, hstate⟩

/-! ## Operations that keep the statistics right -/

/-- No other subnet of the network has a reservation for the client or a pool for its address. -/
def RenewedInPlace (ctx : ClientContext4) (c : SubnetPtr 32) (l : Lease4) : Prop :=
  ∀ t ∈ c.walkFor ctx.classes,
    ctx.reservesIn t ∨ t.subnet.inPoolFor .v4 l.addr ctx.classes → t = c

/-- The client asks for the address that it has, or is content with it. -/
def AsksForOwn (ctx : ClientContext4) (c : SubnetPtr 32) (l : Lease4) : Prop :=
  (ctx.requestedAddress ≠ 0 ∧ ctx.requestedAddress = l.addr) ∨
  (ctx.requestedAddress = 0 ∧ hasAddressReservation ctx c = (false, c) ∧
    inAllowedPool ctx c l.addr ≠ none)

/--
A request of a client whose lease `l` was found in `c`. A lease in use has expired, is renewed in its
subnet or given up for another address; one that expired or was reclaimed may be asked for.
-/
def SoundRequest4 (env : Env) (ctx : ClientContext4) (c : SubnetPtr 32) (l : Lease4) : Prop :=
  (l.state = .default ∧ (l.expired env.now ∨ RenewedInPlace ctx c l ∨
    (ctx.requestedAddress ≠ 0 ∧ ctx.requestedAddress ≠ l.addr))) ∨
  ((l.expired env.now ∨ l.state = .expiredReclaimed) ∧ AsksForOwn ctx c l)

/-- The operation finds the leases that it works on in a state for which it counts right. -/
def SoundStep4 : Operation4 → Server4 → Prop
  | .allocate env ctx, st => ctx.fakeAllocation = false → ∀ s l, startSubnet ctx = some s →
      (findClientLease st.leases ctx s).1 = some l →
      SoundRequest4 env ctx (findClientLease st.leases ctx s).2 l
  | .release _ m, st | .decline _ _ m, st => ∀ l, m.ownLease st.leases = some l → l.state = .default
  | .reclaim _ _ _ _, _ | .deleteReclaimed _ _, _ => True

theorem RenewedInPlace.reservation (h : RenewedInPlace ctx c l)
    (hres : hasAddressReservation ctx c = (found, t)) : t = c := by
  cases found with
  | false => exact hasAddressReservation_false hres
  | true =>
    have hwalk := hasAddressReservation_walk hres
    unfold hasAddressReservation at hres
    split at hres
    · cases hres
    rcases findAddressReservation_true hres with rfl | ⟨-, -, hreserves⟩
    · rfl
    · exact h t hwalk (.inl hreserves)

theorem RenewedInPlace.pool (h : RenewedInPlace ctx c l)
    (hpool : inAllowedPool ctx c l.addr = some t) : t = c :=
  h t (inAllowedPool_some hpool).1 (.inr (inAllowedPool_some hpool).2)

/-- A lease that is renewed in place is renewed in the subnet that it was found in. -/
theorem RenewedInPlace.subnet_eq (h : RenewedInPlace ctx c l)
    (hclear : Cleared4 env ctx db c addr u) (hrenew : renewalSubnet ctx u addr l = some t) :
    t = c := by
  have hu : u = c := by
    cases hclear with
    | any _ _ hnone => exact hasAddressReservation_false hnone
    | reserved _ hres => exact h.reservation hres
    | requested hne _ _ _ hin =>
      have haddr := renewalSubnet_addr hrenew hne
      subst haddr
      obtain ⟨-, hpool⟩ | ⟨r, reserved, hres, -, hcase⟩ := hin
      · exact h.pool hpool
      obtain rfl := h.reservation hres
      rcases hcase with ⟨-, hr⟩ | ⟨-, -, hpool⟩
      · exact hr.symm
      · exact h.pool hpool
  subst hu
  rcases (renewalSubnet_some hrenew).2 with hres | ⟨-, hpool⟩
  · exact h.reservation hres
  · exact h.pool hpool

theorem SoundRequest4.renewal (h : SoundRequest4 env ctx (findClientLease st.leases ctx s).2 l)
    (hplan : requestPlan env ctx st.leases s = .ok (.renew l t)) : RenewalCounted env t l := by
  obtain ⟨hown, addr, u, hclear, hrenew⟩ := requestPlan_renew hplan
  rcases h with ⟨hstate, hexp | hplace | ⟨hne, hother⟩⟩ | ⟨hexp | hrec, -⟩
  · exact .inl hexp
  · have hsubnet := (findClientLease_some hown).2.2.1
    exact .inr (.inr ⟨hstate, hplace.subnet_eq hclear hrenew ▸ hsubnet⟩)
  · obtain ⟨haddr, -, -⟩ := hclear.of_requested hne
    exact absurd (haddr.symm.trans (renewalSubnet_addr hrenew (haddr ▸ hne)).symm) hother
  · exact .inl hexp
  · exact .inr (.inl hrec)

theorem AsksForOwn.not_allocate (h : AsksForOwn ctx (findClientLease st.leases ctx s).2 l) :
    requestPlan env ctx st.leases s ≠ .ok (.allocate addr t (some l)) := by
  intro hplan
  have hother := allocate_other_addr hplan rfl
  obtain ⟨-, hne, hclear, -⟩ := requestPlan_allocate hplan
  rcases h with ⟨hreq, hown⟩ | ⟨hreq, hres, -⟩
  · exact hother (hown.symm.trans (hclear.of_requested hreq).1.symm)
  · have hres' := (hclear.of_reserved hreq hne).1
    simp [hres] at hres'

theorem AsksForOwn.not_pick (h : AsksForOwn ctx (findClientLease st.leases ctx s).2 l) :
    requestPlan env ctx st.leases s ≠ .ok (.pick t (some l)) := by
  intro hplan
  obtain ⟨-, hclear, hnone⟩ := requestPlan_pick hplan
  rcases h with ⟨hreq, -⟩ | ⟨hreq, hres, hpool⟩
  · exact hreq (hclear.of_requested hreq).1.symm
  have ht : t = (findClientLease st.leases ctx s).2 := by
    cases hclear with
    | any _ _ hnone => exact hasAddressReservation_false hnone
    | reserved _ hres' => simp [hres] at hres'
    | requested hne => exact absurd rfl hne
  subst ht
  exact hpool (renewalSubnet_none (hnone l rfl) (.inr rfl)).2

theorem SoundRequest4.state_of_not_own (h : SoundRequest4 env ctx c l) (hown : ¬AsksForOwn ctx c l) :
    l.state = .default := by
  rcases h with ⟨hstate, -⟩ | ⟨-, hasks⟩
  · exact hstate
  · exact absurd hasks hown

/-- All that a request can do keeps the balance. -/
theorem Outcome4.balanced {result : EStateM.Result EngineError Server4 Allocation4}
    (h : Outcome4 env ctx s st result) (hs : s.clientSupported ctx.classes) (hbal : Balanced4 st)
    (hsound : ∀ l, (findClientLease st.leases ctx s).1 = some l →
      SoundRequest4 env ctx (findClientLease st.leases ctx s).2 l) :
    Balanced4 (finalState result) := by
  cases h with
  | crashed => exact hbal
  | refused _ hsame => exact hbal.of_unchanged hsame
  | @renewed r l t st' hplan hnew hleases hstats =>
    have hown := (requestPlan_renew hplan).1
    have hcount := (hsound l hown).renewal hplan
    have hfind : st.leases.find (lease4Spec.key (renewedLease4 env ctx t l)) = some l :=
      getLease4_of_mem (findClientLease_some hown).1
    show Balanced tracked4 weight st'.leases st'.stats
    rw [hleases, hstats]
    exact replace hbal hfind fun k hk => renewStats_apply hcount hk
  | allocated hplan hplaced _ hremoved =>
    refine hplaced.removed_balanced hremoved hbal fun l hl => ?_
    subst hl
    have hown := (requestPlan_allocate hplan).1
    exact ⟨(findClientLease_some hown).1, allocate_other_addr hplan rfl,
      (hsound l hown).state_of_not_own fun h => h.not_allocate hplan⟩
  | picked hplan hpreferred hsupported hu hpicked _ hremoved =>
    refine hpicked.2.2.removed_balanced hremoved hbal fun l hl => ?_
    subst hl
    have hown := (requestPlan_pick hplan).1
    exact ⟨(findClientLease_some hown).1,
      pick_other_addr hs hplan hpreferred hsupported hu hpicked.1 rfl,
      (hsound l hown).state_of_not_own fun h => h.not_pick hplan⟩

theorem allocateLease4_balanced (hbal : Balanced4 st) (hsound : SoundStep4 (.allocate env ctx) st) :
    Balanced4 (after (allocateLease4 env ctx) st) := by
  cases hfake : ctx.fakeAllocation with
  | true => exact hbal.of_unchanged (unchanged_of_fake env hfake st)
  | false =>
    cases hstart : startSubnet ctx with
    | none =>
      simp only [after, allocateLease4_no_subnet hstart]
      exact hbal
    | some s =>
      obtain ⟨-, -, -, hs⟩ := startSubnet_spec hstart
      exact (allocateLease4_outcome env hfake hstart st).balanced hs hbal
        fun l hl => hsound hfake s l hstart hl

/-! ## The other operations -/

theorem processRelease_balanced (hbal : Balanced4 st) (hsound : SoundStep4 (.release env m) st) :
    Balanced4 (after (processRelease env m) st) := by
  unfold after
  cases hown : m.ownLease st.leases with
  | none =>
    rw [processRelease_none hown]
    exact hbal
  | some l =>
    rw [processRelease_some hown]
    exact erase hbal (getLease4_of_mem (ownLease_spec hown).1)
      fun k hk => addValue_unassigned (hsound l hown) hk

theorem processDecline_balanced {period : Nat} (hbal : Balanced4 st)
    (hsound : SoundStep4 (.decline env period m) st) :
    Balanced4 (after (processDecline env period m) st) := by
  unfold after
  cases hown : m.ownLease st.leases with
  | none =>
    rw [processDecline_none hown]
    exact hbal
  | some l =>
    have hget : st.leases.getLease4 (l.decline env.now period).addr = some l :=
      getLease4_of_mem (ownLease_spec hown).1
    rw [processDecline_some hown]
    refine replace hbal hget fun k hk => ?_
    rw [weight_default (hsound l hown) hk, weight_declined (l := l.decline env.now period) rfl hk,
      decline_subnetId]
    show ((st.stats.addValue (.subnet l.subnetId .declinedAddresses) 1).addValue
      (.global .declinedAddresses) 1) k = _
    simp only [addValue_apply]
    omega

theorem reclaimExpiredLease4_balanced (hmode : mode ≠ .leaveUnchanged) (hl : l ∈ st.leases)
    (hstate : l.state ≠ .expiredReclaimed) (hbal : Balanced4 st) :
    Balanced4 (after (reclaimExpiredLease4 env mode l) st) := by
  have hget := getLease4_of_mem hl
  unfold after
  rw [reclaimExpiredLease4_run hmode hl]
  unfold Balanced4 finalState
  dsimp only
  split
  · exact erase hbal hget fun k hk => reclaimStats_apply hstate hk
  have hfind : st.leases.find (lease4Spec.key l.reclaimed) = some l := hget
  refine replace hbal hfind fun k hk => ?_
  rw [reclaimStats_apply hstate hk, weight_reclaimed (l := l.reclaimed) rfl hk]
  omega

theorem reclaimExpiredLease4_keeps (hmode : mode ≠ .leaveUnchanged) {l' : Lease4}
    (hl : l ∈ st.leases) (hl' : l' ∈ st.leases) (hne : l'.addr ≠ l.addr) :
    l' ∈ (after (reclaimExpiredLease4 env mode l) st).leases := by
  unfold after
  rw [reclaimExpiredLease4_run hmode hl]
  unfold finalState
  dsimp only
  split
  · exact mem_erase.mpr ⟨hl', hne⟩
  refine mem_of_replaced hl' hl rfl ?_
  rintro rfl
  exact hne rfl

theorem after_reclaimEach4_cons {ls : List Lease4} :
    after (reclaimEach4 env mode (l :: ls)) st =
      after (reclaimEach4 env mode ls) (after (reclaimExpiredLease4 env mode l) st) := by
  rw [after, reclaimEach4, run_bind_ok run_tryCatch_pure]
  rfl

section Rounds

variable {I : Server4 → Prop}

/-- One lease after another: each is in the database when its turn comes. -/
theorem reclaimEach4_inv (hmode : mode ≠ .leaveUnchanged)
    (hstep : ∀ st l, l ∈ st.leases → l.state ≠ .expiredReclaimed → I st →
      I (after (reclaimExpiredLease4 env mode l) st)) {due : List Lease4}
    (hdue : ∀ l ∈ due, l ∈ st.leases ∧ l.state ≠ .expiredReclaimed)
    (hnodup : (due.map (·.addr)).Nodup) (hinv : I st) :
    I (after (reclaimEach4 env mode due) st) := by
  induction due generalizing st with
  | nil => exact hinv
  | cons l ls ih =>
    obtain ⟨hl, hstate⟩ := hdue l List.mem_cons_self
    have hinv' := hstep st l hl hstate hinv
    rw [List.map_cons, List.nodup_cons] at hnodup
    rw [after_reclaimEach4_cons]
    refine ih (fun l' hl' => ?_) hnodup.2 hinv'
    obtain ⟨hmem, hs⟩ := hdue l' (List.mem_cons_of_mem l hl')
    refine ⟨reclaimExpiredLease4_keeps hmode hl hmem fun haddr => ?_, hs⟩
    exact hnodup.1 (List.mem_map.mpr ⟨l', hl', haddr⟩)

variable {maxLeases : Nat} {inTime : Option Nat}

theorem dueLeases4_sublist :
    ∃ n, (dueLeases4 env db maxLeases inTime).Sublist (db.getExpiredLeases4 env.now n) :=
  due_sublist

theorem dueLeases4_nodup : ((dueLeases4 env db maxLeases inTime).map (·.addr)).Nodup := by
  obtain ⟨n, hsub⟩ := dueLeases4_sublist
  exact (getExpiredLeases4_nodup).sublist (hsub.map (·.addr))

theorem mem_dueLeases4 (h : l ∈ dueLeases4 env db maxLeases inTime) :
    l ∈ db ∧ l.state ≠ .expiredReclaimed ∧ l.getExpirationTime ≤ env.now := by
  obtain ⟨n, hsub⟩ := dueLeases4_sublist
  exact mem_getExpiredLeases4 (hsub.mem h)

theorem reclaimExpiredLeases4_inv
    (hstep : ∀ mode st l, mode ≠ .leaveUnchanged → l ∈ st.leases → l.state ≠ .expiredReclaimed →
      I st → I (after (reclaimExpiredLease4 env mode l) st)) {removeLease : Bool} (hinv : I st) :
    I (after (reclaimExpiredLeases4 env maxLeases inTime removeLease) st) := by
  have hmode : (if removeLease then DbReclaimMode.remove else .update) ≠ .leaveUnchanged := by
    cases removeLease <;> simp
  refine reclaimEach4_inv hmode (fun st l => hstep _ st l hmode) (fun l hl => ?_)
    dueLeases4_nodup hinv
  obtain ⟨hmem, hstate, -⟩ := mem_dueLeases4 hl
  exact ⟨hmem, hstate⟩

end Rounds

theorem deleteExpiredReclaimedLeases4_balanced {secs : Nat} (hbal : Balanced4 st) :
    Balanced4 (after (deleteExpiredReclaimedLeases4 env secs) st) := by
  refine filter hbal fun l _ hdrop k hk => weight_reclaimed ?_ hk
  simp only [not_eq_true', not_eq_false, and_eq_true] at hdrop
  simpa [stateExpiredReclaimed] using hdrop.1

/-- **What one operation preserves.** -/
theorem step4_balanced {o : Operation4} (hbal : Balanced4 st) (hsound : SoundStep4 o st) :
    Balanced4 (step4 o st) := by
  cases o with
  | allocate env ctx => exact allocateLease4_balanced hbal hsound
  | release env m => exact processRelease_balanced hbal hsound
  | decline env period m => exact processDecline_balanced hbal hsound
  | reclaim env maxLeases inTime removeLease =>
    exact reclaimExpiredLeases4_inv (fun _ _ _ hmode hl hstate hbal =>
      reclaimExpiredLease4_balanced hmode hl hstate hbal) hbal
  | deleteReclaimed env secs => exact deleteExpiredReclaimedLeases4_balanced hbal

/-- An empty database and zero statistics. -/
theorem balanced4_of_fresh (h : st.Fresh) : Balanced4 st := by
  unfold Balanced4
  rw [h.1, h.2]
  exact empty

/-- The assigned addresses of a subnet, by the database: all leases that are not reclaimed. -/
def assignedIn (id : SubnetID) (db : Lease4Storage) : Nat :=
  db.count fun l => id = l.subnetId && l.state ≠ .expiredReclaimed

/-- The declined addresses of a subnet, by the database. -/
def declinedIn (id : SubnetID) (db : Lease4Storage) : Nat :=
  db.count fun l => id = l.subnetId && l.state = .declined

/--
**In every run of sound operations the statistics are right**: from an empty database and zero
statistics, they equal what the database says in every state.
-/
theorem statistics_match_in_sound_runs (st₀ st : Server4) (hfresh : st₀.Fresh)
    (hrun : Reaches step4 SoundStep4 st₀ st) (id : SubnetID) :
    st.stats (.subnet id .assignedAddresses) = assignedIn id st.leases ∧
      st.stats (.subnet id .declinedAddresses) = declinedIn id st.leases := by
  have hbal : Balanced4 st :=
    hrun.inv (balanced4_of_fresh hfresh) fun _ _ hbal hsound => step4_balanced hbal hsound
  constructor
  · exact hbal.count (k := .subnet id .assignedAddresses) trivial fun l => by simp [weight]
  · exact hbal.count (k := .subnet id .declinedAddresses) trivial fun l => by simp [weight]

theorem soundStep4_allocate (s c : SubnetPtr 32) (found : Option Lease4)
    (hstart : startSubnet ctx = some s) (hfind : findClientLease st.leases ctx s = (found, c))
    (h : ∀ l ∈ found, SoundRequest4 env ctx c l) : SoundStep4 (.allocate env ctx) st := by
  intro _ s' l hs' hl
  obtain rfl := some.inj (hstart.symm.trans hs')
  rw [hfind] at hl ⊢
  exact h l hl

namespace Sample

/-- Client 1 gets an address, renews it, and declines it. -/
def take : Operation4 := .allocate (envAt 0 noHosts) (client 1 0xC000020A#32 false [])

def renew : Operation4 := .allocate (envAt 50 noHosts) (client 1 0xC000020A#32 false [])

def declineIt : Operation4 :=
  .decline (envAt 60 noHosts) 30 { addr := 0xC000020A#32, hwaddr := some (mac 1), clientId := none }

/-- The lease expires and is reclaimed, but kept. -/
def reclaimAll : Operation4 := .reclaim (envAt 200 noHosts) 0 none false

/-- Client 1 asks for another address. -/
def takeOther : Operation4 := .allocate (envAt 210 noHosts) (client 1 0xC000020B#32 false [])

theorem fresh : (serverWith []).Fresh := ⟨rfl, rfl⟩

end Sample

/-- A lease is created, renewed and declined, and counts as assigned and as declined. -/
theorem statistics_match_sample :
    let st := step4 declineIt (step4 renew (step4 take (serverWith [])))
    assignedIn 1 st.leases = 1 ∧ declinedIn 1 st.leases = 1 ∧
      st.stats (.subnet 1 .assignedAddresses) = assignedIn 1 st.leases ∧
      st.stats (.subnet 1 .declinedAddresses) = declinedIn 1 st.leases := by
  have htake : SoundStep4 take (serverWith []) :=
    soundStep4_allocate ptr1 ptr1 none (by decide) (by decide) (by simp)
  have hrenew : SoundStep4 renew (step4 take (serverWith [])) := by
    refine soundStep4_allocate ptr1 ptr1 (some (newLease4 (envAt 0 noHosts)
      (client 1 0xC000020A#32 false []) ptr1 0xC000020A#32)) (by decide) (by decide) ?_
    rintro l ⟨⟩
    exact .inl ⟨rfl, .inr (.inl (by unfold RenewedInPlace; decide))⟩
  have hdecline : SoundStep4 declineIt
      (step4 renew (step4 take (serverWith []))) := by
    intro l hl
    obtain rfl := some.inj hl
    rfl
  exact ⟨by decide, by decide, statistics_match_in_sound_runs _ _ fresh
    (.next _ (.next _ (.next _ .start htake) hrenew) hdecline) 1⟩

/--
The lease of a client is reclaimed and kept, and then given up for another address: it is
subtracted twice.
-/
theorem reclaimed_lease_subtracted_twice :
    ∃ st, (serverWith []).Fresh ∧
      Reaches step4 (fun _ _ => True) (serverWith []) st ∧
      st.stats (.subnet 1 .assignedAddresses) = 0 ∧ assignedIn 1 st.leases = 1 :=
  ⟨step4 takeOther (step4 reclaimAll (step4 take (serverWith []))),
    fresh, .next _ (.next _ (.next _ .start trivial) trivial) trivial, by decide, by decide⟩

end Dhcp
