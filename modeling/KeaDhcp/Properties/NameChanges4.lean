import Mathlib.Data.Finset.Lattice.Lemmas
import Mathlib.Data.Finset.SDiff
import KeaDhcp.Infra.Publication
import KeaDhcp.Properties.Accounting4
import KeaDhcp.Properties.Quarantine4

/-!
# DNS and the DHCPv4 leases

The name change requests that the server sends, carried out in their order, keep a set of DNS
records. It holds the records of the leases in use, as long as no request of a client renames
nothing where it should: a lease that has expired, or one that is given up for another address,
under the name that the client gets again.
-/

namespace Dhcp

open Infra Engine4 Lease4Storage MultiIndex Function Option Lease

variable {env : Env} {ctx : ClientContext4} {s : SubnetPtr 32} {st st' : Server4} {l : Lease4}
variable {addr : Address 32} {r : Allocation4} {d2 : D2Client} {db : Lease4Storage}

/-! ## DNS records -/

inductive DnsDirection where
  | forward | reverse
  deriving DecidableEq

structure DnsRecord where
  fqdn : String
  addr : Address 32
  direction : DnsDirection
  deriving DecidableEq

/-- One record for each direction of an update. -/
def dnsRecords (fqdn : String) (addr : Address 32) (fwd rev : Bool) : Finset DnsRecord :=
  (if fwd then {⟨fqdn, addr, .forward⟩} else ∅) ∪ (if rev then {⟨fqdn, addr, .reverse⟩} else ∅)

/-- The effect of a name change request on the records. -/
def applyNcr (zone : Finset DnsRecord) (r : NameChangeRequest 32) : Finset DnsRecord :=
  let records := dnsRecords r.fqdn r.ipAddress r.forwardChange r.reverseChange
  match r.changeType with
  | .add => zone ∪ records
  | .remove => zone \ records

variable (ncrs : List (NameChangeRequest 32))

/-- The records after all requests, from none. -/
def replay : Finset DnsRecord := ncrs.foldl applyNcr ∅

/-- The same as a set. -/
def zone : Set DnsRecord := ↑(replay ncrs)

/-- The records that a lease with a name calls for. -/
def Lease4.dnsRecords (l : Lease4) : Finset DnsRecord :=
  if l.hostname = "" then ∅ else Dhcp.dnsRecords l.hostname l.addr l.fqdnFwd l.fqdnRev

theorem addr_of_mem_dnsRecords {fqdn : String} {fwd rev : Bool} {r : DnsRecord}
    (h : r ∈ dnsRecords fqdn addr fwd rev) : r.addr = addr := by
  rcases Finset.mem_union.mp h with h | h
  all_goals
    split at h
    · rw [Finset.mem_singleton.mp h]
    · cases Finset.notMem_empty _ h

theorem Lease4.addr_of_mem_dnsRecords {r : DnsRecord} (h : r ∈ l.dnsRecords) : r.addr = l.addr := by
  unfold dnsRecords at h
  split at h
  · cases Finset.notMem_empty _ h
  · exact Dhcp.addr_of_mem_dnsRecords h

/-- The leases with their records. -/
def leaseRecords : Publication Lease4 (Address 32) DnsRecord where
  key l := l.addr
  owner r := r.addr
  records l := l.dnsRecords
  owned := fun h => Lease4.addr_of_mem_dnsRecords (Finset.mem_coe.mp h)

theorem Lease4.dnsRecords_eq_empty_iff :
    l.dnsRecords = ∅ ↔ l.hostname = "" ∨ l.fqdnFwd = false ∧ l.fqdnRev = false := by
  unfold dnsRecords Dhcp.dnsRecords
  by_cases hname : l.hostname = ""
  · simp [hname]
  · cases l.fqdnFwd <;> cases l.fqdnRev <;> simp [hname]

/-- The DNS client has a DHCID for the records of the lease, and sends its name as it is. -/
structure Lease4.Publishable (l : Lease4) : Prop where
  absolute : l.dnsRecords ≠ ∅ → absoluteText l.hostname = some l.hostname
  identified : l.dnsRecords ≠ ∅ → (dhcidSource4 l).isSome

theorem queueNCR4_of_no_records (h : l.dnsRecords = ∅) {change : NameChangeType} :
    queueNCR4 d2 change l = none := by
  have hnone (dhcid : DhcidSource) : queueNCRCommon d2 change l.toLease dhcid = none := by
    unfold queueNCRCommon
    rcases Lease4.dnsRecords_eq_empty_iff.mp h with hname | ⟨hfwd, hrev⟩
    · rw [if_pos (by simp [hname])]
    · rw [if_pos (by simp [hfwd, hrev])]
  unfold queueNCR4
  cases dhcidSource4 l with
  | none => rfl
  | some dhcid => exact hnone dhcid

/-- What is sent for a lease carries the records of the lease. -/
theorem queueNCR4_eq (henabled : d2.ddnsEnabled = true) (h : l.Publishable)
    (hrecords : l.dnsRecords ≠ ∅) {change : NameChangeType} :
    ∃ r, queueNCR4 d2 change l = some r ∧ r.changeType = change ∧
      dnsRecords r.fqdn r.ipAddress r.forwardChange r.reverseChange = l.dnsRecords := by
  obtain ⟨dhcid, hdhcid⟩ := isSome_iff_exists.mp (h.identified hrecords)
  have hsends := hrecords
  rw [ne_eq, Lease4.dnsRecords_eq_empty_iff, not_or] at hsends
  obtain ⟨hname, hflags⟩ := hsends
  have hskip : (l.hostname = "" || (!l.fqdnFwd && !l.fqdnRev) || !d2.ddnsEnabled) = false := by
    cases hfwd : l.fqdnFwd <;> cases hrev : l.fqdnRev <;> simp [hname, henabled, hfwd, hrev] at hflags ⊢
  unfold queueNCR4
  rw [hdhcid, Option.bind_some, queueNCRCommon, if_neg (Bool.eq_false_iff.mp hskip),
    h.absolute hrecords, Lease4.dnsRecords, if_neg hname]
  exact ⟨_, rfl, rfl, rfl⟩

section

variable (henabled : d2.ddnsEnabled = true) (h : l.Publishable)
include henabled h

theorem zone_queueNCR4 (change : NameChangeType) :
    zone (ncrs ++ (queueNCR4 d2 change l).toList) = match change with
      | .add => zone ncrs ∪ l.dnsRecords
      | .remove => zone ncrs \ l.dnsRecords := by
  unfold zone replay
  rw [List.foldl_append]
  by_cases hrecords : l.dnsRecords = ∅
  · rw [queueNCR4_of_no_records hrecords, hrecords]
    cases change <;> simp
  · obtain ⟨r, hsome, htype, hr⟩ := queueNCR4_eq henabled h hrecords
    rw [hsome, ← hr]
    cases change <;> simp [applyNcr, htype]

theorem zone_remove {ncrs : List (NameChangeRequest 32)} :
    zone (ncrs ++ (queueNCR4 d2 .remove l).toList) = zone ncrs \ l.dnsRecords :=
  zone_queueNCR4 ncrs henabled h .remove

theorem zone_add {ncrs : List (NameChangeRequest 32)} :
    zone (ncrs ++ (queueNCR4 d2 .add l).toList) = zone ncrs ∪ l.dnsRecords :=
  zone_queueNCR4 ncrs henabled h .add

end

/-! ## The invariant -/

/-- What the leases of the database have in common. -/
structure Lease4.Nameable (l : Lease4) : Prop extends l.Publishable where
  /-- Without a client, a lease has no name. -/
  silent : l.state ≠ .default → l.hostname = ""

theorem Lease4.dnsRecords_of_unnamed (h : l.hostname = "") : l.dnsRecords = ∅ := if_pos h

theorem Lease4.nameable_of_unnamed (h : l.hostname = "") : l.Nameable where
  absolute hrecords := absurd (dnsRecords_of_unnamed h) hrecords
  identified hrecords := absurd (dnsRecords_of_unnamed h) hrecords
  silent _ := h

theorem records_of_empty (h : l.dnsRecords = ∅) : leaseRecords.records l = ∅ := by
  show (l.dnsRecords : Set DnsRecord) = ∅
  rw [h, Finset.coe_empty]

/-- **DNS and the leases agree.** -/
structure Named (st : Server4) : Prop where
  inSync : leaseRecords.InSync st.leases.getLease4 (zone st.ncrs)
  nameable : ∀ l ∈ st.leases, l.Nameable

theorem getLease4_erase : getLease4 (db.erase addr) = update db.getLease4 addr none := by
  funext a
  rw [update_apply]
  exact find_erase

variable {n : Lease4}

theorem getLease4_replace (h : db.getLease4 n.addr = some l) :
    getLease4 (db.replace n) = update db.getLease4 n.addr (some n) := by
  funext a
  rw [update_apply]
  exact find_replace h

theorem getLease4_insert (h : db.getLease4 n.addr = none) :
    getLease4 (db.insert n) = update db.getLease4 n.addr (some n) := by
  funext a
  rw [update_apply]
  exact find_insert h

section Events

section

variable (h : Named st) (hddns : env.d2.ddnsEnabled = true)
include h hddns

theorem Named.erase (hl : l ∈ st.leases)
    (stats : Stats) :
    Named
      { st with
        leases := st.leases.erase l.addr
        stats := stats
        ncrs := st.ncrs ++ (queueNCR4 env.d2 .remove l).toList } := by
  refine ⟨?_, fun l' hl' => h.nameable l' (mem_erase.mp hl').1⟩
  have hpub := (h.nameable l hl).toPublishable
  rw [zone_remove hddns hpub, getLease4_erase]
  exact h.inSync.withdraw (getLease4_of_mem hl)

/-- A lease is replaced by one without a name, and its records are removed. -/
theorem Named.unname (hl : l ∈ st.leases)
    (n : Lease4) (haddr : n.addr = l.addr) (hname : n.hostname = "") (stats : Stats) :
    Named
      { st with
        leases := st.leases.replace n
        stats := stats
        ncrs := st.ncrs ++ (queueNCR4 env.d2 .remove l).toList } := by
  have hget : st.leases.getLease4 n.addr = some l := by
    rw [haddr]
    exact getLease4_of_mem hl
  have hpub := (h.nameable l hl).toPublishable
  constructor
  · dsimp only
    rw [zone_remove hddns hpub, getLease4_replace hget]
    have hsilent := records_of_empty (Lease4.dnsRecords_of_unnamed hname)
    have hfree : leaseRecords.InSync
        (update st.leases.getLease4 n.addr none) (zone st.ncrs \ l.dnsRecords) := by
      rw [haddr]
      exact h.inSync.withdraw (getLease4_of_mem hl)
    have hput := hfree.announce_silent (a := n) (update_self _ _ _) hsilent
    rwa [show leaseRecords.key n = n.addr from rfl, update_idem] at hput
  · intro l' hl'
    rcases mem_of_mem_replace hl' with rfl | hl'
    · exact Lease4.nameable_of_unnamed hname
    · exact h.nameable l' hl'

variable {m : ClientMessage4}

theorem processRelease_named : Named (after (processRelease env m) st) := by
  unfold after
  cases hown : m.ownLease st.leases with
  | none =>
    rw [processRelease_none hown]
    exact h
  | some l =>
    rw [processRelease_some hown]
    exact h.erase hddns (ownLease_spec hown).1 _

theorem processDecline_named {period : Nat} :
    Named (after (processDecline env period m) st) := by
  unfold after
  cases hown : m.ownLease st.leases with
  | none =>
    rw [processDecline_none hown]
    exact h
  | some l =>
    rw [processDecline_some hown]
    exact h.unname hddns (ownLease_spec hown).1 (l.decline env.now period) rfl rfl _

theorem reclaimExpiredLease4_named
    {mode : DbReclaimMode} (hmode : mode ≠ .leaveUnchanged) (hl : l ∈ st.leases) :
    Named (after (reclaimExpiredLease4 env mode l) st) := by
  unfold after
  rw [reclaimExpiredLease4_run hmode hl]
  unfold finalState
  dsimp only
  split
  · exact h.erase hddns hl _
  · exact h.unname hddns hl l.reclaimed rfl rfl _

end

/-- Leases that are reclaimed have no names any more. -/
theorem deleteExpiredReclaimedLeases4_named (h : Named st) {secs : Nat} :
    Named (after (deleteExpiredReclaimedLeases4 env secs) st) := by
  constructor
  · refine h.inSync.restrict (fun addr l hl => ?_) fun addr l hl => ?_
    · obtain ⟨hmem, haddr⟩ := find_eq_some_iff.mp hl
      exact find_eq_some_iff.mpr ⟨(mem_filter.mp hmem).1, haddr⟩
    obtain ⟨hmem, haddr⟩ := find_eq_some_iff.mp hl
    by_cases hreclaimed : l.stateExpiredReclaimed = true
    · refine .inr ?_
      have hname : l.hostname = "" := by
        refine (h.nameable l hmem).silent fun hdefault => ?_
        simp [stateExpiredReclaimed, hdefault] at hreclaimed
      exact records_of_empty (Lease4.dnsRecords_of_unnamed hname)
    · refine .inl (find_eq_some_iff.mpr ⟨mem_filter.mpr ⟨hmem, ?_⟩, haddr⟩)
      simp [hreclaimed]
  · intro l hl
    exact h.nameable l (mem_filter.mp hl).1

end Events

/-! ## The name change requests of the engine -/

/-- What is sent when a lease takes the place of another: an expired one is reclaimed before. -/
def reclaimNcrs (env : Env) : Option Lease4 → List (NameChangeRequest 32)
  | none => []
  | some e => if e.expired env.now then e.useNcrs env else []

/-! ## What a request grants -/

/-- The leases without the client's. -/
def withoutFound (db : Lease4Storage) : Option Lease4 → Address 32 → Option Lease4
  | none => db.getLease4
  | some l => update db.getLease4 l.addr none

/-- A request led to lease `n`: all that it did to the leases and to the name change requests. -/
structure Granted4 (env : Env) (ctx : ClientContext4) (s : SubnetPtr 32) (st : Server4)
    (n : Lease4) (old : Option Lease4) (st' : Server4) : Prop where
  hostname : n.hostname = ctx.hostname
  fqdnFwd : n.fqdnFwd = ctx.fwdDnsUpdate
  fqdnRev : n.fqdnRev = ctx.revDnsUpdate
  state : n.state = .default
  hwaddr : n.hwaddr = ctx.hwaddr
  clientId : ∃ t ∈ s.siblings, n.clientId = ctx.clientIdFor t
  old_eq : old = (findClientLease st.leases ctx s).1.or (st.leases.getLease4 n.addr)
  ncrs : st'.ncrs = st.ncrs ++ reclaimNcrs env (st.leases.getLease4 n.addr)
  leases : st'.leases.getLease4 =
    update (withoutFound st.leases (findClientLease st.leases ctx s).1) n.addr (some n)
  /-- The client's lease is renewed, or the address had no lease that counts. -/
  place : (∃ l, (findClientLease st.leases ctx s).1 = some l ∧ l.addr = n.addr) ∨
    (∀ l, (findClientLease st.leases ctx s).1 = some l → l.addr ≠ n.addr) ∧
      ∀ e, st.leases.getLease4 n.addr = some e → e.expired env.now = true
  own : ∀ l, (findClientLease st.leases ctx s).1 = some l →
    AsksForOwn ctx (findClientLease st.leases ctx s).2 l → l.addr = n.addr

/-- The lease that is placed has the names of the query. -/
theorem Placed4.of_real {lease : Lease4} (h : Placed4 env ctx s addr st st' lease old)
    (hreal : ctx.fakeAllocation = false) :
    lease.hostname = ctx.hostname ∧ lease.fqdnFwd = ctx.fwdDnsUpdate ∧
      lease.fqdnRev = ctx.revDnsUpdate ∧ lease.state = .default ∧ lease.hwaddr = ctx.hwaddr ∧
      lease.clientId = ctx.clientIdFor s ∧ old = st.leases.getLease4 addr ∧
      st'.ncrs = st.ncrs ++ reclaimNcrs env (st.leases.getLease4 addr) ∧
      st'.leases.getLease4 = update st.leases.getLease4 addr (some lease) ∧
      ∀ e, st.leases.getLease4 addr = some e → e.expired env.now = true := by
  cases h with
  | created _ hfree hleases _ hncrs =>
    refine ⟨rfl, rfl, rfl, rfl, rfl, rfl, hfree.symm, ?_, ?_, ?_⟩
    · rw [hncrs, hfree]
      exact (List.append_nil _).symm
    · rw [hleases]
      exact getLease4_insert hfree
    · intro e he
      rw [hfree] at he
      cases he
  | @reused e _ hexist hexp hleases _ hncrs =>
    obtain ⟨-, rfl⟩ := mem_of_getLease4 hexist
    refine ⟨rfl, rfl, rfl, rfl, rfl, rfl, hexist.symm, ?_, ?_, ?_⟩
    · rw [hncrs, hexist, reclaimNcrs, if_pos hexp]
    · rw [hleases]
      exact getLease4_replace hexist
    intro e' he'
    rw [hexist] at he'
    obtain rfl := some.inj he'
    exact hexp
  | offered hfake =>
    rw [hreal] at hfake
    cases hfake

theorem Removed4.getLease4 {st₁ : Server4} {found : Option Lease4} (h : Removed4 found st₁ st')
    (hplaced : st₁.leases.getLease4 = update st.leases.getLease4 n.addr (some n))
    (hne : ∀ l, found = some l → l.addr ≠ n.addr) :
    st'.leases.getLease4 = update (withoutFound st.leases found) n.addr (some n) := by
  cases found with
  | none =>
    rw [Unchanged4.leases h]
    exact hplaced
  | some l =>
    rw [h.1, getLease4_erase, hplaced]
    exact update_comm (hne l rfl).symm _ _ _

theorem Removed4.ncrs_eq {st₁ : Server4} {found : Option Lease4} (h : Removed4 found st₁ st') :
    st'.ncrs = st₁.ncrs := by
  cases found with
  | none => exact Unchanged4.ncrs h
  | some l => exact h.2.2

theorem renew_sibling {t : SubnetPtr 32} (hplan : requestPlan env ctx db s = .ok (.renew l t)) :
    t ∈ s.siblings := by
  obtain ⟨-, addr, u, hclear, hrenew⟩ := requestPlan_renew hplan
  refine SubnetPtr.sibling_trans (findClientLease_sibling ..) (SubnetPtr.sibling_trans hclear.sibling ?_)
  rcases (renewalSubnet_some hrenew).2 with hres | ⟨-, hpool⟩
  · exact hasAddressReservation_sibling hres
  · exact inAllowedPool_sibling hpool

/-- **Everything that a request for a lease does**, where it leads to one. -/
theorem allocateLease4_grants (hreal : ctx.fakeAllocation = false)
    (hstart : startSubnet ctx = some s) (hrun : allocateLease4 env ctx st = .ok r st')
    (hnew : r.newLease = some n) : Granted4 env ctx s st n r.oldLease st' := by
  have hout := allocateLease4_outcome env hreal hstart st
  rw [hrun] at hout
  obtain ⟨-, -, -, hsupported⟩ := startSubnet_spec hstart
  cases hout with
  | refused hnone =>
    rw [hnew] at hnone
    cases hnone
  | @renewed _ l t _ hplan hnew' hleases _ hold hncrs =>
    obtain rfl := some.inj (hnew.symm.trans hnew')
    have hfound := (requestPlan_renew hplan).1
    have hl := (findClientLease_some hfound).1
    have hget : st.leases.getLease4 (renewedLease4 env ctx t l).addr = some l :=
      getLease4_of_mem hl
    refine ⟨rfl, rfl, rfl, rfl, rfl, ⟨t, renew_sibling hplan, rfl⟩, ?_, ?_, ?_,
      .inl ⟨l, hfound, rfl⟩, ?_⟩
    · rw [hold, hfound]
      rfl
    · rw [hncrs, hget]
      rfl
    · rw [hfound, hleases, getLease4_replace hget]
      exact (update_idem _ _ _).symm
    intro l' hl' _
    rw [hfound] at hl'
    obtain rfl := some.inj hl'
    rfl
  | @allocated _ addr t previous old lease st₁ _ hplan hplaced hnew' hremoved hold =>
    obtain rfl := some.inj (hnew.symm.trans hnew')
    obtain rfl := hplaced.addr_eq
    obtain ⟨hhost, hfwd, hrev, hstate, hhw, hclient, rfl, hncrs, hput, hexp⟩ := hplaced.of_real hreal
    obtain rfl := (requestPlan_allocate hplan).1
    have hother := fun l (hl : (findClientLease st.leases ctx s).1 = some l) =>
      allocate_other_addr hplan hl
    have ht := (requestPlan_allocate hplan).2.2.1.sibling
    refine ⟨hhost, hfwd, hrev, hstate, hhw,
      ⟨t, SubnetPtr.sibling_trans (findClientLease_sibling ..) ht, hclient⟩, hold,
      hremoved.ncrs_eq.trans hncrs, hremoved.getLease4 hput hother, .inr ⟨hother, hexp⟩, ?_⟩
    intro l hl hasks
    rw [hl] at hplan
    exact absurd hplan hasks.not_allocate
  | @picked _ t preferred u previous old lease st₁ _ hplan hpref hsup hu hpicked hnew' hremoved hold =>
    obtain rfl := some.inj (hnew.symm.trans hnew')
    obtain ⟨hpool, -, hplaced⟩ := hpicked
    obtain ⟨hhost, hfwd, hrev, hstate, hhw, hclient, rfl, hncrs, hput, hexp⟩ := hplaced.of_real hreal
    obtain rfl := (requestPlan_pick hplan).1
    have hother := fun l (hl : (findClientLease st.leases ctx s).1 = some l) =>
      pick_other_addr hsupported hplan hpref hsup hu hpool hl
    have ht := (requestPlan_pick hplan).2.1.sibling
    have hu' : u ∈ s.siblings := SubnetPtr.sibling_trans (findClientLease_sibling ..)
      (SubnetPtr.sibling_trans ht (SubnetPtr.sibling_trans hpref (SubnetPtr.sibling_of_mem_walkFor hu)))
    refine ⟨hhost, hfwd, hrev, hstate, hhw, ⟨u, hu', hclient⟩, hold, hremoved.ncrs_eq.trans hncrs,
      hremoved.getLease4 hput hother, .inr ⟨hother, hexp⟩, ?_⟩
    intro l hl hasks
    rw [hl] at hplan
    exact absurd hplan hasks.not_pick

/-! ## The records after a request -/

variable {n' : Lease4} {name : String}

section Granted

/-- The records of the lease that is replaced, if there is one. -/
def oldRecords : Option Lease4 → Set DnsRecord
  | none => ∅
  | some l => l.dnsRecords

/-- The records that go when the lease is reclaimed before use. -/
def reclaimedRecords (env : Env) : Option Lease4 → Set DnsRecord
  | none => ∅
  | some e => if e.expired env.now then e.dnsRecords else ∅

variable {o : Option Lease4}

theorem reclaimedRecords_subset : reclaimedRecords env o ⊆ oldRecords o := by
  cases o with
  | none => exact Set.empty_subset _
  | some e =>
    rw [reclaimedRecords]
    split
    · exact Set.Subset.rfl
    · exact Set.empty_subset _

theorem reclaimedRecords_of_expired (h : ∀ e, o = some e → e.expired env.now = true) :
    reclaimedRecords env o = oldRecords o := by
  cases o with
  | none => rfl
  | some e => exact if_pos (h e rfl)

theorem Named.zone_reclaimNcrs (h : Named st) (hddns : env.d2.ddnsEnabled = true) :
    zone (st.ncrs ++ reclaimNcrs env (st.leases.getLease4 addr)) =
      zone st.ncrs \ reclaimedRecords env (st.leases.getLease4 addr) := by
  cases hget : st.leases.getLease4 addr with
  | none => simp [reclaimNcrs, reclaimedRecords]
  | some e =>
    have hname := h.nameable e (mem_of_getLease4 hget).1
    rw [reclaimNcrs, reclaimedRecords]
    split
    · unfold Lease4.useNcrs
      split
      · rename_i hrec
        have hstate : e.state ≠ .default := by
          intro hdefault
          simp [stateExpiredReclaimed, hdefault] at hrec
        simp [Lease4.dnsRecords_of_unnamed (hname.silent hstate)]
      · exact zone_remove hddns hname.toPublishable
    · simp

/-- Once the old lease's records are gone, nothing is left for the address of the new one. -/
theorem Granted4.cleared (h : Granted4 env ctx s st n old st') (hnamed : Named st)
    (hddns : env.d2.ddnsEnabled = true) :
    leaseRecords.InSync
      (update (withoutFound st.leases (findClientLease st.leases ctx s).1) n.addr none)
      (zone st'.ncrs \ oldRecords old) := by
  rw [h.ncrs, hnamed.zone_reclaimNcrs hddns, h.old_eq]
  rcases h.place with ⟨l, hfound, haddr⟩ | ⟨hother, hexp⟩
  · -- The old lease is the one of the address.
    have hget := getLease4_of_mem (findClientLease_some hfound).1
    have hwithdraw := hnamed.inSync.withdraw (a := l) hget
    rw [hfound, ← haddr, hget, some_or, sdiff_sdiff,
      sup_eq_right.mpr reclaimedRecords_subset, withoutFound, update_idem]
    exact hwithdraw
  · -- The address is free, once an expired lease is reclaimed.
    rw [reclaimedRecords_of_expired hexp]
    have hfree : leaseRecords.InSync (update st.leases.getLease4 n.addr none)
        (zone st.ncrs \ oldRecords (st.leases.getLease4 n.addr)) := by
      cases hget : st.leases.getLease4 n.addr with
      | none =>
        rw [← hget, update_eq_self]
        simpa [hget, oldRecords] using hnamed.inSync
      | some e =>
        obtain ⟨-, haddr⟩ := mem_of_getLease4 hget
        rw [← haddr] at hget ⊢
        exact hnamed.inSync.withdraw (a := e) hget
    cases hfound : (findClientLease st.leases ctx s).1 with
    | none =>
      rw [none_or, sdiff_idem]
      exact hfree
    | some l =>
      have hne := hother l hfound
      have hget := getLease4_of_mem (findClientLease_some hfound).1
      have hl : update st.leases.getLease4 n.addr none l.addr = some l := by
        rw [update_of_ne hne]
        exact hget
      rw [withoutFound, update_comm hne]
      exact hfree.withdraw (a := l) hl

/-- The lease under the name that it is given in the end. -/
def Lease4.named (l : Lease4) (name : String) : Lease4 := { l with hostname := name }

/-- `createNameChangeRequests` as an equation. -/
theorem zone_createNameChangeRequests (henabled : env.d2.ddnsEnabled = true) (hn : n'.Publishable)
    (hold : ∀ o, old = some o → o.Publishable) :
    ∃ ncrs, createNameChangeRequests env n' old st' = .ok () { st' with ncrs := ncrs } ∧
      zone ncrs = if old.any (n'.hasIdenticalFqdn ·.toLease) then zone st'.ncrs
        else (zone st'.ncrs \ oldRecords old) ∪ n'.dnsRecords := by
  cases old with
  | none =>
    refine ⟨_, rfl, ?_⟩
    rw [zone_add henabled hn]
    simp [oldRecords]
  | some o =>
    unfold createNameChangeRequests
    dsimp only
    cases hsame : n'.hasIdenticalFqdn o.toLease with
    | true => exact ⟨_, rfl, by simp [hsame]⟩
    | false =>
      refine ⟨_, rfl, ?_⟩
      rw [zone_add henabled hn, zone_remove henabled (hold o rfl)]
      simp [hsame, oldRecords]

theorem hasIdenticalFqdn_iff {o : Lease4} :
    n.hasIdenticalFqdn o.toLease = true ↔
      n.hostname = o.hostname ∧ n.fqdnFwd = o.fqdnFwd ∧ n.fqdnRev = o.fqdnRev := by
  simp [hasIdenticalFqdn, and_assoc]

/-- The old lease has records, and either expired or is given up for the address of the new one. -/
def Stale (env : Env) (found : Option Lease4) (n : Lease4) (o : Lease4) : Prop :=
  o.dnsRecords ≠ ∅ ∧ (o.expired env.now = true ∨ found = some o ∧ o.addr ≠ n.addr)

theorem Granted4.renewed_of_not_stale (h : Granted4 env ctx s st n old st') {o : Lease4}
    (hold : old = some o) (hrecords : o.dnsRecords ≠ ∅)
    (hstale : ¬Stale env (findClientLease st.leases ctx s).1 n o) :
    (findClientLease st.leases ctx s).1 = some o ∧ o.addr = n.addr ∧ o.expired env.now = false := by
  have hexpired : o.expired env.now = false := by
    simpa using fun hexp => hstale ⟨hrecords, .inl hexp⟩
  have hor := h.old_eq.symm.trans hold
  cases hfound : (findClientLease st.leases ctx s).1 with
  | none =>
    rw [hfound] at hor
    rcases h.place with ⟨l, hl, -⟩ | ⟨-, hexp⟩
    · rw [hfound] at hl
      cases hl
    · rw [hexp o hor] at hexpired
      cases hexpired
  | some l =>
    rw [hfound] at hor
    obtain rfl := some.inj hor
    refine ⟨rfl, ?_, hexpired⟩
    by_contra hne
    exact hstale ⟨hrecords, .inr ⟨hfound, hne⟩⟩

/-- **After a request DNS and the leases agree**, unless the name is that of a stale lease. -/
theorem Granted4.inSync (h : Granted4 env ctx s st n old st') (hnamed : Named st)
    (hddns : env.d2.ddnsEnabled = true) {ncrs : List (NameChangeRequest 32)}
    (hzone : zone ncrs = if old.any ((n.named name).hasIdenticalFqdn ·.toLease) then zone st'.ncrs
        else (zone st'.ncrs \ oldRecords old) ∪ (n.named name).dnsRecords)
    (hfresh : ∀ o, old = some o → (n.named name).hasIdenticalFqdn o.toLease = true →
      ¬Stale env (findClientLease st.leases ctx s).1 n o) :
    leaseRecords.InSync (update (withoutFound st.leases (findClientLease st.leases ctx s).1) n.addr
        (some (n.named name))) (zone ncrs) := by
  have hcleared := h.cleared hnamed hddns
  have hput : update
      (update (withoutFound st.leases (findClientLease st.leases ctx s).1) n.addr none)
      n.addr (some (n.named name)) = _ := update_idem _ _ _
  have hself : update
      (withoutFound st.leases (findClientLease st.leases ctx s).1) n.addr none n.addr = none :=
    update_self _ _ _
  by_cases hsame : old.any ((n.named name).hasIdenticalFqdn ·.toLease) = true
  · rw [hzone, if_pos hsame]
    obtain ⟨o, hold, hidentical⟩ := (any_eq_true _ _).mp hsame
    obtain ⟨hname, hfwd, hrev⟩ := hasIdenticalFqdn_iff.mp hidentical
    by_cases hrecords : o.dnsRecords = ∅
    · -- Neither lease has records.
      have hempty : (n.named name).dnsRecords = ∅ := by
        rw [Lease4.dnsRecords_eq_empty_iff, hname, hfwd, hrev,
          ← Lease4.dnsRecords_eq_empty_iff]
        exact hrecords
      have hnothing : oldRecords old = ∅ := by
        rw [hold]
        exact records_of_empty hrecords
      rw [hnothing, Set.sdiff_empty] at hcleared
      rw [← hput]
      exact hcleared.announce_silent (a := n.named name) hself (records_of_empty hempty)
    · -- The lease stays where it is, with the same records.
      obtain ⟨hfound, haddr, hexpired⟩ :=
        h.renewed_of_not_stale hold hrecords (hfresh o hold hidentical)
      have hget := getLease4_of_mem (findClientLease_some hfound).1
      rw [haddr] at hget
      have hrecords' : o.dnsRecords = (n.named name).dnsRecords := by
        unfold Lease4.dnsRecords
        rw [hname, hfwd, hrev, haddr]
        rfl
      have hstay : zone st'.ncrs = zone st.ncrs := by
        rw [h.ncrs, hnamed.zone_reclaimNcrs hddns, hget, reclaimedRecords, hexpired,
          if_neg Bool.false_ne_true, Set.sdiff_empty]
      have hsets : leaseRecords.records o = leaseRecords.records (n.named name) :=
        congrArg (fun r : Finset DnsRecord => (r : Set DnsRecord)) hrecords'
      rw [hstay, hfound, withoutFound, haddr, update_idem]
      exact hnamed.inSync.exchange (a := n.named name) hget hsets
  · rw [hzone, if_neg hsame, ← hput]
    exact hcleared.announce (a := n.named name) hself

end Granted

/-! ## Requests -/

/-- The names that a query may lead to. -/
def Exchange4.MayName (env : Env) (x : Exchange4) (name : String) : Prop :=
  name = x.name.forContext.1 ∨ ∃ s lease, lease.hostname = x.name.forContext.1 ∧
    x.finalName env false s lease = some name

/-- The lease has a name that the query may lead to, with the same DNS updates. -/
structure Exchange4.KeepsFqdn (env : Env) (x : Exchange4) (l : Lease4) : Prop where
  fqdnFwd : l.fqdnFwd = x.name.forContext.2.1
  fqdnRev : l.fqdnRev = x.name.forContext.2.2
  hostname : x.MayName env l.hostname

/-- The name is one that DNS is told. -/
def Exchange4.MayPublish (env : Env) (x : Exchange4) (name : String) : Prop :=
  x.MayName env name ∧ name ≠ "" ∧
    ¬(x.name.forContext.2.1 = false ∧ x.name.forContext.2.2 = false)

/-- There is something to compute a DHCID from in every lease that the client may get. -/
def Exchange4.Identified (x : Exchange4) : Prop :=
  x.hwaddr.any (·.hwaddr ≠ []) = true ∨
    x.clientId.isSome ∧ ∀ s, x.subnet = some s → ∀ t ∈ s.siblings, t.subnet.matchClientId = true

/--
The records of the lease that goes are replaced: a lease that has expired, or that the client gives
up for another address, does not have its new name. DNS is told the name of the lease.
-/
structure Exchange4.Renames (env : Env) (x : Exchange4) (st : Server4) : Prop where
  expired : ∀ l ∈ st.leases, l.dnsRecords ≠ ∅ → l.expired env.now = true → ¬x.KeepsFqdn env l
  givenUp : ∀ s l, startSubnet (x.context false) = some s →
    (findClientLease st.leases (x.context false) s).1 = some l → l.dnsRecords ≠ ∅ →
    AsksForOwn (x.context false) (findClientLease st.leases (x.context false) s).2 l ∨
      ¬x.KeepsFqdn env l
  absolute : ∀ name, x.MayPublish env name → absoluteText name = some name
  identified : ∀ name, x.MayPublish env name → x.Identified

section Requests

variable {x : Exchange4}

theorem settleName_named {t : Option (SubnetPtr 32)} (hget : st.leases.getLease4 n.addr = some n)
    (hhost : n.hostname = x.name.forContext.1) :
    ∃ name response st', settleName env x false t n st = .ok (n.named name, response) st' ∧
      x.MayName env name ∧ st'.ncrs = st.ncrs ∧
      st'.leases.getLease4 =
        update st.leases.getLease4 n.addr (some (n.named name)) := by
  cases hname : x.finalName env false t n with
  | none =>
    refine ⟨n.hostname, x.name, st, ?_, .inl hhost, rfl, ?_⟩
    · simp [settleName, hname, Lease4.named]
    · exact ((update_eq_self_iff).mpr hget.symm).symm
  | some name =>
    have hget' : st.leases.getLease4 (n.named name).addr = some n := hget
    exact ⟨name, _, _, settleName_real hname hget, .inr ⟨t, n, hhost, hname⟩, rfl,
      getLease4_replace hget'⟩

theorem Named.of_same (h : Named st) (hleases : st'.leases = st.leases)
    (hncrs : st'.ncrs = st.ncrs) : Named st' := by
  obtain ⟨hsync, hnameable⟩ := h
  refine ⟨?_, ?_⟩
  · rw [hleases, hncrs]
    exact hsync
  · rw [hleases]
    exact hnameable

theorem mem_of_granted
    (hdb : db.getLease4 = update (withoutFound st.leases (findClientLease st.leases ctx s).1) n.addr (some n'))
    (hl : l ∈ db) : l = n' ∨ l ∈ st.leases := by
  have hget := getLease4_of_mem hl
  rw [hdb] at hget
  by_cases haddr : l.addr = n.addr
  · rw [haddr, update_self] at hget
    exact .inl (some.inj hget).symm
  rw [update_of_ne haddr] at hget
  cases hfound : (findClientLease st.leases ctx s).1 with
  | none =>
    rw [hfound] at hget
    exact .inr (mem_of_getLease4 hget).1
  | some q =>
    rw [hfound, withoutFound] at hget
    by_cases hq : l.addr = q.addr
    · rw [hq, update_self] at hget
      cases hget
    · rw [update_of_ne hq] at hget
      exact .inr (mem_of_getLease4 hget).1

/-- The lease has a client identifier or a hardware address for the DHCID. -/
theorem Granted4.identified (h : Granted4 env (x.context false) s st n old st')
    (hstart : startSubnet (x.context false) = some s) (hid : x.Identified) :
    (dhcidSource4 n).isSome := by
  unfold dhcidSource4
  cases hclient : n.clientId with
  | some c => rfl
  | none =>
    rcases hid with hhw | ⟨hclientid, hmatch⟩
    · rw [Option.any_eq_true] at hhw
      obtain ⟨hw, hhw, hne⟩ := hhw
      have hn : n.hwaddr = some hw := h.hwaddr.trans hhw
      simpa [hn] using hne
    · obtain ⟨t, ht, hfor⟩ := h.clientId
      obtain ⟨s₀, hs₀, hs, -⟩ := startSubnet_spec hstart
      have hmatches := hmatch s₀ hs₀ t (SubnetPtr.sibling_trans hs ht)
      rw [hclient, ClientContext4.clientIdFor, if_pos hmatches] at hfor
      rw [show x.clientId = none from hfor.symm] at hclientid
      cases hclientid

/-- The lease that the client gets is one that DNS can be told about. -/
theorem Granted4.nameable (h : Granted4 env (x.context false) s st n old st')
    (hstart : startSubnet (x.context false) = some s) (hren : x.Renames env st)
    (hmay : x.MayName env name) : (n.named name).Nameable := by
  have hpublish : (n.named name).dnsRecords ≠ ∅ → x.MayPublish env name := by
    intro hrecords
    rw [ne_eq, Lease4.dnsRecords_eq_empty_iff, not_or] at hrecords
    refine ⟨hmay, hrecords.1, ?_⟩
    rintro ⟨hfwd, hrev⟩
    exact hrecords.2 ⟨h.fqdnFwd.trans hfwd, h.fqdnRev.trans hrev⟩
  refine ⟨⟨fun hrecords => ?_, fun hrecords => ?_⟩, fun hne => absurd h.state hne⟩
  · exact hren.absolute name (hpublish hrecords)
  · exact h.identified hstart (hren.identified name (hpublish hrecords))

/-- **What comes after an allocation**: the name is settled and DNS is told. -/
theorem respond_named (hnamed : Named st) (hddns : env.d2.ddnsEnabled = true)
    (hren : x.Renames env st) (hstart : startSubnet (x.context false) = some s)
    (hgrant : Granted4 env (x.context false) s st n r.oldLease st') (hnew : r.newLease = some n) :
    Named (after (respond env false x r) st') := by
  have hself : st'.leases.getLease4 n.addr = some n := by
    rw [hgrant.leases, update_self]
  obtain ⟨name, response, st₂, hsettle, hmay, hncrs, hleases⟩ :=
    settleName_named (x := x) hself hgrant.hostname
  rw [hgrant.leases, update_idem] at hleases
  have hnameable := hgrant.nameable hstart hren hmay
  have hold : ∀ o, r.oldLease = some o → o ∈ st.leases := by
    intro o ho
    rw [hgrant.old_eq] at ho
    cases hfound : (findClientLease st.leases (x.context false) s).1 with
    | none =>
      rw [hfound] at ho
      exact (mem_of_getLease4 ho).1
    | some l =>
      rw [hfound] at ho
      obtain rfl := some.inj ho
      exact (findClientLease_some hfound).1
  obtain ⟨ncrs, hrun, hzone⟩ := zone_createNameChangeRequests
    hddns hnameable.toPublishable fun o ho => (hnamed.nameable o (hold o ho)).toPublishable
  have hafter : after (respond env false x r) st' = { st₂ with ncrs := ncrs } := by
    unfold after respond
    rw [hnew]
    dsimp only
    rw [run_bind_ok hsettle]
    simp only [hddns, Bool.not_false, Bool.and_self, if_true]
    rw [run_bind_ok hrun]
    rfl
  rw [hafter]
  constructor
  · dsimp only
    rw [hleases]
    rw [hncrs] at hzone
    refine hgrant.inSync hnamed hddns hzone fun o ho hsame hstale => ?_
    obtain ⟨hname, hfwd, hrev⟩ := hasIdenticalFqdn_iff.mp hsame
    obtain ⟨hrecords, hexp | ⟨hfound, hne⟩⟩ := hstale
    all_goals
      have hkeeps : x.KeepsFqdn env o :=
        ⟨hfwd.symm.trans hgrant.fqdnFwd, hrev.symm.trans hgrant.fqdnRev, hname ▸ hmay⟩
    · exact hren.expired o (hold o ho) hrecords hexp hkeeps
    rcases hren.givenUp s o hstart hfound hrecords with hasks | hother
    · exact hne (hgrant.own o hfound hasks)
    · exact hother hkeeps
  · intro l hl
    rcases mem_of_granted hleases hl with rfl | hl
    · exact hnameable
    · exact hnamed.nameable l hl

theorem allocateLease4_refuses (hreal : ctx.fakeAllocation = false)
    (hstart : startSubnet ctx = some s) (hrun : allocateLease4 env ctx st = .ok r st')
    (hnew : r.newLease = none) : st'.leases = st.leases ∧ st'.ncrs = st.ncrs := by
  have hout := allocateLease4_outcome env hreal hstart st
  rw [hrun] at hout
  cases hout with
  | refused _ hsame => exact ⟨hsame.leases, hsame.ncrs⟩
  | renewed _ hnew' | allocated _ _ hnew' | picked _ _ _ _ _ hnew' =>
    exact absurd (hnew'.symm.trans hnew) (by simp)

theorem processRequest_named (hnamed : Named st) (hddns : env.d2.ddnsEnabled = true)
    (hren : x.Renames env st) : Named (after (processRequest env x) st) := by
  refine Post.after ?_
  by_cases hcheck : ∀ s₀, x.subnet = some s₀ → x.check false st.leases s₀ ≠ .proceed
  · obtain ⟨response, hrun, -⟩ := assignLease_of_not_check hcheck
    exact .of_ok hrun hnamed
  simp only [not_forall, not_not] at hcheck
  obtain ⟨s₀, hsubnet, hproceed⟩ := hcheck
  rw [EndsIn, Post, processRequest, assignLease_of_check env hsubnet hproceed]
  cases hstart : startSubnet (x.context false) with
  | none => exact Post.step (allocateLease4_no_subnet hstart) hnamed
  | some s =>
    refine Post.bind (.intro (fun r st₁ hrun => ?_) fun e st₁ hrun => ?_)
    · cases hnew : r.newLease with
      | none =>
        obtain ⟨hleases, hncrs⟩ := allocateLease4_refuses rfl hstart hrun hnew
        have hrespond := respond_run env false x r st₁
        rw [hnew] at hrespond
        exact .of_ok hrespond (hnamed.of_same hleases hncrs)
      | some n =>
        have hgrant := allocateLease4_grants rfl hstart hrun hnew
        exact Post.iff_after.mpr (respond_named hnamed hddns hren hstart hgrant hnew)
    · have hout := allocateLease4_outcome env rfl hstart st
      rw [hrun] at hout
      cases hout
      exact hnamed

end Requests

/-! ## Runs -/

/-- DNS updates are enabled, and the names that a client may get are valid domain names. -/
def Event4.Ddns : Event4 → Prop
  | .request env x => env.d2.ddnsEnabled = true ∧
      ∀ name, x.MayName env name → name ≠ "" → (absoluteText name).isSome
  | .release env _ => env.d2.ddnsEnabled = true
  | .decline env _ _ => env.d2.ddnsEnabled = true
  | .reclaim env _ _ _ => env.d2.ddnsEnabled = true
  | .deleteReclaimed env _ => env.d2.ddnsEnabled = true

/-- The condition on requests. -/
def Event4.Renames : Event4 → Server4 → Prop
  | .request env x, st => x.Renames env st
  | _, _ => True

/-- **What one event preserves.** -/
theorem event4_named {e : Event4} (h : Named st) (hddns : e.Ddns) (hren : e.Renames st) :
    Named (event4 e st) := by
  cases e with
  | request env x => exact processRequest_named h hddns.1 hren
  | release env m => exact processRelease_named h hddns
  | decline env period m => exact processDecline_named h hddns
  | reclaim env maxLeases inTime removeLease =>
    refine reclaimExpiredLeases4_inv (fun _ _ _ hmode hl _ h => ?_) h
    exact reclaimExpiredLease4_named h hddns hmode hl
  | deleteReclaimed env secs => exact deleteExpiredReclaimedLeases4_named h

theorem named_of_empty (hleases : st.leases = empty) (hncrs : st.ncrs = []) : Named st := by
  constructor
  · intro r
    rw [hleases, hncrs]
    constructor
    · exact fun h => (Finset.notMem_empty r h).elim
    · rintro ⟨l, hl, -⟩
      exact (not_mem_empty (mem_of_find hl)).elim
  · intro l hl
    rw [hleases] at hl
    exact (not_mem_empty hl).elim

/-- Only leases in use have records. -/
theorem Named.mem_replay_iff (h : Named st) {r : DnsRecord} :
    r ∈ replay st.ncrs ↔ ∃ l ∈ st.leases, l.state = .default ∧ l.hostname ≠ "" ∧
      r ∈ dnsRecords l.hostname l.addr l.fqdnFwd l.fqdnRev := by
  have hsync := h.inSync r
  constructor
  · intro hr
    obtain ⟨l, hl, hmem⟩ := hsync.mp hr
    have hl' := (mem_of_getLease4 hl).1
    have hname : l.hostname ≠ "" := by
      intro hempty
      have hmem' : r ∈ l.dnsRecords := hmem
      rw [Lease4.dnsRecords_of_unnamed hempty] at hmem'
      exact Finset.notMem_empty r hmem'
    refine ⟨l, hl', ?_, hname, ?_⟩
    · by_contra hstate
      exact hname ((h.nameable l hl').silent hstate)
    · have hmem' : r ∈ l.dnsRecords := hmem
      rwa [Lease4.dnsRecords, if_neg hname] at hmem'
  · rintro ⟨l, hl, -, hname, hmem⟩
    have haddr : r.addr = l.addr := addr_of_mem_dnsRecords hmem
    refine hsync.mpr ⟨l, ?_, ?_⟩
    · show st.leases.getLease4 r.addr = some l
      rw [haddr]
      exact getLease4_of_mem hl
    · show r ∈ l.dnsRecords
      rwa [Lease4.dnsRecords, if_neg hname]

/--
**DNS follows the leases**, in every run whose requests replace the names of leases that expired or
are given up.
-/
theorem dns_follows_leases (st₀ st : Server4) (hleases : st₀.leases = empty)
    (hncrs : st₀.ncrs = []) (hrun : Reaches event4 (fun e st => e.Ddns ∧ e.Renames st) st₀ st)
    (r : DnsRecord) :
    r ∈ replay st.ncrs ↔ ∃ l ∈ st.leases, l.state = .default ∧ l.hostname ≠ "" ∧
      r ∈ dnsRecords l.hostname l.addr l.fqdnFwd l.fqdnRev := by
  have hnamed : Named st :=
    hrun.inv (named_of_empty hleases hncrs) fun _ _ h hok => event4_named h hok.1 hok.2
  exact hnamed.mem_replay_iff

namespace Sample

variable (now : Time)

/-- DNS updates are on. -/
def ddnsAt : Env :=
  { envAt now noHosts with d2 := { ddnsEnabled := true, qualifyingSuffix := "" } }

/-- Client 1 asks for an address under a name. -/
def asks (addr : Address 32) (name : ClientName) : Event4 :=
  .request (ddnsAt now) { query (mac 1) none (some addr) with name := name }

section

variable {now : Time} {option : ClientName} (hoption : option.forContext.1 ≠ "")

include hoption

/-- The name that client 1 sends is the one it gets. -/
theorem eq_of_mayName {name' : String} (h : Exchange4.MayName (ddnsAt now)
      { query (mac 1) none (some addr) with name := option } name') :
    name' = option.forContext.1 := by
  rcases h with h | ⟨s, lease, hlease, hfinal⟩
  · exact h
  · have hhost : lease.hostname = option.forContext.1 := hlease
    cases s <;> simp [Exchange4.finalName, hhost, hoption, Exchange4.context,
      ClientContext4.currentHost, ClientContext4.findHost, query] at hfinal

theorem asks_ddns (h : (absoluteText option.forContext.1).isSome) :
    (asks now addr option).Ddns := by
  refine ⟨rfl, fun name' hmay _ => ?_⟩
  rw [eq_of_mayName hoption hmay]
  exact h

theorem asks_renames (haddr : addr ≠ 0)
    (habsolute : absoluteText option.forContext.1 = some option.forContext.1)
    (h : ∀ l ∈ st.leases.rows, l.expired now = false ∧ l.addr = addr) :
    (asks now addr option).Renames st where
  expired l hl _ hexp := absurd hexp (Bool.eq_false_iff.mp (h l hl).1)
  givenUp s l _ hfound _ := by
    have hl := (findClientLease_some hfound).1
    exact .inl (.inl ⟨haddr, (h l hl).2.symm⟩)
  absolute name' hmay := by
    rw [eq_of_mayName hoption hmay.1]
    exact habsolute
  identified _ _ := .inl rfl

end

end Sample

open Sample in
/-- Client 1 gets an address and renews it under another name. -/
theorem dns_follows_leases_sample :
    let st := event4 (asks 50 0xC000020A#32 (.fqdn "b." true true))
      (event4 (asks 0 0xC000020A#32 (.fqdn "a." true true)) (serverWith []))
    ⟨"b.", 0xC000020A#32, .forward⟩ ∈ replay st.ncrs ∧
      ((⟨"b.", 0xC000020A#32, .forward⟩ : DnsRecord) ∈ replay st.ncrs ↔
        ∃ l ∈ st.leases, l.state = .default ∧ l.hostname ≠ "" ∧
          ⟨"b.", 0xC000020A#32, .forward⟩ ∈ dnsRecords l.hostname l.addr l.fqdnFwd l.fqdnRev) := by
  intro st
  refine ⟨by decide, dns_follows_leases (serverWith []) st rfl rfl ?_ _⟩
  have hstep {st : Server4} (now : Time) (option : ClientName)
      (hoption : option.forContext.1 ≠ "")
      (habsolute : absoluteText option.forContext.1 = some option.forContext.1)
      (h : ∀ l ∈ st.leases.rows, l.expired now = false ∧ l.addr = 0xC000020A#32) :
      (asks now 0xC000020A#32 option).Ddns ∧ (asks now 0xC000020A#32 option).Renames st :=
    ⟨asks_ddns hoption (by rw [habsolute]; rfl), asks_renames hoption (by decide) habsolute h⟩
  refine .next _ (.next _ .start (hstep _ _ ?_ ?_ ?_)) (hstep _ _ ?_ ?_ ?_)
  all_goals decide

open Sample in
/--
A client renews its expired lease under the same name, and its records are gone. A client asks for
another address under the same name, and DNS keeps its records for the old one.
-/
theorem unchanged_name_out_of_sync :
    (∃ st, Reaches event4 (fun e _ => e.Ddns) (serverWith []) st ∧
      (∀ l ∈ st.leases.rows, l.expired 200 = false) ∧ replay st.ncrs = ∅ ∧
      ∃ l ∈ st.leases.rows, l.state = .default ∧ l.dnsRecords ≠ ∅) ∧
    (∃ st, Reaches event4 (fun e _ => e.Ddns) (serverWith []) st ∧
      (∀ l ∈ st.leases.rows, l.expired 50 = false ∧ l.addr = 0xC000020B#32) ∧
      ⟨"a.", 0xC000020A#32, .forward⟩ ∈ replay st.ncrs) ∧
    ∃ st, Reaches event4 (fun e _ => e.Ddns) (serverWith []) st ∧
      (∀ l ∈ st.leases.rows, l.expired 0 = false ∧ l.hostname = "pc") ∧
      ⟨"pc.", 0xC000020A#32, .forward⟩ ∈ replay st.ncrs := by
  have hddns (now : Time) (addr : Address 32) : (asks now addr (.fqdn "a." true true)).Ddns :=
    asks_ddns (by decide) (by decide)
  refine ⟨?_, ?_, ?_⟩
  · exact ⟨_, .next _ (.next _ .start (hddns 0 0xC000020A#32)) (hddns 200 0xC000020A#32),
      by decide, by decide, by decide⟩
  · exact ⟨_, .next _ (.next _ .start (hddns 0 0xC000020A#32)) (hddns 50 0xC000020B#32),
      by decide, by decide⟩
  · refine ⟨_, .next (asks 0 0xC000020A#32 (.hostname "pc")) .start ?_, by decide, by decide⟩
    exact asks_ddns (by decide) (by decide)

end Dhcp
