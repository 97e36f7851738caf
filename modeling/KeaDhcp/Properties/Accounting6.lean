import KeaDhcp.Infra.Ledger
import KeaDhcp.Dhcp6.Dhcp6Srv
import KeaDhcp.Properties.Returned6

/-!
# The DHCPv6 lease statistics

The statistics of assigned addresses and prefixes are raised for a lease in a pool of its subnet
only: a reservation outside of the pools does not use up the pools. They are lowered for any
lease. Here they are compared with the leases of the database that are in the pools.
-/

namespace Dhcp

open Infra ServerM6 Engine6 MultiIndex Sample Lease6 Balanced Lease6Storage ClientContext6 Stats
  SubnetPtr LeaseType Lease

variable {env : Env} {ctx : ClientContext6} {s t : SubnetPtr 128} {st st' : Server6}
  {sn sn' : Session6} {db : Lease6Storage} {l : Lease6} {leases ls kept removed : List Lease6}
variable {m : Lease6} {k : StatKey} {duid : DUID} {type : LeaseType} {iaid : Nat}
    {addrs : List (Address 128)}

/-! ## What a lease counts for -/

/-- The configured subnets, by their identifiers. -/
def Config6 := SubnetID → Option (Subnet 128)

variable {cfg : Config6}

/-- The subnets of the network are as configured. -/
def SubnetPtr.Configured (s : SubnetPtr 128) (cfg : Config6) : Prop :=
  ∀ t ∈ s.siblings, cfg t.getID = some t.subnet

/-- The lease is in a pool of its subnet. -/
def Lease6.pooled (l : Lease6) (cfg : Config6) : Bool :=
  (cfg l.subnetId).any fun subnet => subnet.inPool l.type l.addr

/-- The statistics count the lease: it is in a pool, and not reclaimed. -/
def Lease6.counted (l : Lease6) (cfg : Config6) : Bool :=
  l.state ≠ .expiredReclaimed && l.pooled cfg

/-- The statistics that say something about the leases of the database. -/
def tracked6 : StatKey → Prop
  | .subnet _ .assignedNas | .subnet _ .assignedPds => True
  | _ => False

/-- One lease of this type in this subnet. -/
def Lease6.unit (l : Lease6) (k : StatKey) : Int :=
  match l.type.assignedStat with
  | some name => if k = .subnet l.subnetId name then 1 else 0
  | none => 0

def Lease6.weight (cfg : Config6) (l : Lease6) (k : StatKey) : Int :=
  if l.counted cfg then l.unit k else 0

/-- The statistics are what the database says. -/
def Balanced6 (cfg : Config6) (st : Server6) : Prop :=
  Balanced tracked6 (weight cfg) st.leases st.stats

theorem Balanced6.of_unchanged (h : Balanced6 cfg st) (hsame : Unchanged6 st st') :
    Balanced6 cfg st' := by
  unfold Balanced6
  rw [hsame.leases, hsame.stats]
  exact h

theorem pooled_of_configured (ht : cfg t.getID = some t.subnet) (hl : l.subnetId = t.getID) :
    l.pooled cfg = t.subnet.inPool l.type l.addr := by
  simp [pooled, hl, ht]

theorem weight_of_reclaimed (h : l.state = .expiredReclaimed) : l.weight cfg k = 0 := by
  simp [weight, counted, h]

theorem weight_of_state (h : l.state ≠ .expiredReclaimed) :
    l.weight cfg k = if l.pooled cfg then l.unit k else 0 := by
  simp [weight, counted, h]

theorem weight_of_counted (h : l.counted cfg) : l.weight cfg k = l.unit k := by
  simp [weight, h]

theorem unit_congr (htype : m.type = l.type) (hsubnet : m.subnetId = l.subnetId) :
    m.unit k = l.unit k := by
  rw [unit, unit, htype, hsubnet]

section

variable (haddr : m.addr = l.addr) (htype : m.type = l.type) (hsubnet : m.subnetId = l.subnetId)
include haddr htype hsubnet

theorem pooled_congr : m.pooled cfg = l.pooled cfg := by
  rw [pooled, pooled, haddr, htype, hsubnet]

theorem weight_in_place (hstate : m.state ≠ .expiredReclaimed) :
    m.weight cfg k = if l.pooled cfg then l.unit k else 0 := by
  rw [weight_of_state hstate, pooled_congr haddr htype hsubnet, unit_congr htype hsubnet]

theorem weight_congr (hstate : m.state = l.state) : m.weight cfg k = l.weight cfg k := by
  rw [weight, weight, counted, counted, hstate,
    pooled_congr haddr htype hsubnet, unit_congr htype hsubnet]

end

/-! ## What the engine adds and subtracts -/

theorem assignedStat_of_context (htype : ctx.type ≠ .ta) :
    ctx.type.assignedStat = some ctx.statName := by
  have hv4 := ctx.type_ne_v4
  unfold statName
  cases hctx : ctx.type <;> simp_all [assignedStat]

theorem unit_of_context (htype : ctx.type ≠ .ta) (hl : l.type = ctx.type) :
    l.unit k = if k = .subnet l.subnetId ctx.statName then 1 else 0 := by
  rw [unit, hl, assignedStat_of_context htype]

variable {stats : Stats} {addr : Address 128}

theorem placedStats6_apply (htype : ctx.type ≠ .ta) (hl : l.type = ctx.type)
    (hsubnet : l.subnetId = s.getID) :
    placedStats6 ctx s addr stats k =
      stats k + if s.subnet.inPool ctx.type addr then l.unit k else 0 := by
  unfold placedStats6
  split
  · rw [addValue_apply, unit_of_context htype hl, hsubnet]
  · omega

theorem restoredStats6_apply (htype : ctx.type ≠ .ta) (hl : l.type = ctx.type) :
    restoredStats6 ctx s l stats k = stats k +
      if l.stateExpiredReclaimed && inAllowedPool6 ctx s ctx.type l.addr true then l.unit k else 0 := by
  unfold restoredStats6
  split
  · rw [addValue_apply, unit_of_context htype hl]
  · omega

variable {name : StatName}

theorem uncount_apply (h : l.type.assignedStat = some name) :
    stats.addValue (.subnet l.subnetId name) (-1) k = stats k - l.unit k := by
  rw [addValue_apply, unit, h]
  dsimp only
  split <;> omega

theorem reclaimStats6_apply (hk : tracked6 k) : l.reclaimStats stats k = stats k - l.unit k := by
  have hother : ∀ id, k ≠ .global .reclaimedLeases ∧ k ≠ .subnet id .reclaimedLeases ∧
      k ≠ .global .reclaimedDeclinedAddresses ∧ k ≠ .subnet id .reclaimedDeclinedAddresses ∧
      k ≠ .global .declinedAddresses ∧ k ≠ .subnet id .declinedAddresses := by
    unfold tracked6 at hk
    split at hk <;> simp_all
  obtain ⟨h₁, h₂, h₃, h₄, h₅, h₆⟩ := hother l.subnetId
  have hdeclined : (if l.stateDeclined then
      (((stats.addValue (.subnet l.subnetId .declinedAddresses) (-1)).addValue
        (.global .declinedAddresses) (-1)).addValue (.global .reclaimedDeclinedAddresses) 1).addValue
        (.subnet l.subnetId .reclaimedDeclinedAddresses) 1 else stats) k = stats k := by
    split
    · simp only [addValue_apply, h₃, h₄, h₅, h₆, if_false]
      omega
    · rfl
  unfold reclaimStats unit
  cases l.type.assignedStat with
  | none =>
    simp only [addValue_apply, h₁, h₂, if_false]
    omega
  | some name =>
    simp only [addValue_apply, h₂, if_false, hdeclined]
    split <;> omega

theorem useStats6_apply (hk : tracked6 k) :
    l.useStats stats k = stats k - if l.state = .expiredReclaimed then 0 else l.unit k := by
  unfold useStats stateExpiredReclaimed
  by_cases h : l.state = .expiredReclaimed
  · simp [h]
  · simp only [h, decide_false]
    exact reclaimStats6_apply hk

variable {hostname : String}

theorem weight_updatedLease6 (hreal : ctx.fakeAllocation = false) :
    (updatedLease6 env ctx hostname l).weight cfg k = if l.pooled cfg then l.unit k else 0 := by
  refine weight_in_place ?_ (updatedLease6_own ..).2.2 ?_ ?_
  · exact updatedLease6_addr ..
  · exact updatedLease6_subnetId ..
  simp only [updatedLease6, hreal, Bool.false_eq_true, conditionalExtendLifetime,
    stateExpiredReclaimed]
  by_cases hrec : l.state = .expiredReclaimed <;> simp [hrec]

/-! ## What the steps of the engine ask of the leases involved -/

section Steps

variable (htype : ctx.type ≠ .ta)

include htype

/-- A lease that comes to the database is counted if it is in a pool of its subnet. -/
theorem insert_balanced (hbal : Balanced6 cfg st) (ht : cfg t.getID = some t.subnet)
    (hl : l.type = ctx.type) (hsubnet : l.subnetId = t.getID) (hstate : l.state = .default)
    (hnone : st.leases.getLease6 ctx.type l.addr = none)
    (hclash : ∀ m ∈ st.leases, m.addr = l.addr → m.type = ctx.type)
    (hleases : st'.leases = st.leases.insert l)
    (hstats : st'.stats = placedStats6 ctx t l.addr st.stats) : Balanced6 cfg st' := by
  have hfind : st.leases.find (lease6Spec.key l) = none := by
    refine find_eq_none_iff.mpr fun m hm haddr => ?_
    have hsome : st.leases.getLease6 ctx.type l.addr = some m :=
      getLease6_eq_some.mpr ⟨hm, haddr, hclash m hm haddr⟩
    rw [hnone] at hsome
    cases hsome
  unfold Balanced6
  rw [hleases, hstats]
  refine insert hbal hfind fun k _ => ?_
  rw [placedStats6_apply htype hl hsubnet, weight_of_state (by simp [hstate]),
    pooled_of_configured ht hsubnet, hl]

/-- A lease is placed on an address where only leases that are counted may expire. -/
theorem Placed6.balanced (hbal : Balanced6 cfg st) (hs : cfg s.getID = some s.subnet)
    (h : Placed6 env ctx s addr st st' l)
    (hclear : ∀ m ∈ st.leases, m.addr = addr → m.type = ctx.type ∧
      (m.expired env.now → m.state ≠ .expiredReclaimed → m.pooled cfg)) : Balanced6 cfg st' := by
  cases h with
  | created _ hfree hleases hstats =>
    exact insert_balanced htype hbal hs rfl rfl rfl hfree (fun m hm haddr => (hclear m hm haddr).1)
      hleases hstats
  | @reused e hostname len _ hexist hexp hleases hstats =>
    obtain ⟨he, haddr, htype'⟩ := getLease6_eq_some.mp hexist
    have hfind : st.leases.find (lease6Spec.key (reusedLease6 env ctx s hostname e len)) = some e :=
      find_eq_some_iff.mpr ⟨he, rfl⟩
    unfold Balanced6
    rw [hleases, hstats]
    refine replace hbal hfind fun k hk => ?_
    rw [placedStats6_apply (l := reusedLease6 env ctx s hostname e len) htype htype' rfl,
      useStats6_apply hk,
      weight_of_state (l := reusedLease6 env ctx s hostname e len) (by simp [reusedLease6]),
      pooled_of_configured (l := reusedLease6 env ctx s hostname e len) hs rfl]
    have hplace : s.subnet.inPool (reusedLease6 env ctx s hostname e len).type
        (reusedLease6 env ctx s hostname e len).addr = s.subnet.inPool ctx.type addr := by
      rw [← htype', ← haddr]
      rfl
    rw [hplace]
    by_cases hrec : e.state = .expiredReclaimed
    · rw [weight_of_reclaimed hrec, if_pos hrec]
    · rw [weight_of_state hrec, if_neg hrec, if_pos ((hclear e he haddr).2 hexp hrec)]
  | offered _ _ _ hsame => exact hbal.of_unchanged hsame

/-- Leases that are counted may be removed. -/
theorem eraseAll_balanced (hbal : Balanced tracked6 (weight cfg) db stats)
    (hnodup : (removed.map (·.addr)).Nodup)
    (hall : ∀ l ∈ removed, l ∈ db ∧ l.type = ctx.type ∧ l.counted cfg) :
    Balanced tracked6 (weight cfg) (eraseAll removed db) (uncountAll ctx removed stats) := by
  induction removed generalizing db stats with
  | nil => exact hbal
  | cons l ls ih =>
    rw [List.map_cons, List.nodup_cons] at hnodup
    rw [List.forall_mem_cons] at hall
    obtain ⟨⟨hl, hltype, hcounted⟩, hrest⟩ := hall
    refine ih ?_ hnodup.2 fun m hm => ⟨?_, (hrest m hm).2⟩
    · refine erase hbal (find_eq_some_iff.mpr ⟨hl, rfl⟩) fun k _ => ?_
      rw [weight_of_counted hcounted]
      exact uncount_apply (hltype ▸ assignedStat_of_context htype)
    · refine mem_erase.mpr ⟨(hrest m hm).1, fun haddr => ?_⟩
      exact hnodup.1 (List.mem_map.mpr ⟨m, hm, haddr⟩)

/-- A reservation without a lease can be used if no lease of another type has the address. -/
theorem ReservedEffect6.balanced (hbal : Balanced6 cfg sn.server) (ht : cfg t.getID = some t.subnet)
    (hmem : ∀ l ∈ leases, l ∈ sn.server.leases)
    (hclash : ∀ h r, findFreeReservation ctx sn.server.leases sn.subnet = some (t, h, r) →
      ∀ m ∈ sn.server.leases, m.addr = r.addr → m.type = ctx.type)
    (heffect : ReservedEffect6 env ctx leases sn st' t ls) : Balanced6 cfg st' := by
  cases heffect with
  | unchanged hsame => exact hbal.of_unchanged hsame
  | @extended k _ hfound hleases hstats =>
    have hfind := find_extended env (hmem k (findReservedLease_mem hfound).1)
    unfold Balanced6
    rw [hleases, hstats]
    refine replace hbal hfind fun j _ => ?_
    rw [weight_congr (m := conditionalExtendLifetime env k) (l := k) rfl rfl rfl rfl]
    omega
  | created _ hfree hleases hstats =>
    obtain ⟨-, -, -, -, hnone⟩ := findFreeReservation_some hfree
    exact insert_balanced htype hbal ht rfl rfl rfl hnone (hclash _ _ hfree) hleases hstats
  | offered _ _ hsame => exact hbal.of_unchanged hsame

/-- The engine counts a reclaimed lease that comes back exactly if it is in a pool of its subnet. -/
theorem updateAll_balanced (hreal : ctx.fakeAllocation = false)
    (hbal : Balanced tracked6 (weight cfg) db stats) (hnodup : (kept.map (·.addr)).Nodup)
    (hall : ∀ l ∈ kept, l ∈ db ∧ l.type = ctx.type ∧ (l.state = .expiredReclaimed →
      inAllowedPool6 ctx s ctx.type l.addr true = l.pooled cfg)) :
    Balanced tracked6 (weight cfg)
      (kept.foldl (fun db l => db.replace (updatedLease6 env ctx hostname l)) db)
      (kept.foldl (fun stats l => restoredStats6 ctx s l stats) stats) := by
  induction kept generalizing db stats with
  | nil => exact hbal
  | cons l ls ih =>
    rw [List.map_cons, List.nodup_cons] at hnodup
    rw [List.forall_mem_cons] at hall
    obtain ⟨⟨hl, hltype, hrestored⟩, hrest⟩ := hall
    have hfind : db.find (lease6Spec.key (updatedLease6 env ctx hostname l)) = some l :=
      find_eq_some_iff.mpr ⟨hl, (updatedLease6_addr ..).symm⟩
    rw [List.foldl_cons, List.foldl_cons]
    refine ih ?_ hnodup.2 fun m hm => ⟨?_, (hrest m hm).2⟩
    · refine replace hbal hfind fun k _ => ?_
      rw [restoredStats6_apply htype hltype, weight_updatedLease6 hreal]
      by_cases hrec : l.state = .expiredReclaimed
      · rw [weight_of_reclaimed hrec, hrestored hrec]
        simp [stateExpiredReclaimed, hrec]
      · rw [weight_of_state hrec]
        simp [stateExpiredReclaimed, hrec]
    · refine (mem_replace hfind).mpr (.inr ⟨(hrest m hm).1, fun haddr => ?_⟩)
      rw [lease6Spec_key, lease6Spec_key, updatedLease6_addr] at haddr
      exact hnodup.1 (List.mem_map.mpr ⟨m, hm, haddr⟩)

/--
An extension leaves the statistics right: a lease that is removed is counted, as an address, a lease
that is reclaimed on the way is counted, and one that comes back without that is not missing.
-/
structure SoundExtension6 (cfg : Config6) (env : Env) (ctx : ClientContext6) (s : SubnetPtr 128)
    (l : Lease6) : Prop where
  removed : leavesSubnet ctx s l → ctx.type = .na ∧ l.counted cfg
  expired : leavesSubnet ctx s l = false → l.expired env.now → l.state ≠ .expiredReclaimed →
    l.pooled cfg
  unexpired : leavesSubnet ctx s l = false → l.expired env.now = false →
    l.state = .expiredReclaimed → l.pooled cfg = false

theorem extendStats6_apply (hl : l.type = ctx.type) (hsubnet : l.subnetId = s.getID)
    (hk : tracked6 k) :
    extendStats6 env ctx s l stats k = if l.expired env.now then
      stats k - (if l.state = .expiredReclaimed then 0 else l.unit k) +
        (if s.subnet.inPool ctx.type l.addr then l.unit k else 0)
      else stats k := by
  unfold extendStats6
  split
  · rw [placedStats6_apply htype hl hsubnet, useStats6_apply hk]
  · rfl

theorem Extended6.balanced {r : Lease6} (hbal : Balanced6 cfg sn.server)
    (hl : l ∈ sn.server.leases) (hltype : l.type = ctx.type) (hs : cfg sn'.subnet.getID = some sn'.subnet.subnet)
    (hsubnet : l.subnetId = sn'.subnet.getID) (hsound : SoundExtension6 cfg env ctx sn'.subnet l)
    (h : Extended6 env ctx l sn sn' r) : Balanced6 cfg sn'.server := by
  have hfind : sn.server.leases.find l.addr = some l := find_eq_some_iff.mpr ⟨hl, rfl⟩
  unfold Balanced6
  cases h with
  | removed hleaves hleases hstats =>
    obtain ⟨hna, hcounted⟩ := hsound.removed hleaves
    rw [hleases, hstats]
    refine erase hbal hfind fun k _ => ?_
    rw [weight_of_counted hcounted, ← hsubnet]
    exact uncount_apply (by rw [hltype, hna]; rfl)
  | renewed hstays _ hleases hstats =>
    rw [hleases, hstats]
    refine replace hbal hfind fun k hk => ?_
    have hnew : (extendedLease6 env ctx sn'.subnet sn.hostname l).weight cfg k =
        if l.pooled cfg then l.unit k else 0 :=
      weight_in_place rfl rfl rfl (by simp [extendedLease6, conditionalExtendLifetime])
    rw [extendStats6_apply htype hltype hsubnet hk, hnew, pooled_of_configured hs hsubnet, hltype]
    have hpooled := pooled_of_configured hs hsubnet
    rw [hltype] at hpooled
    cases hexp : l.expired env.now with
    | true =>
      by_cases hrec : l.state = .expiredReclaimed
      · simp [hrec, weight_of_reclaimed hrec]
      · simp [hrec, weight_of_state hrec, hsound.expired hstays hexp hrec]
    | false =>
      by_cases hrec : l.state = .expiredReclaimed
      · have hnot := hsound.unexpired hstays hexp hrec
        rw [hpooled] at hnot
        simp [weight_of_reclaimed hrec, hnot]
      · rw [weight_of_state hrec, hpooled]
        simp

end Steps

/-! ## The leases on the way -/

/-- A check removes leases that are counted only. -/
def RemovesCounted (cfg : Config6) (keep : Lease6 → Except EngineError Bool) (leases : List Lease6) :
    Prop :=
  ∀ l ∈ leases, keep l = .ok false → l.counted cfg

/-- No lease of another type has an address that is reserved for the client. -/
def ReservationsClear6 (ctx : ClientContext6) (s : SubnetPtr 128) (db : Lease6Storage) : Prop :=
  ∀ m ∈ db, m.type ≠ ctx.type → ∀ t ∈ s.siblings, ∀ h, ctx.findHost t.getID = some h →
    ∀ r ∈ h.getIPv6Reservations ctx.resrvType, m.addr ≠ r.addr

theorem reservationsClear6_of_no_hosts (h : ctx.hosts = []) : ReservationsClear6 ctx s db := by
  intro m _ _ t _ host hhost
  simp [findHost, h] at hhost

/-- The leases that a real call carries along are in the database, and the statistics are right. -/
structure Kept6 (cfg : Config6) (ctx : ClientContext6) (s : SubnetPtr 128) (db : Lease6Storage)
    (ls : List Lease6) (sn : Session6) : Prop extends Carried6 ctx s db ls sn where
  stored : ∀ l ∈ ls, l ∈ sn.server.leases
  balanced : Balanced6 cfg sn.server

namespace Kept6

variable {total : Option Nat} {keep : Lease6 → Except EngineError Bool}

section

variable (h : Kept6 cfg ctx s db leases sn)

include h

theorem dropped (htype : ctx.type ≠ .ta) (hcounted : RemovesCounted cfg keep leases)
    (hdrop : Dropped6 ctx (sift keep total leases).removed sn sn') : Balanced6 cfg sn'.server := by
  have hsub := sift_removed_sublist keep total leases
  unfold Balanced6
  rw [hdrop.leases, hdrop.stats]
  refine eraseAll_balanced htype h.balanced (h.nodup.sublist (hsub.map _)) fun l hl => ?_
  have hmem := hsub.subset hl
  exact ⟨h.stored l hmem, (h.own l hmem).2.2, hcounted l hmem (keep_of_sift_removed hl)⟩

theorem pass (htype : ctx.type ≠ .ta) {x : Engine6 (List Lease6)}
    (hx : (sift keep total leases).CarriedOut ctx x sn) (hcounted : RemovesCounted cfg keep leases) :
    Post x sn (fun kept sn' => (sift keep total leases).kept = .ok kept ∧
        ((sift keep total leases).removed ++ kept).Perm leases ∧
        Dropped6 ctx (sift keep total leases).removed sn sn' ∧ Kept6 cfg ctx s db kept sn')
      fun _ sn' => Balanced6 cfg sn'.server := by
  refine .mono hx ?_ ?_
  · rintro kept sn' ⟨hkept, hdrop⟩
    have hperm := sift_perm hkept
    exact ⟨hkept, hperm, hdrop, h.toCarried6.dropped hperm hdrop,
      fun l hl => hdrop.mem_kept hperm h.nodup h.stored hl, h.dropped htype hcounted hdrop⟩
  · rintro e sn' ⟨-, hdrop⟩
    exact h.dropped htype hcounted hdrop

theorem noClash_reserved (hreal : ctx.fakeAllocation = false) (hclear : ReservationsClear6 ctx s db)
    {host : Host} {r : IPv6Resrv}
    (hfree : findFreeReservation ctx sn.server.leases sn.subnet = some (t, host, r)) :
    ∀ m ∈ sn.server.leases, m.addr = r.addr → m.type = ctx.type := by
  obtain ⟨ht, -, hhost, hr, -⟩ := findFreeReservation_some hfree
  intro m hm haddr
  rcases h.origin hreal m hm with hdb | hin
  · by_contra hother
    exact hclear m hdb hother t (sibling_trans h.subnet ht) host hhost r hr haddr
  · exact (h.own m hin).2.2

theorem reserved (htype : ctx.type ≠ .ta) (hreal : ctx.fakeAllocation = false)
    (hclear : ReservationsClear6 ctx s db) (hcfg : s.Configured cfg)
    (hplanned : planned6 env ctx sn leases = .ok (sn'.subnet, ls))
    (heffect : ReservedEffect6 env ctx leases sn sn'.server sn'.subnet ls) :
    Kept6 cfg ctx s db ls sn' where
  toCarried6 := h.toCarried6.reserved h.stored hplanned heffect
  stored := by
    intro l hl
    have hmem : ∀ l ∈ leases, l ∈ sn.server.leases ∧ l.type = ctx.type :=
      fun l hl => ⟨h.stored l hl, (h.own l hl).2.2⟩
    refine (heffect.stored hreal hmem hl).mpr ?_
    rcases mem_planned6 hplanned hl with ⟨k, hk, rfl | rfl⟩ | ⟨host, r, hfree, rfl⟩
    · exact noClash_of_mem (hmem l hk).1 (hmem l hk).2
    · have hclash : NoClash6 ctx sn.server.leases k.addr :=
        noClash_of_mem (hmem k hk).1 (hmem k hk).2
      exact hclash
    · exact h.noClash_reserved hreal hclear hfree
  balanced := by
    have ht : sn'.subnet ∈ s.siblings := sibling_trans h.subnet heffect.subnet_mem
    exact heffect.balanced htype h.balanced (hcfg _ ht) h.stored
      fun host r hfree => h.noClash_reserved hreal hclear hfree

end

end Kept6

theorem RemovesCounted.planned (htype : ctx.type ≠ .ta)
    (hplanned : planned6 env ctx sn leases = .ok (t, ls))
    (h : RemovesCounted cfg (isReserved6 ctx) leases) : RemovesCounted cfg (isReserved6 ctx) ls := by
  intro l hl hkeep
  rcases mem_planned6 hplanned hl with ⟨k, hk, rfl | rfl⟩ | ⟨host, r, hfree, rfl⟩
  · exact h l hk hkeep
  · exact h k hk hkeep
  · rw [isReserved6_reservedLease6 htype hfree] at hkeep
    cases hkeep

theorem inAllowedPool6_of_mayKeep6 (hhosts : ctx.hosts = []) (hkeep : mayKeep6 env ctx s l = .ok true) :
    inAllowedPool6 ctx s l.type l.addr true := by
  have hnone : ∀ type len, ctx.hasReservation l type len = .ok false := by
    simp [hasReservation, findHost, hhosts]
  have hallowed : inAllowedPool6 ctx s l.type l.addr false := by
    unfold mayKeep6 keepsPooled keepsReserved at hkeep
    split at hkeep
    · simpa using hkeep
    · simp only [hnone, Except.ok.injEq, Bool.and_eq_true] at hkeep
      exact hkeep.2
  obtain ⟨t, ht, hpool⟩ := List.any_eq_true.mp hallowed
  simp only [Bool.and_eq_true, Bool.false_eq_true] at hpool
  refine List.any_eq_true.mpr ⟨t, ht, ?_⟩
  simp [hpool.1, Subnet.inPool_of_inPoolFor hpool.2]

/-! ## Allocation -/

/--
What a search for an unreserved lease may come across in the pools: leases of the IA's type, and
no expired lease that the statistics do not count.
-/
def PoolsSound6 (cfg : Config6) (env : Env) (ctx : ClientContext6) (s : SubnetPtr 128)
    (db : Lease6Storage) : Prop :=
  ∀ m ∈ db, ∀ t ∈ s.siblings, t.subnet.inPoolFor ctx.type m.addr ctx.classes → m.type = ctx.type ∧
    (m.expired env.now → m.state ≠ .expiredReclaimed → m.pooled cfg)

theorem Picked6.balanced (htype : ctx.type ≠ .ta) (hbal : Balanced6 cfg st) (hcfg : s.Configured cfg)
    (hpools : PoolsSound6 cfg env ctx s st.leases) (h : Picked6 env ctx s.siblings st l sn') :
    Balanced6 cfg sn'.server := by
  refine h.placed.balanced htype hbal (hcfg _ h.mem) fun m hm haddr => ?_
  refine hpools m hm _ h.mem ?_
  rw [haddr]
  exact h.pooled

/-- The conditions under which the cases 1 to 3 of `allocateLeases6` leave the statistics right. -/
structure SettlesSoundly6 (cfg : Config6) (env : Env) (ctx : ClientContext6) (sn : Session6)
    (leases : List Lease6) : Prop where
  configured : sn.subnet.Configured cfg
  clear : ReservationsClear6 ctx sn.subnet sn.server.leases
  /-- Without reservations: the check removes what is counted, and what comes back is in a pool. -/
  unreserved : ctx.hosts = [] → RemovesCounted cfg (mayKeep6 env ctx sn.subnet) leases ∧
    ∀ l ∈ leases, l.state = .expiredReclaimed → mayKeep6 env ctx sn.subnet l = .ok true → l.pooled cfg
  /-- With reservations: both checks remove what is counted. -/
  reserved : leases ≠ [] → ctx.hosts ≠ [] → RemovesCounted cfg (isReserved6 ctx) leases ∧
    ∀ t ls, planned6 env ctx sn leases = .ok (t, ls) → RemovesCounted cfg (mayKeep6 env ctx t) ls

theorem clientLeases6_kept (hduid : ctx.duid = some duid) (hbal : Balanced6 cfg sn.server) :
    Kept6 cfg ctx sn.subnet sn.server.leases (clientLeases6 ctx duid sn.server.leases sn.subnet)
      sn where
  toCarried6 := clientLeases6_carried hduid sn
  stored := fun _ hl => (mem_clientLeases6.mp hl).1
  balanced := hbal

section

variable (htype : ctx.type ≠ .ta) (hreal : ctx.fakeAllocation = false)

include htype hreal

theorem Kept6.updated (env : Env) (h : Kept6 cfg ctx s db kept sn)
    (hrestored : ∀ l ∈ kept, l.state = .expiredReclaimed →
      inAllowedPool6 ctx sn.subnet ctx.type l.addr true = l.pooled cfg) :
    EndsIn (updateLeaseData env ctx false kept) sn fun sn' => Balanced6 cfg sn'.server := by
  refine Yields.imp (updateLeaseData_post env hreal false sn h.stored h.nodup) ?_
  rintro _ sn' ⟨-, hup⟩
  unfold Balanced6
  rw [hup.leases, hup.stats]
  refine updateAll_balanced htype hreal h.balanced h.nodup fun l hl => ?_
  exact ⟨h.stored l hl, (h.own l hl).2.2, hrestored l hl⟩

theorem settleLeases6_balanced (h : Kept6 cfg ctx sn.subnet sn.server.leases leases sn)
    (hsound : SettlesSoundly6 cfg env ctx sn leases) :
    EndsIn (settleLeases6 env ctx leases) sn fun sn' => Balanced6 cfg sn'.server := by
  have hplan := allocateReserved_post env ctx h.stored
  unfold settleLeases6
  cases hempty : leases.isEmpty with
  | true =>
    cases hhosts : ctx.hosts.isEmpty with
    | true => exact .pure h.balanced
    | false =>
      refine .mono hplan ?_ ?_
      · rintro ls sn' ⟨hplanned, heffect, -⟩
        exact (h.reserved htype hreal hsound.clear hsound.configured hplanned heffect).balanced
      · rintro e sn' ⟨-, -, rfl⟩
        exact h.balanced
  | false =>
    have hleases : leases ≠ [] := by simpa using hempty
    cases hhosts : ctx.hosts.isEmpty with
    | true =>
      have hnone : ctx.hosts = [] := List.isEmpty_iff.mp hhosts
      obtain ⟨hcounted, hrestored⟩ := hsound.unreserved hnone
      refine .seq (h.pass htype (removeNonmatching_post h.nodup) hcounted) ?_
      rintro kept sn₁ ⟨hkept, hperm, hdrop, hkept'⟩
      refine hkept'.updated htype hreal env fun l hl hrec => ?_
      have hkeep := keep_of_sift hkept hl
      have hin := hperm.mem_iff.mp (List.mem_append_right _ hl)
      rw [hrestored l hin hrec hkeep, hdrop.subnet, ← (h.own l hin).2.2]
      exact inAllowedPool6_of_mayKeep6 hnone hkeep
    | false =>
      have hsome : ctx.hosts ≠ [] := by simpa using hhosts
      obtain ⟨hres, hconflict⟩ := hsound.reserved hleases hsome
      refine .bind (.mono hplan ?_ ?_)
      · rintro ls sn₁ ⟨hplanned, heffect, -⟩
        have hls := h.reserved htype hreal hsound.clear hsound.configured hplanned heffect
        refine .seq (hls.pass htype (removeNonmatching_post hls.nodup)
          (hconflict _ _ hplanned)) ?_
        rintro kept sn₂ ⟨-, hperm, -, hkept⟩
        have hres' : RemovesCounted cfg (isReserved6 ctx) kept := fun l hl =>
          hres.planned htype hplanned l (hperm.mem_iff.mp (List.mem_append_right _ hl))
        exact .imp (hkept.pass htype (removeNonreserved_post env ctx kept sn₂) hres')
          (fun _ _ h => h.2.2.2.balanced)
      · rintro e sn' ⟨-, -, rfl⟩
        exact h.balanced

theorem unreserved_balanced (h : Carried6 ctx s db [] sn) (hbal : Balanced6 cfg sn.server)
    (hcfg : s.Configured cfg) (hpools : PoolsSound6 cfg env ctx s db) :
    Yields (allocateUnreservedLeases6 env ctx) sn
      fun ls sn' => Balanced6 cfg sn'.server ∧ ∃ r : Option Lease6, ls = r.toList ∧
        Searched6 env ctx s.siblings sn.server r sn' := by
  refine .imp allocateUnreservedLeases6_post ?_
  rintro _ sn' ⟨r, rfl, hsearch⟩
  rw [siblings_of_sibling h.subnet] at hsearch
  refine ⟨?_, r, rfl, hsearch⟩
  cases r with
  | none => exact hbal.of_unchanged hsearch
  | some lease =>
    refine Picked6.balanced htype hbal hcfg (fun m hm => hpools m ?_) hsearch
    exact (h.origin hreal m hm).resolve_right List.not_mem_nil

/-- An allocation leaves the statistics right. -/
structure SoundAllocation6 (cfg : Config6) (env : Env) (ctx : ClientContext6) (sn : Session6)
    (leases : List Lease6) : Prop extends SettlesSoundly6 cfg env ctx sn leases where
  pools : settled6 env ctx sn leases = .ok [] →
    PoolsSound6 cfg env ctx sn.subnet sn.server.leases

theorem allocateIA6_balanced (hduid : ctx.duid = some duid) (hbal : Balanced6 cfg sn.server)
    (hsound : SoundAllocation6 cfg env ctx sn (clientLeases6 ctx duid sn.server.leases sn.subnet)) :
    EndsIn (allocateIA6 env ctx duid) sn fun sn' => Balanced6 cfg sn'.server := by
  have hkept := clientLeases6_kept hduid hbal
  refine .step (run_get sn) (.bind ?_)
  refine .mono ((settleLeases6_post env hkept.toCarried6 hkept.stored).and
    (settleLeases6_balanced htype hreal hkept hsound.toSettlesSoundly6)) ?_ fun _ _ h => h.2
  rintro ls sn₁ ⟨⟨⟨settled, hsettles, hls⟩, hsettled⟩, hbal₁⟩
  cases ls with
  | nil =>
    have hnone : settled = [] := by
      split at hls
      · exact List.map_eq_nil_iff.mp hls.symm
      · exact hls.symm
    refine Yields.imp (unreserved_balanced htype hreal hsettled.toCarried6 hbal₁ hsound.configured
      (hsound.pools (hnone ▸ hsettles))) fun _ _ h => h.1
  | cons l ls => exact .pure hbal₁

/-! ## Renewal -/

/-- The conditions under which the checks of `renewLeases6` leave the statistics right. -/
structure RenewsSoundly6 (cfg : Config6) (env : Env) (ctx : ClientContext6) (sn : Session6)
    (leases : List Lease6) : Prop where
  configured : sn.subnet.Configured cfg
  clear : ReservationsClear6 ctx sn.subnet sn.server.leases
  conflict : RemovesCounted cfg (mayKeep6 env ctx sn.subnet) leases
  reserved : ctx.hosts ≠ [] → RemovesCounted cfg (isReserved6 ctx) leases

theorem settleRenewed6_balanced (h : Kept6 cfg ctx sn.subnet sn.server.leases leases sn)
    (hsound : RenewsSoundly6 cfg env ctx sn leases) :
    Post (settleRenewed6 env ctx leases) sn
      (fun ls sn' => Kept6 cfg ctx sn.subnet sn.server.leases ls sn')
      fun _ sn' => Balanced6 cfg sn'.server := by
  refine .seq (h.pass htype (removeNonmatching_post h.nodup) hsound.conflict) ?_
  rintro kept sn₁ ⟨-, hperm, -, hkept⟩
  cases hhosts : ctx.hosts.isEmpty with
  | true => exact .pure hkept
  | false =>
    have hres : RemovesCounted cfg (isReserved6 ctx) kept := fun l hl =>
      hsound.reserved (by simpa using hhosts) l (hperm.mem_iff.mp (List.mem_append_right _ hl))
    refine .bind (.mono (allocateReserved_post env ctx hkept.stored) ?_ ?_)
    · rintro ls sn₂ ⟨hplanned, heffect, -⟩
      have hls := hkept.reserved htype hreal hsound.clear hsound.configured hplanned heffect
      exact .imp (hls.pass htype (removeNonreserved_post env ctx ls sn₂)
        (hres.planned htype hplanned)) (fun _ _ h => h.2.2.2)
    · rintro e sn' ⟨-, -, rfl⟩
      exact hkept.balanced

end

/-- One extension after the other. -/
theorem extendLeases6_balanced (htype : ctx.type ≠ .ta) (hcfg : s.Configured cfg)
    (hbal : Balanced6 cfg sn.server) (hsubnet : sn.subnet ∈ s.siblings)
    (hnodup : (ls.map (·.addr)).Nodup) (hall : ∀ l ∈ ls, l ∈ sn.server.leases ∧ l.type = ctx.type ∧
      (∃ t ∈ s.siblings, l.subnetId = t.getID) ∧ SoundExtension6 cfg env ctx (subnetOfLease s l) l) :
    EndsIn (extendLeases6 env ctx ls) sn fun sn' => Balanced6 cfg sn'.server := by
  induction ls generalizing sn with
  | nil => exact .pure hbal
  | cons l ls ih =>
    rw [List.map_cons, List.nodup_cons] at hnodup
    rw [List.forall_mem_cons] at hall
    obtain ⟨⟨hl, hltype, ⟨u, hu, hid⟩, hsound⟩, hrest⟩ := hall
    rw [subnetOfLease_eq s.self_mem_siblings hu hid] at hsound
    refine .bind (.mono extendLease6_post ?_ ?_)
    · rintro r sn₁ ⟨hmoved, -, hext⟩
      rw [subnetOfLease_eq hsubnet hu hid] at hmoved
      rw [← hmoved] at hid hsound hu
      have hbal₁ := hext.balanced htype hbal hl hltype (hcfg _ hu) hid hsound
      obtain ⟨-, hframe⟩ :=
        hext.outcome (s := s) (subnetOfLease_eq s.self_mem_siblings hu hid).symm
      refine .seq (ih hbal₁ hu hnodup.2 fun k hk =>
        ⟨(hframe k fun heq => ?_).mpr (hrest k hk).1, (hrest k hk).2⟩) fun _ _ h => .pure h
      exact hnodup.1 (List.mem_map.mpr ⟨k, hk, heq⟩)
    · rintro e sn₁ ⟨-, -, hnone⟩
      exact absurd rfl (find_eq_none_iff.mp hnone l hl)

/-- A renewal leaves the statistics right. -/
structure SoundRenewal6 (cfg : Config6) (env : Env) (ctx : ClientContext6) (sn : Session6)
    (leases : List Lease6) : Prop extends RenewsSoundly6 cfg env ctx sn leases where
  extended : ∀ kept, settledRenewed6 env ctx sn leases = .ok kept →
    ∀ l ∈ kept, SoundExtension6 cfg env ctx (subnetOfLease sn.subnet l) l
  pools : settledRenewed6 env ctx sn leases = .ok [] →
    PoolsSound6 cfg env ctx sn.subnet sn.server.leases

theorem Picked6.soundExtension (hreal : ctx.fakeAllocation = false)
    (h : Picked6 env ctx s.siblings st l sn') (hrec : Recorded6 env ctx sn'.server.leases l) :
    SoundExtension6 cfg env ctx (subnetOfLease s l) l where
  removed := by simp [h.stays hreal]
  expired := by simp [hrec.unexpired]
  unexpired := by simp [hrec.state]

theorem renewIA6_balanced (htype : ctx.type ≠ .ta) (hreal : ctx.fakeAllocation = false)
    (hduid : ctx.duid = some duid) (hbal : Balanced6 cfg sn.server)
    (hsound : SoundRenewal6 cfg env ctx sn (clientLeases6 ctx duid sn.server.leases sn.subnet)) :
    EndsIn (renewIA6 env ctx duid) sn fun sn' => Balanced6 cfg sn'.server := by
  have hkept := clientLeases6_kept hduid hbal
  refine .step (run_get sn) (.bind ?_)
  refine .mono ((settleRenewed6_post hkept.toCarried6 hkept.stored).and
    (settleRenewed6_balanced htype hreal hkept hsound.toRenewsSoundly6)) ?_ fun _ _ h => h.2
  rintro ls sn₁ ⟨⟨hsettles, -⟩, hls⟩
  cases ls with
  | nil =>
    have hpools := hsound.pools hsettles
    refine Yields.seq (unreserved_balanced htype hreal hls.toCarried6 hls.balanced
      hsound.configured hpools) ?_
    rintro _ sn₂ ⟨hbal₂, r, rfl, hsearch⟩
    cases r with
    | none => exact .pure hbal₂
    | some lease =>
      have hpicked : Picked6 env ctx sn.subnet.siblings sn₁.server lease sn₂ := hsearch
      have hclash : NoClash6 ctx sn₁.server.leases lease.addr := by
        intro m hm haddr
        have hdb := (hls.origin hreal m hm).resolve_right List.not_mem_nil
        exact (hpools m hdb sn₂.subnet hpicked.mem (haddr ▸ hpicked.pooled)).1
      have hrec := (hpicked.placed.recorded_iff hreal).mpr hclash
      refine extendLeases6_balanced htype hsound.configured hbal₂ hpicked.mem
        (List.nodup_singleton _) ?_
      rintro l hl
      obtain rfl := List.mem_singleton.mp hl
      exact ⟨hrec.stored, hrec.own.2.2, ⟨_, hpicked.mem, hpicked.placed.subnetId_eq⟩,
        hpicked.soundExtension hreal hrec⟩
  | cons l ls =>
    refine .bind (.pure ?_)
    refine extendLeases6_balanced htype hsound.configured hls.balanced hls.subnet hls.nodup ?_
    exact fun l hl => ⟨hls.stored l hl, (hls.own l hl).2.2, hls.network l hl,
      hsound.extended _ hsettles l hl⟩

theorem runIA6_balanced {body : DUID → Engine6 (List Lease6)} {P : Session6 → List Lease6 → Prop}
    (hbal : Balanced6 cfg st) (hsound : ForCall6 ctx st P) (h : ∀ s duid, ctx.duid = some duid →
      P (ctx.session s st) (clientLeases6 ctx duid st.leases s) →
      EndsIn (body duid) (ctx.session s st) fun sn' => Balanced6 cfg sn'.server) :
    Balanced6 cfg (after (runIA6 ctx body) st) := by
  cases hs : ctx.subnet with
  | none =>
    rw [after_runIA6_none (.inl hs)]
    exact hbal
  | some s =>
    cases hduid : ctx.duid with
    | none =>
      rw [after_runIA6_none (.inr hduid)]
      exact hbal
    | some duid =>
      rw [after_runIA6 hs hduid]
      exact (h s duid hduid (hsound s duid hs hduid)).after (P := fun sn : Session6 => Balanced6 cfg sn.server)

/-! ## Release and decline -/

theorem findBinding6_own :
    findBinding6 db type duid iaid addr = .own l ↔
      l ∈ db ∧ l.addr = addr ∧ l.type = type ∧ l.duid = some duid ∧ l.iaid = iaid := by
  constructor
  · intro h
    unfold findBinding6 at h
    split at h
    · cases h
    rename_i lease hget
    obtain ⟨hmem, haddr, htype⟩ := getLease6_eq_some.mp hget
    split at h
    · cases h
    rename_i d hd
    split at h
    · cases h
    rename_i hduid
    split at h
    · cases h
    rename_i hiaid
    simp only [not_not] at hduid hiaid
    cases h
    exact ⟨hmem, haddr, htype, hduid ▸ hd, hiaid.symm⟩
  · rintro ⟨hmem, haddr, htype, hduid, hiaid⟩
    have hget := getLease6_eq_some.mpr ⟨hmem, haddr, htype⟩
    simp [findBinding6, hget, hduid, hiaid]

/-- The lease that a client releases is counted, if there is one. -/
def SoundRelease6 (cfg : Config6) (type : LeaseType) (duid : DUID) (iaid : Nat)
    (addr : Option (Address 128)) (db : Lease6Storage) : Prop :=
  ∀ a ∈ addr, ∀ l, findBinding6 db type duid iaid a = .own l → l.counted cfg

theorem releaseIA_balanced {stat : StatName} {noAddress : String} {cleanup : Lease6 → ServerM6 Unit}
    {addr : Option (Address 128)} (hstat : type.assignedStat = some stat)
    (hcleanup : ∀ l st, ∃ ncrs, cleanup l st = .ok () { st with ncrs := ncrs })
    (hbal : Balanced6 cfg st) (hsound : SoundRelease6 cfg type duid iaid addr st.leases) :
    Balanced6 cfg (after (releaseIA type stat noAddress cleanup duid iaid addr) st) := by
  refine Post.after ?_
  cases addr with
  | none => exact .pure hbal
  | some addr =>
    refine .step (run_get st) ?_
    cases hbinding : findBinding6 st.leases type duid iaid addr with
    | missing | noDuid | otherClient | otherIA => exact .pure hbal
    | own lease =>
      obtain ⟨hmem, -, hltype, -⟩ := findBinding6_own.mp hbinding
      have hcounted := hsound addr rfl lease hbinding
      have hfind : st.leases.find lease.addr = some lease :=
        find_eq_some_iff.mpr ⟨hmem, rfl⟩
      have hnew : Balanced tracked6 (weight cfg) (st.leases.erase lease.addr)
          (st.stats.addValue (.subnet lease.subnetId stat) (-1)) := by
        refine erase hbal hfind fun k _ => ?_
        rw [weight_of_counted hcounted]
        exact uncount_apply (hltype ▸ hstat)
      refine .step (deleteLease_run lease.addr) ?_
      split
      · refine .step (addValue_run _ _) (.bind ?_)
        obtain ⟨ncrs, hrun⟩ := hcleanup lease
          { st with leases := st.leases.erase lease.addr
                    stats := st.stats.addValue (.subnet lease.subnetId stat) (-1) }
        exact .of_ok hrun (.pure hnew)
      · rename_i hfound
        simp [hfind] at hfound

/-- A lease that a client declines is not missing from the statistics. -/
def SoundDecline6 (cfg : Config6) (duid : DUID) (iaid : Nat) (addrs : List (Address 128))
    (db : Lease6Storage) : Prop :=
  ∀ a ∈ addrs, ∀ l, findBinding6 db .na duid iaid a = .own l → l.state = .expiredReclaimed →
    l.pooled cfg = false

theorem declineLease6_post (env : Env) (period : Nat) (hl : l ∈ st.leases) :
    Yields (declineLease6 env period l) st fun _ st' =>
      st'.leases = st.leases.replace (l.decline env.now period) ∧
        st'.stats = (st.stats.addValue (.subnet l.subnetId .declinedAddresses) 1).addValue
          (.global .declinedAddresses) 1 := by
  have hfind : st.leases.find (l.decline env.now period).addr = some l :=
    find_eq_some_iff.mpr ⟨hl, rfl⟩
  refine .step (queueNCR_run _ _ _) (.step (addValue_run _ _) ?_)
  exact .step (addValue_run _ _) (.step (updateLease6_run hfind) (.pure ⟨rfl, rfl⟩))

/-- A decline touches neither of the statistics. -/
theorem declineLease6_balanced (env : Env) (period : Nat) (hbal : Balanced6 cfg st)
    (hl : l ∈ st.leases) (hpooled : l.state = .expiredReclaimed → l.pooled cfg = false) :
    Yields (declineLease6 env period l) st
      fun _ st' => Balanced6 cfg st' ∧ st'.leases = st.leases.replace (l.decline env.now period) := by
  refine (declineLease6_post env period hl).imp fun _ st' h => ⟨?_, h.1⟩
  rw [Balanced6, h.1, h.2]
  refine replace hbal (find_eq_some_iff.mpr ⟨hl, rfl⟩) fun k hk => ?_
  have hother : k ≠ .subnet l.subnetId .declinedAddresses ∧ k ≠ .global .declinedAddresses := by
    unfold tracked6 at hk
    split at hk <;> simp_all
  have hnew : (l.decline env.now period).weight cfg k = if l.pooled cfg then l.unit k else 0 :=
    weight_in_place rfl rfl rfl (by simp [decline])
  simp only [addValue_apply, hother, if_false, hnew]
  by_cases hrec : l.state = .expiredReclaimed
  · simp [weight_of_reclaimed hrec, hpooled hrec]
  · rw [weight_of_state hrec]
    omega

variable {period maxLeases : Nat} {inTime : Option Nat} {mode : DbReclaimMode}

theorem SoundDecline6.next (h : SoundDecline6 cfg duid iaid addrs db) :
    SoundDecline6 cfg duid iaid addrs (db.replace (l.decline env.now period)) := by
  intro a ha m hm hrec
  obtain ⟨hmem, hm⟩ := findBinding6_own.mp hm
  rcases mem_of_mem_replace hmem with rfl | hmem
  · cases hrec
  · exact h a ha m (findBinding6_own.mpr ⟨hmem, hm⟩) hrec

section

variable (hbal : Balanced6 cfg st)

include hbal

theorem declineAddrs_balanced (env : Env) (period : Nat) (statuses : List StatusOption)
    (hsound : SoundDecline6 cfg duid iaid addrs st.leases) :
    Yields (declineAddrs env period duid iaid addrs statuses) st fun _ st' => Balanced6 cfg st' := by
  induction addrs generalizing statuses st with
  | nil => exact .pure hbal
  | cons addr addrs ih =>
    have hrest : SoundDecline6 cfg duid iaid addrs st.leases :=
      fun a ha => hsound a (List.mem_cons_of_mem addr ha)
    refine .step (run_get st) ?_
    cases hbinding : findBinding6 st.leases .na duid iaid addr with
    | missing | noDuid | otherClient | otherIA => exact ih hbal _ hrest
    | own lease =>
      have hmem := (findBinding6_own.mp hbinding).1
      have hpooled := hsound addr List.mem_cons_self lease hbinding
      refine .seq (declineLease6_balanced env period hbal hmem hpooled) ?_
      rintro status st₁ ⟨hbal₁, hleases⟩
      have hrest₁ : SoundDecline6 cfg duid iaid addrs st₁.leases := hleases ▸ hrest.next
      exact .seq (ih hbal₁ _ hrest₁) (fun _ _ h => .pure h)

theorem declineIA_balanced (hsound : SoundDecline6 cfg duid iaid addrs st.leases) :
    Balanced6 cfg (after (declineIA env period duid iaid addrs) st) := by
  refine Post.after ?_
  refine Yields.seq (declineAddrs_balanced hbal env period [] hsound) ?_
  rintro ⟨statuses, declined⟩ st' hbal'
  dsimp only
  split
  · exact .pure hbal'
  · exact .pure hbal'

/-! ## Reclamation -/

theorem reclaimExpiredLease6_balanced (hmode : mode ≠ .leaveUnchanged) (hl : l ∈ st.leases)
    (hcounted : l.counted cfg) :
    ∃ st', reclaimExpiredLease6 env mode l st = .ok () st' ∧ Balanced6 cfg st' ∧
      ∀ m ∈ st.leases, m.addr ≠ l.addr → m ∈ st'.leases := by
  obtain ⟨ncrs, hrun⟩ := reclaimExpiredLease6_run hmode hl
  have hfind : st.leases.find (lease6Spec.key l.reclaimed) = some l :=
    find_eq_some_iff.mpr ⟨hl, rfl⟩
  refine ⟨_, hrun, ?_, fun m hm hne => ?_⟩
  · unfold Balanced6
    dsimp only
    split
    · refine erase hbal hfind fun k hk => ?_
      rw [reclaimStats6_apply hk, weight_of_counted hcounted]
    refine replace hbal hfind fun k hk => ?_
    rw [reclaimStats6_apply hk, weight_of_counted hcounted,
      weight_of_reclaimed (l := l.reclaimed) rfl]
    omega
  · dsimp only
    split
    · exact mem_erase.mpr ⟨hm, hne⟩
    · exact (mem_replace hfind).mpr (.inr ⟨hm, hne⟩)

/-- Reclaiming one lease leaves the others that are due as they were. -/
theorem reclaimEach6_balanced (hmode : mode ≠ .leaveUnchanged)
    (hdue : ∀ l ∈ ls, l ∈ st.leases ∧ l.counted cfg) (hnodup : (ls.map (·.addr)).Nodup) :
    Balanced6 cfg (after (reclaimEach6 env mode ls) st) := by
  induction ls generalizing st with
  | nil => exact hbal
  | cons l ls ih =>
    rw [List.forall_mem_cons] at hdue
    rw [List.map_cons, List.nodup_cons] at hnodup
    obtain ⟨⟨hl, hcounted⟩, hdue⟩ := hdue
    obtain ⟨st', hrun, hbal', hkeep⟩ := reclaimExpiredLease6_balanced hbal hmode hl hcounted
    have hrest : ∀ m ∈ ls, m ∈ st'.leases ∧ m.counted cfg := by
      refine fun m hm => ⟨hkeep m (hdue m hm).1 fun haddr => ?_, (hdue m hm).2⟩
      exact hnodup.1 (List.mem_map.mpr ⟨m, hm, haddr⟩)
    have hcatch : tryCatch (reclaimExpiredLease6 env mode l) (fun _ => pure ()) st = .ok () st' := by
      rw [run_tryCatch, hrun]
    have hnext := ih hbal' hrest hnodup.2
    unfold after at hnext ⊢
    rw [reclaimEach6, run_bind_ok hcatch]
    exact hnext

theorem reclaimExpiredLeases6_balanced {removeLease : Bool}
    (hsound : ∀ l ∈ dueLeases6 env st.leases maxLeases inTime, l.pooled cfg) :
    Balanced6 cfg (after (reclaimExpiredLeases6 env maxLeases inTime removeLease) st) := by
  have hmode : (if removeLease then DbReclaimMode.remove else .update) ≠ .leaveUnchanged := by
    cases removeLease <;> simp
  obtain ⟨n, hsub⟩ := due_sublist
  have hdue : ∀ l ∈ dueLeases6 env st.leases maxLeases inTime, l ∈ st.leases ∧ l.counted cfg := by
    intro l hl
    obtain ⟨hmem, hstate, -⟩ := mem_getExpiredLeases6 (hsub.mem hl)
    exact ⟨hmem, by simp [counted, hstate, hsound l hl]⟩
  have hexpired : ((st.leases.getExpiredLeases6 env.now n).map (·.addr)).Nodup :=
    getExpiredLeases6_nodup
  have hnodup := hexpired.sublist (hsub.map (·.addr))
  exact reclaimEach6_balanced hbal hmode hdue hnodup

theorem deleteExpiredReclaimedLeases6_balanced {secs : Nat} :
    Balanced6 cfg (after (deleteExpiredReclaimedLeases6 env secs) st) := by
  refine filter hbal fun l _ hdrop k _ => weight_of_reclaimed ?_
  simp only [Bool.not_eq_true', Bool.not_eq_false, Bool.and_eq_true] at hdrop
  simpa [stateExpiredReclaimed] using hdrop.1

/-! ## Runs -/

/-- The operations that subtract only what is counted, and that do not bring back what is not. -/
def SoundStep6 (cfg : Config6) : Operation6 → Server6 → Prop
  | .allocate env request, st => ForCall6 request.ctx st (SoundAllocation6 cfg env request.ctx)
  | .renew env request, st => ForCall6 request.ctx st (SoundRenewal6 cfg env request.ctx)
  | .releaseNA _ duid iaid addr, st => SoundRelease6 cfg .na duid iaid addr st.leases
  | .releasePD duid iaid addr, st => SoundRelease6 cfg .pd duid iaid addr st.leases
  | .decline _ _ duid iaid addrs, st => SoundDecline6 cfg duid iaid addrs st.leases
  | .reclaim env maxLeases inTime _, st =>
    ∀ l ∈ dueLeases6 env st.leases maxLeases inTime, l.pooled cfg
  | .deleteReclaimed _ _, _ => True

/-- **What one operation preserves.** -/
theorem step6_balanced {o : Operation6} (hsound : SoundStep6 cfg o st) :
    Balanced6 cfg (step6 o st) := by
  cases o with
  | allocate env request =>
    refine runIA6_balanced hbal hsound fun s duid hduid h => ?_
    exact allocateIA6_balanced request.type_ne_ta request.real hduid hbal h
  | renew env request =>
    refine runIA6_balanced hbal hsound fun s duid hduid h => ?_
    exact renewIA6_balanced request.type_ne_ta request.real hduid hbal h
  | releaseNA env duid iaid addr =>
    exact releaseIA_balanced rfl (fun l st => ⟨_, queueNCR_run env .remove l⟩) hbal hsound
  | releasePD duid iaid addr => exact releaseIA_balanced rfl (fun l st => ⟨st.ncrs, rfl⟩) hbal hsound
  | decline env period duid iaid addrs => exact declineIA_balanced hbal hsound
  | reclaim env maxLeases inTime removeLease =>
    exact reclaimExpiredLeases6_balanced hbal hsound
  | deleteReclaimed env secs => exact deleteExpiredReclaimedLeases6_balanced hbal

end

theorem balanced6_of_fresh (h : st.Fresh) : Balanced6 cfg st := by
  unfold Balanced6
  rw [h.1, h.2]
  exact empty

/-- The leases of a type in a subnet that are in its pools and not reclaimed, by the database. -/
def assignedIn6 (cfg : Config6) (type : LeaseType) (id : SubnetID) (db : Lease6Storage) : Nat :=
  db.count fun l => l.counted cfg && (l.type = type && l.subnetId = id)

theorem weight_eq_indicator (hname : type.assignedStat = some name)
    (hinj : ∀ type', type'.assignedStat = some name → type' = type) (id : SubnetID) (l : Lease6) :
    l.weight cfg (.subnet id name) =
      if l.counted cfg && (l.type = type && l.subnetId = id) then 1 else 0 := by
  unfold weight unit
  cases l.counted cfg with
  | false => rfl
  | true =>
    by_cases htype : l.type = type
    · simp [htype, hname, eq_comm]
    simp only [htype, decide_false, Bool.false_and, Bool.and_false, Bool.false_eq_true, if_false,
      if_true]
    split
    · rename_i name' hname'
      rw [if_neg]
      rintro heq
      simp only [StatKey.subnet.injEq] at heq
      exact htype (hinj _ (heq.2 ▸ hname'))
    · rfl

/--
**In every run of sound operations the statistics are right.** From an empty database and zero
statistics, they equal the number of leases in the pools that are not reclaimed.
-/
theorem statistics6_match_in_sound_runs (cfg : Config6) (st₀ st : Server6) (hfresh : st₀.Fresh)
    (hrun : Reaches step6 (SoundStep6 cfg) st₀ st) (id : SubnetID) :
    st.stats (.subnet id .assignedNas) = assignedIn6 cfg .na id st.leases ∧
      st.stats (.subnet id .assignedPds) = assignedIn6 cfg .pd id st.leases := by
  have hbal : Balanced6 cfg st :=
    hrun.inv (balanced6_of_fresh hfresh) fun _ _ hbal hsound => step6_balanced hbal hsound
  constructor
  · refine hbal.count (k := .subnet id .assignedNas) trivial (weight_eq_indicator rfl ?_ id)
    intro type h
    cases type <;> simp_all [assignedStat]
  · refine hbal.count (k := .subnet id .assignedPds) trivial (weight_eq_indicator rfl ?_ id)
    intro type h
    cases type <;> simp_all [assignedStat]

namespace Sample

/-- The subnets of the network, by their identifiers. -/
def config6 : Config6 := fun id => if id = 1 then some subnet61 else if id = 2 then some subnet62 else none

theorem configured6 : ptr61.Configured config6 := by
  unfold SubnetPtr.Configured
  decide

def request6 (hosts : List (SubnetID × Host)) : Request6 :=
  { ctx := client6 1 false hosts, real := rfl, type_ne_ta := by simp [client6] }

/-- Client 1 gets an address. -/
def take6 : Operation6 := .allocate (envAt 0 noHosts) (request6 [])

def renew6 : Operation6 := .renew (envAt 10 noHosts) (request6 [])

/-- Client 1 gets the address that is reserved for it, outside of the pool. -/
def takeReserved6 : Operation6 :=
  let host := host6 1 1 0x20010db8000100000000000000000099#128
  .allocate (envAt 0 (hostsOf host)) (request6 [(1, host)])

theorem fresh6 : (serverWith6 []).Fresh := ⟨rfl, rfl⟩

end Sample

/-- A lease of the pool is created and renewed, and counts once. -/
theorem statistics6_match_sample :
    let st := step6 renew6 (step6 take6 (serverWith6 []))
    assignedIn6 config6 .na 1 st.leases = 1 ∧
      st.stats (.subnet 1 .assignedNas) = assignedIn6 config6 .na 1 st.leases ∧
      st.stats (.subnet 1 .assignedPds) = assignedIn6 config6 .pd 1 st.leases := by
  have htake : SoundStep6 config6 take6 (serverWith6 []) := by
    rintro s duid ⟨⟩ ⟨⟩
    refine ⟨⟨configured6, reservationsClear6_of_no_hosts rfl, fun _ => ?_, fun h => absurd rfl h⟩,
      fun _ m hm => absurd hm not_mem_empty⟩
    unfold RemovesCounted
    decide
  have hrenew : SoundStep6 config6 renew6
      (step6 take6 (serverWith6 [])) := by
    rintro s duid ⟨⟩ ⟨⟩
    refine ⟨⟨configured6, reservationsClear6_of_no_hosts rfl, ?_, fun h => absurd rfl h⟩, ?_,
      fun h => absurd h (by decide)⟩
    · unfold RemovesCounted
      decide
    intro kept hkept l hl
    have hone : kept = [newLease6 (envAt 0 noHosts) (client6 1 false [])
        ptr61 "" 0x20010db8000100000000000000000010#128 128] :=
      Except.ok.inj (hkept.symm.trans (by decide))
    subst hone
    obtain rfl := List.mem_singleton.mp hl
    exact ⟨by decide, by decide, by decide⟩
  exact ⟨by decide, statistics6_match_in_sound_runs _ _ _ fresh6
    (.next _ (.next _ .start htake) hrenew) 1⟩

/-- A lease outside of the pools is in the database, and in no statistic. -/
theorem reserved_lease_not_counted :
    ∃ st, (serverWith6 []).Fresh ∧
      Reaches step6 (fun _ _ => True) (serverWith6 []) st ∧
      st.stats (.subnet 1 .assignedNas) = 0 ∧
      st.leases.count (fun l => l.subnetId = 1 && l.type = .na && l.state ≠ .expiredReclaimed) = 1 :=
  ⟨step6 takeReserved6 (serverWith6 []), fresh6, .next _ .start trivial,
    by decide, by decide⟩

end Dhcp
