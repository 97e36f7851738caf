import KeaDhcp.Properties.Effects4

/-!
# DHCPv4 allocation and the leases of other clients
-/

namespace Dhcp

open Infra Engine4 MultiIndex

variable {env : Env} {ctx : ClientContext4} {s : SubnetPtr 32} {st st' : Server4}

/-! ## Whole calls -/

theorem allocateLease4_outcome (env : Env) (hreal : ctx.fakeAllocation = false)
    (hstart : startSubnet ctx = some s) (st : Server4) :
    Outcome4 env ctx s st (allocateLease4 env ctx st) := by
  unfold allocateLease4
  rw [hstart]
  cases hhw : ctx.hwaddr with
  | none => exact .refused rfl (.refl st)
  | some hw =>
    have hout := requestLease4_outcome env s hreal st
    simp only [hreal, run_tryCatch, Bool.false_eq_true, if_false]
    generalize requestLease4 env ctx s st = result at hout ⊢
    cases result with
    | ok r st' => exact hout
    | error e st' =>
      obtain ⟨hplan⟩ := hout
      by_cases hnull : e = .nullPointer
      · simp only [hnull]
        exact .crashed (hnull ▸ hplan)
      · simp only [hnull]
        exact .refused rfl (.refl st)

theorem allocateLease4_offer (env : Env) (hfake : ctx.fakeAllocation = true)
    (hstart : startSubnet ctx = some s) (st : Server4) :
    Offered4 env ctx s st (allocateLease4 env ctx st) := by
  unfold allocateLease4
  rw [hstart]
  cases hhw : ctx.hwaddr with
  | none => exact ⟨.refl st, by simp [noLease4]⟩
  | some hw =>
    have hoffer := discoverLease4_offer env s hfake st
    simp only [hfake, run_tryCatch, if_true]
    generalize discoverLease4 env ctx s st = result at hoffer ⊢
    cases result with
    | ok r st' => exact hoffer
    | error e st' =>
      obtain ⟨rfl, hsame⟩ := hoffer
      exact ⟨rfl, hsame⟩

theorem allocateLease4_no_subnet (hstart : startSubnet ctx = none) :
    allocateLease4 env ctx st = .ok (noLease4 none) st := by
  simp [allocateLease4, hstart]

/-- The lease that a call returns. -/
def returned4 (env : Env) (ctx : ClientContext4) (st : Server4) : Option Lease4 :=
  match allocateLease4 env ctx st with
  | .ok r _ => r.newLease
  | .error _ _ => none

/-- A call returns a lease with this property. -/
def Returns4 (p : Lease4 → Prop) : EStateM.Result EngineError Server4 Allocation4 → Prop
  | .ok r _ => ∃ n, r.newLease = some n ∧ p n
  | .error _ _ => False

variable {n : Lease4} {p : Lease4 → Prop} {r : Allocation4}

theorem returns4_ok_iff (hnew : r.newLease = some n) : Returns4 p (.ok r st) ↔ p n := by
  simp [Returns4, hnew]

theorem not_returns4_none (hnew : r.newLease = none) : ¬Returns4 p (.ok r st) := by
  simp [Returns4, hnew]

theorem returns4_iff_returned4 :
    Returns4 p (allocateLease4 env ctx st) ↔ ∃ n, returned4 env ctx st = some n ∧ p n := by
  unfold Returns4 returned4
  cases allocateLease4 env ctx st <;> simp

/-- A whole call returns what its discovery or request returns. -/
theorem returns4_allocateLease4_iff :
    Returns4 p (allocateLease4 env ctx st) ↔ ctx.hwaddr.isSome ∧ ∃ s, startSubnet ctx = some s ∧
      Returns4 p ((if ctx.fakeAllocation then discoverLease4 env ctx s
        else requestLease4 env ctx s) st) := by
  unfold allocateLease4
  cases hstart : startSubnet ctx with
  | none => simp [Returns4, noLease4]
  | some s =>
    cases hhw : ctx.hwaddr with
    | none => simp [Returns4, noLease4]
    | some hw =>
      simp only [run_tryCatch, Option.isSome_some, Option.some.injEq, true_and, exists_eq_left']
      cases (if ctx.fakeAllocation then discoverLease4 env ctx s
        else requestLease4 env ctx s) st with
      | ok r st' => rfl
      | error e st' =>
        dsimp only
        split <;> simp [Returns4, noLease4]

theorem returned4_eq_some (h : returned4 env ctx st = some n) :
    ∃ r st', allocateLease4 env ctx st = .ok r st' ∧ r.newLease = some n := by
  unfold returned4 at h
  split at h
  · exact ⟨_, _, ‹_›, h⟩
  · cases h

theorem startSubnet_of_returned4 (h : returned4 env ctx st = some n) :
    ∃ s, startSubnet ctx = some s := by
  cases hstart : startSubnet ctx with
  | none => simp [returned4, allocateLease4_no_subnet hstart, noLease4] at h
  | some s => exact ⟨s, rfl⟩

theorem hwaddr_of_returned4 (h : returned4 env ctx st = some n) : ∃ hw, ctx.hwaddr = some hw := by
  cases hhw : ctx.hwaddr with
  | none => simp [returned4, allocateLease4, hhw, noLease4] at h
  | some hw => exact ⟨hw, rfl⟩

/-! ## A network for concrete runs -/

namespace Sample

/-- Reservations are looked for everywhere, and clients are known by both identifiers. -/
def network : Network :=
  { clientClass := "", t1 := 10, t2 := 20, valid := 100, preferred := 50
    hostReservationMode := .all, matchClientId := true }

/-- A pool without class restrictions. -/
def poolOf {w : Nat} (type : LeaseType) (id : Nat) (first last : Address w) (h : first ≤ last) :
    Pool w :=
  { id := id, type := type, first := first, last := last, length := w
    capacity := addrsInRange first last, clientClass := "", first_le_last := h }

/-- A subnet with this pool. -/
def onePool {w : Nat} (id : SubnetID) (subnetPrefix : Address w) (prefixLen : Nat) (p : Pool w)
    (hid : 0 < id := by decide) (hp : inPrefix subnetPrefix prefixLen p.first ∧
      inPrefix subnetPrefix prefixLen p.last := by decide) : Subnet w :=
  { network with
    id := id, subnetPrefix := subnetPrefix, prefixLen := prefixLen, pools := [p], poolsTa := []
    poolsPd := [], id_pos := hid, pools_sorted := List.pairwise_singleton _ p
    poolsTa_sorted := .nil, poolsPd_sorted := .nil, pools_inRange := by simpa using hp }

/-- 192.0.2.0/24 with the pool 192.0.2.10 to 192.0.2.19. -/
def subnet1 : Subnet 32 :=
  onePool 1 0xC0000200#32 24 (poolOf .v4 1 0xC000020A#32 0xC0000213#32 (by decide))

/-- 10.0.0.0/24 with the pool 10.0.0.10 to 10.0.0.19. -/
def subnet2 : Subnet 32 :=
  onePool 2 0x0A000000#32 24 (poolOf .v4 2 0x0A00000A#32 0x0A000013#32 (by decide))

/-- Both subnets on one link. -/
def shared : SharedNetwork 32 :=
  { clientClass := "", subnets := [subnet1, subnet2], ids_nodup := by decide }

def ptr1 : SubnetPtr 32 := { subnet := subnet1, network := some shared, mem := by decide }

def ptr2 : SubnetPtr 32 := { subnet := subnet2, network := some shared, mem := by decide }

/-- Three subnets on one link; for two identifiers one query each is fewer than one per subnet. -/
def shared3 : SharedNetwork 32 :=
  { clientClass := "", subnets := [subnet1, subnet2, { subnet2 with id := 3, id_pos := by decide }]
    ids_nodup := by decide }

def ptr13 : SubnetPtr 32 := { subnet := subnet1, network := some shared3, mem := by simp [shared3] }

/-- Subnet 1 by itself, with another reservation mode or class. -/
def alone (mode : HRMode) (clientClass : ClientClass := "") : SubnetPtr 32 :=
  { subnet := { subnet1 with hostReservationMode := mode, clientClass := clientClass }
    network := none, mem := by simp }

def colourPool (id : Nat) (first last : Address 32) (h : first ≤ last) (colour : ClientClass) :
    Pool 32 :=
  { poolOf .v4 id first last h with clientClass := colour }

/-- Two addresses for red clients and two for blue ones. -/
def colours : SubnetPtr 32 :=
  { subnet :=
      { subnet1 with
        pools := [colourPool 1 0xC000020A#32 0xC000020B#32 (by decide) "red",
          colourPool 2 0xC0000214#32 0xC0000215#32 (by decide) "blue"]
        pools_sorted := by decide
        pools_inRange := by decide }
    network := none
    mem := by simp }

variable (n : UInt8) (subnet : SubnetID) (addr : Address 32)

def mac : HWAddr := { htype := 1, hwaddr := [n] }

/-- A reservation of an address for the client with this hardware address. -/
def host4 : Host :=
  { identifierType := .hwaddr, identifier := [n], ipv4SubnetId := subnet, ipv6SubnetId := 0
    ipv4Reservation := addr, ipv6Reservations := [], hostname := "" }

def noHosts : CfgHosts :=
  { hosts := [], identifiers_unique := .nil, addresses_unique := .nil
    hosts6_unique := by decide }

/-- The configuration has this one host. -/
def hostsOf (h : Host)
    (h6 : (([h].flatMap Host.resrv6Tuples).map fun r => (r.2.ipv6SubnetId, r.1.addr)).Nodup :=
      by decide) : CfgHosts :=
  { hosts := [h], identifiers_unique := List.pairwise_singleton _ h
    addresses_unique := List.pairwise_singleton _ h, hosts6_unique := h6 }

def envAt (now : Time) (hosts : CfgHosts) : Env :=
  { now := now, clock := now, attempts := 0, hostMgr := { cfg := hosts, alternateSources := [] }
    d2 := { ddnsEnabled := false, qualifyingSuffix := "" } }

/-- The context of a client of subnet 1 that is known by its hardware address only. -/
def client (requested : Address 32) (fake : Bool) (hosts : List (SubnetID × Host)) :
    ClientContext4 :=
  { subnet := some ptr1, clientid := none, hwaddr := some (mac n), requestedAddress := requested
    fwdDnsUpdate := false, revDnsUpdate := false, hostname := "", fakeAllocation := fake
    classes := [], hosts := hosts, hostIdentifiers := [(.hwaddr, [n])] }

/-- A lease of a client, from time `0` on. -/
def lease : Lease4 :=
  { addr := addr, t1 := 10, t2 := 20, validLft := 100, cltt := 0, subnetId := subnet
    hostname := "", fqdnFwd := false, fqdnRev := false, hwaddr := some (mac n), state := .default
    clientId := none }

/-- A server with these leases, all counted in their subnets. -/
def serverWith (leases : List Lease4) : Server4 :=
  { leases := leases.foldl insert empty
    stats := leases.foldl (fun s l => s.addValue (.subnet l.subnetId .assignedAddresses) 1) fun _ => 0
    allocator :=
      { poolLast := fun id => (if id = 1 then 0xC000020A#32 else 0x0A00000A#32, false)
        subnetLast := fun _ _ => 0
        subnetTime := fun _ _ => none }
    ncrs := [] }

end Sample

/-! ## Leases of other clients -/

/-- The lease that `findClientLease` finds for the client. -/
def foundLease4 (db : Lease4Storage) (ctx : ClientContext4) : Option Lease4 :=
  (startSubnet ctx).bind fun s => (findClientLease db ctx s).1

variable {l : Lease4} {db : Lease4Storage}

theorem addr_ne_of_ne {l' : Lease4} (hl : l ∈ db) (hl' : l' ∈ db) (hne : l' ≠ l) :
    l'.addr ≠ l.addr :=
  fun h => hne (eq_of_key_eq hl' hl h)

theorem mem_of_replaced {old new : Lease4} (hl : l ∈ db) (hold : old ∈ db)
    (haddr : new.addr = old.addr) (hne : old ≠ l) : l ∈ db.replace new := by
  have hfind : db.find (lease4Spec.key new) = some old :=
    find_eq_some_iff.mpr ⟨hold, haddr.symm⟩
  refine (mem_replace hfind).mpr (.inr ⟨hl, ?_⟩)
  simpa [haddr] using (addr_ne_of_ne hl hold hne).symm

theorem Placed4.keeps_active {addr : Address 32} {lease : Lease4} {old : Option Lease4}
    (h : Placed4 env ctx s addr st st' lease old) (hreal : ctx.fakeAllocation = false)
    (hl : l ∈ st.leases) (hactive : l.expired env.now = false) :
    l ∈ st'.leases ∧ lease.addr ≠ l.addr := by
  cases h with
  | created _ hfree hleases =>
    rw [hleases]
    have hnew : st.leases.find (lease4Spec.key (newLease4 env ctx s addr)) = none := hfree
    exact ⟨(mem_insert hnew).mpr (.inr hl),
      (find_eq_none_iff.mp hfree l hl).symm⟩
  | @reused e _ hexist hexp hleases =>
    have he := (Lease4Storage.mem_of_getLease4 hexist).1
    have hne : e ≠ l := by
      rintro rfl
      simp [hactive] at hexp
    rw [hleases]
    have haddr : e.addr ≠ l.addr := addr_ne_of_ne hl he hne
    exact ⟨mem_of_replaced hl he rfl hne, haddr⟩
  | offered hfake => simp [hreal] at hfake

theorem Removed4.keeps {previous : Option Lease4} (h : Removed4 previous st st')
    (hl : l ∈ st.leases) (hprevious : ∀ p, previous = some p → p.addr ≠ l.addr) :
    l ∈ st'.leases := by
  cases previous with
  | none =>
    rw [h.leases]
    exact hl
  | some p =>
    rw [h.1]
    exact mem_erase.mpr ⟨hl, (hprevious p rfl).symm⟩

/-- The lease is still in the database, and what is returned is for another address. -/
def KeepsLease (l : Lease4) : EStateM.Result EngineError Server4 Allocation4 → Prop
  | .ok r st' => l ∈ st'.leases ∧ ∀ n, r.newLease = some n → n.addr ≠ l.addr
  | .error _ st' => l ∈ st'.leases

/-- Besides the client's own lease, a request touches only leases that have expired. -/
theorem Outcome4.keeps_active {result : EStateM.Result EngineError Server4 Allocation4}
    (h : Outcome4 env ctx s st result) (hreal : ctx.fakeAllocation = false) (hl : l ∈ st.leases)
    (hactive : l.expired env.now = false) (hother : (findClientLease st.leases ctx s).1 ≠ some l) :
    KeepsLease l result := by
  -- The client's own lease, which may be renewed or removed, is at another address.
  have hown : ∀ p, (findClientLease st.leases ctx s).1 = some p → p.addr ≠ l.addr := by
    intro p hp
    refine addr_ne_of_ne hl (findClientLease_some hp).1 ?_
    rintro rfl
    exact hother hp
  cases h with
  | crashed => exact hl
  | refused hnew hsame => exact ⟨hsame.leases ▸ hl, by simp [hnew]⟩
  | @renewed r l' t st' hplan hnew hleases =>
    have hl' := (requestPlan_renew hplan).1
    have hne := hown l' hl'
    refine ⟨hleases ▸ mem_of_replaced hl (findClientLease_some hl').1 rfl ?_, ?_⟩
    · rintro rfl
      exact hne rfl
    · rw [hnew]
      rintro _ ⟨⟩
      exact hne
  | allocated hplan hplaced hnew hremoved =>
    obtain ⟨hl₁, hne⟩ := hplaced.keeps_active hreal hl hactive
    refine ⟨hremoved.keeps hl₁ fun p hp => hown p (hp ▸ (requestPlan_allocate hplan).1), ?_⟩
    rw [hnew]
    rintro _ ⟨⟩
    exact hne
  | picked hplan _ _ _ hpicked hnew hremoved =>
    obtain ⟨hl₁, hne⟩ := hpicked.2.2.keeps_active hreal hl hactive
    refine ⟨hremoved.keeps hl₁ fun p hp => hown p (hp ▸ (requestPlan_pick hplan).1), ?_⟩
    rw [hnew]
    rintro _ ⟨⟩
    exact hne

/--
**No client loses its address to another one.** A lease that has not expired and is not the client's
own is still there after the call, and the client gets another address.
-/
theorem allocateLease4_keeps_other_leases (env : Env) (ctx : ClientContext4) (st : Server4)
    (l : Lease4) (hreal : ctx.fakeAllocation = false) (hl : l ∈ st.leases)
    (hactive : l.expired env.now = false) (hother : foundLease4 st.leases ctx ≠ some l) :
    l ∈ (after (allocateLease4 env ctx) st).leases ∧
      ∀ n, returned4 env ctx st = some n → n.addr ≠ l.addr := by
  unfold after returned4
  cases hstart : startSubnet ctx with
  | none =>
    simp only [allocateLease4_no_subnet hstart]
    exact ⟨hl, by simp [noLease4]⟩
  | some s =>
    have hother' : (findClientLease st.leases ctx s).1 ≠ some l := by
      simpa [foundLease4, hstart] using hother
    have hkeep := (allocateLease4_outcome env hreal hstart st).keeps_active hreal hl hactive hother'
    generalize allocateLease4 env ctx st = result at hkeep ⊢
    cases result with
    | ok r st' => exact hkeep
    | error e st' => exact ⟨hkeep, by simp⟩

/-- The client gets another address and loses its own lease, and the other client keeps its. -/
theorem keeps_other_leases_sample :
    let st := Sample.serverWith [Sample.lease 2 1 0xC000020A#32, Sample.lease 1 1 0xC000020B#32]
    let env := Sample.envAt 50 Sample.noHosts
    let ctx := Sample.client 1 0xC000020C#32 false []
    (returned4 env ctx st).map (·.addr) = some 0xC000020C#32 ∧
      Sample.lease 2 1 0xC000020A#32 ∈ (after (allocateLease4 env ctx) st).leases ∧
      ∀ n, returned4 env ctx st = some n → n.addr ≠ 0xC000020A#32 :=
  ⟨by decide, allocateLease4_keeps_other_leases _ _ _ (Sample.lease 2 1 0xC000020A#32) rfl
    (by decide) (by decide) (by decide)⟩

theorem unchanged_of_fake (env : Env) (hfake : ctx.fakeAllocation = true) (st : Server4) :
    Unchanged4 st (after (allocateLease4 env ctx) st) := by
  unfold after
  cases hstart : startSubnet ctx with
  | none =>
    rw [allocateLease4_no_subnet hstart]
    exact .refl st
  | some s =>
    have hoffer := allocateLease4_offer env hfake hstart st
    generalize allocateLease4 env ctx st = result at hoffer ⊢
    cases result with
    | ok r st' => exact hoffer.1
    | error e st' => exact hoffer.2

/-- **An offer changes neither the leases nor the statistics**, whatever comes of it. -/
theorem allocateLease4_fake_unchanged (env : Env) (ctx : ClientContext4) (st : Server4)
    (hfake : ctx.fakeAllocation = true) :
    (after (allocateLease4 env ctx) st).leases = st.leases ∧
      (after (allocateLease4 env ctx) st).stats = st.stats := by
  have hsame := unchanged_of_fake env hfake st
  exact ⟨hsame.leases, hsame.stats⟩

/-- An expired lease is offered to another client and stays as it is. -/
theorem fake_unchanged_sample :
    let st := Sample.serverWith [Sample.lease 2 1 0xC000020A#32]
    let env := Sample.envAt 200 Sample.noHosts
    let ctx := Sample.client 1 0xC000020A#32 true []
    (returned4 env ctx st).map (·.addr) = some 0xC000020A#32 ∧
      (after (allocateLease4 env ctx) st).leases = st.leases ∧
      (after (allocateLease4 env ctx) st).stats = st.stats :=
  ⟨by decide, allocateLease4_fake_unchanged _ _ _ rfl⟩

end Dhcp
