import Mathlib.Data.List.Pairwise
import KeaDhcp.Properties.Allocate4

/-!
# DHCPv4 allocation and host reservations

The client's reservations are found before an allocation and stored in its context; an
allocation then asks the host manager only whether others hold a reservation.
-/

namespace Dhcp

open Infra Engine4 SubnetPtr Sample ClientContext4 HostMgr List Option Except

variable {env : Env} {ctx : ClientContext4} {s t u : SubnetPtr 32} {st st' : Server4}
variable {h : Host} {id : SubnetID} {ids : List IdentifierPair} {subnets : List (SubnetPtr 32)}
    {addr : Address 32} {db : Lease4Storage} {l n : Lease4} {r : Allocation4}

/-! ## The reservations of the client -/

/-- The reservation was made for one of the identifiers of the client. -/
def ClientContext4.Owns (ctx : ClientContext4) (h : Host) : Prop :=
  (h.identifierType, h.identifier) ∈ ctx.hostIdentifiers

/-- The reservations in the context are those that `findReservation` found, for its classes then. -/
def ReservationsFound4 (env : Env) (ctx : ClientContext4) : Prop :=
  ∃ classes, ctx.hosts = findReservation4 env { ctx with classes := classes }

theorem owns_of_hasIdentifier {id : IdentifierPair} (hid : id ∈ ctx.hostIdentifiers)
    (hh : h.hasIdentifier id) : ctx.Owns h := by
  simp only [Host.hasIdentifier, Bool.and_eq_true, decide_eq_true_eq] at hh
  rw [ClientContext4.Owns, hh.1, hh.2]
  exact hid

/-- The host manager holds the reservation in the subnet for one of the identifiers. -/
def HeldFor (env : Env) (ids : List IdentifierPair) (id : SubnetID) (h : Host) : Prop :=
  ∃ i ∈ ids, env.hostMgr.Holds h ∧ h.hasIdentifier i ∧ h.ipv4SubnetId = id

theorem hostMap_spec (hmap : hostMap env ids id = some h) : HeldFor env ids id h := by
  obtain ⟨hmem, hid⟩ := mem_filter.mp (mem_of_getLast? hmap)
  obtain ⟨i, hi, hall⟩ := mem_flatMap.mp hmem
  simp only [Bool.and_eq_true, decide_eq_true_eq] at hid
  obtain ⟨hholds, hh⟩ := getAll_spec hall
  exact ⟨i, hi, hholds, hh, hid.2⟩

theorem findSome_get4_spec (hfind : ids.findSome? (env.hostMgr.get4 id) = some h) :
    HeldFor env ids id h := by
  obtain ⟨i, hi, hget⟩ := exists_of_findSome?_eq_some hfind
  exact ⟨i, hi, get4_spec hget⟩

theorem hostInSubnet4_spec {singleQuery : Bool}
    (hfind : hostInSubnet4 env ids singleQuery s = some h) : HeldFor env ids s.getID h := by
  unfold hostInSubnet4 at hfind
  split at hfind
  · cases hfind
  split at hfind
  · exact hostMap_spec hfind
  · exact findSome_get4_spec hfind

theorem mem_findReservation4 (hmem : (id, h) ∈ findReservation4 env ctx) :
    HeldFor env ctx.hostIdentifiers id h := by
  unfold findReservation4 findReservationWith4 at hmem
  split at hmem
  · cases hmem
  split at hmem
  · rename_i ghost hglobal
    obtain ⟨rfl, rfl⟩ := Prod.mk.inj (mem_singleton.mp hmem)
    split at hglobal
    · exact findSome_get4_spec hglobal
    · cases hglobal
  · obtain ⟨t, -, ht⟩ := mem_filterMap.mp hmem
    split at ht
    · obtain ⟨h', hhost, heq⟩ := map_eq_some_iff.mp ht
      obtain ⟨rfl, rfl⟩ := Prod.mk.inj heq
      exact hostInSubnet4_spec hhost
    · cases ht

theorem ReservationsFound4.sound (hfound : ReservationsFound4 env ctx)
    (hfind : ctx.findHost id = some h) :
    env.hostMgr.Holds h ∧ h.ipv4SubnetId = id ∧ ctx.Owns h := by
  obtain ⟨classes, hhosts⟩ := hfound
  rw [findHost, hhosts] at hfind
  obtain ⟨pre, post, hsplit, -⟩ := lookup_eq_some_iff.mp hfind
  have hmem : (id, h) ∈ findReservation4 env { ctx with classes := classes } := by
    rw [hsplit]
    simp
  obtain ⟨i, hi, hholds, hid, hsubnet⟩ := mem_findReservation4 hmem
  exact ⟨hholds, hsubnet, owns_of_hasIdentifier hi hid⟩

/-! ## The checks of a request -/

theorem Cleared4.of_requested (h : Cleared4 env ctx db s addr t) (hne : ctx.requestedAddress ≠ 0) :
    addr = ctx.requestedAddress ∧ addressReserved env ctx s addr = false ∧
      inUseByOther env ctx db s addr = false ∧ RequestedIn4 env ctx db s addr t := by
  cases h with
  | any hzero | reserved hzero => exact absurd hzero hne
  | requested _ haddr hothers hused hin => exact ⟨haddr, hothers, hused, hin⟩

theorem Cleared4.of_reserved (h : Cleared4 env ctx db s addr t) (hzero : ctx.requestedAddress = 0)
    (hne : addr ≠ 0) :
    hasAddressReservation ctx s = (true, t) ∧ ctx.reservedAddress t = .ok addr := by
  cases h with
  | any _ haddr => exact absurd haddr hne
  | reserved _ hres haddr => exact ⟨hres, haddr⟩
  | requested _ haddr => exact absurd (haddr.trans hzero) hne

theorem RequestedIn4.sibling (h : RequestedIn4 env ctx db s addr t) : t ∈ s.siblings := by
  obtain ⟨-, hpool⟩ | ⟨r, reserved, hres, -, hcase⟩ := h
  · exact inAllowedPool_sibling hpool
  have hr := hasAddressReservation_sibling hres
  rcases hcase with ⟨-, rfl⟩ | ⟨-, -, hpool⟩
  · exact hr
  · exact sibling_trans hr (inAllowedPool_sibling hpool)

theorem Cleared4.sibling (h : Cleared4 env ctx db s addr t) : t ∈ s.siblings := by
  cases h with
  | any _ _ hnone => exact hasAddressReservation_sibling hnone
  | reserved _ hres => exact hasAddressReservation_sibling hres
  | requested _ _ _ _ hin => exact hin.sibling

theorem reservedAddress_host (hmode : t.mode ≠ .global) (haddr : ctx.reservedAddress t = .ok addr) :
    ∃ h, ctx.findHost t.getID = some h ∧ h.ipv4Reservation = addr := by
  simp only [reservedAddress, currentHost, if_neg hmode] at haddr
  split at haddr
  · rename_i h hfind
    exact ⟨h, hfind, ok.inj haddr⟩
  · cases haddr

theorem findClientLease_sibling (db : Lease4Storage) (ctx : ClientContext4) (s : SubnetPtr 32) :
    (findClientLease db ctx s).2 ∈ s.siblings :=
  sibling_of_mem_walkFor (findClientLease_subnet_mem db ctx s)

/-! ## The subnet of a lease -/

/-- The subnet has a pool with the address for the client, or a reservation of it for the client. -/
def SubnetConsistent4 (env : Env) (ctx : ClientContext4) (t : SubnetPtr 32) (addr : Address 32) :
    Prop :=
  t.subnet.inPoolFor .v4 addr ctx.classes ∨
    ∃ h, env.hostMgr.Holds h ∧ h.ipv4SubnetId = t.getID ∧ h.ipv4Reservation = addr ∧ ctx.Owns h

/-- The subnet that a lease is recorded in has its address for the client. -/
def LeaseConsistent4 (env : Env) (ctx : ClientContext4) (n : Lease4) : Prop :=
  ∃ s ∈ ctx.subnet, ∃ t ∈ s.siblings, t.getID = n.subnetId ∧ SubnetConsistent4 env ctx t n.addr

/-- All subnets that the client can be given an address in have reservation mode `HR_ALL`. -/
def ReservationsEverywhere (ctx : ClientContext4) : Prop :=
  ∀ s ∈ ctx.subnet, ∀ t ∈ s.siblings, t.mode = .all

theorem startSubnet_spec (h : startSubnet ctx = some s) :
    ∃ s₀ ∈ ctx.subnet, s ∈ s₀.siblings ∧ s.clientSupported ctx.classes := by
  obtain ⟨s₀, hs₀, hstart⟩ := bind_eq_some_iff.mp h
  refine ⟨s₀, hs₀, ?_⟩
  split at hstart
  · rename_i hsupported
    obtain rfl := some.inj hstart
    exact ⟨s₀.self_mem_siblings, hsupported⟩
  · unfold getNextSubnetFor at hstart
    have hmem := mem_of_mem_tail (mem_of_find?_eq_some hstart)
    exact ⟨mem_walk.mp hmem, by simpa using find?_some hstart⟩

theorem findAddressReservation_eq (hmode : ∀ t ∈ subnets, t.mode ≠ .global) :
    findAddressReservation ctx s subnets =
      match subnets.find? ctx.reservesIn with
      | some t => (true, t)
      | none => (false, s) := by
  induction subnets with
  | nil => rfl
  | cons v vs ih =>
    have hrest := ih fun t ht => hmode t (mem_cons_of_mem v ht)
    rw [findAddressReservation, if_neg (hmode v mem_cons_self), find?_cons]
    cases hres : ctx.reservesIn v with
    | true => exact if_pos hres
    | false =>
      rw [hrest]
      exact if_neg (by rw [← reservesIn, hres]; exact Bool.false_ne_true)

theorem hasAddressReservation_eq (hmode : ∀ t ∈ s.siblings, t.mode ≠ .global) :
    hasAddressReservation ctx s =
      match (s.walkFor ctx.classes).find? ctx.reservesIn with
      | some t => (true, t)
      | none => (false, s) := by
  rw [← findAddressReservation_eq fun t ht => hmode t (sibling_of_mem_walkFor ht),
    hasAddressReservation]
  split
  · rename_i hempty
    have hnone : ∀ t, ctx.reservesIn t = false := by
      simp [reservesIn, findHost, isEmpty_iff.mp hempty]
    rw [findAddressReservation_eq fun t ht => hmode t (sibling_of_mem_walkFor ht),
      find?_eq_none.mpr (by simp [hnone])]
  · rfl

theorem hasAddressReservation_none_iff (hmode : ∀ t ∈ s.siblings, t.mode ≠ .global) :
    hasAddressReservation ctx s = (false, s) ↔ ∀ t ∈ s.walkFor ctx.classes, ¬ctx.reservesIn t := by
  rw [hasAddressReservation_eq hmode, ← find?_eq_none]
  cases (s.walkFor ctx.classes).find? ctx.reservesIn <;> simp

/-- The answer is the same from every subnet that the client may use. -/
theorem hasAddressReservation_sibling_none (hmode : ∀ t ∈ s.siblings, t.mode ≠ .global)
    (hs : s.clientSupported ctx.classes) (ht : t ∈ s.walkFor ctx.classes)
    (hnone : hasAddressReservation ctx s = (false, s)) : hasAddressReservation ctx t = (false, t) := by
  have hmode' : ∀ u ∈ t.siblings, u.mode ≠ .global := fun u hu =>
    hmode u (sibling_trans (sibling_of_mem_walkFor ht) hu)
  rw [hasAddressReservation_none_iff hmode] at hnone
  rw [hasAddressReservation_none_iff hmode']
  exact fun u hu => hnone u (walkFor_trans hs ht hu)

theorem reservedAddress_ne_zero (hmode : ∀ v ∈ s.siblings, v.mode ≠ .global)
    (hres : hasAddressReservation ctx s = (true, t)) : ctx.reservedAddress t ≠ .ok 0 := by
  intro haddr
  obtain ⟨h, hhost, hzero⟩ := reservedAddress_host (hmode t (hasAddressReservation_sibling hres)) haddr
  rw [hasAddressReservation_eq hmode] at hres
  cases hfind : (s.walkFor ctx.classes).find? ctx.reservesIn with
  | none => simp [hfind] at hres
  | some u =>
    obtain rfl : u = t := by simpa [hfind] using hres
    have hreserves := find?_some hfind
    simp [reservesIn, hhost, hzero] at hreserves

theorem subnetConsistent4_of_reserved (hfound : ReservationsFound4 env ctx)
    (hmode : t.mode ≠ .global) (haddr : ctx.reservedAddress t = .ok addr) :
    SubnetConsistent4 env ctx t addr := by
  obtain ⟨h, hfind, rfl⟩ := reservedAddress_host hmode haddr
  obtain ⟨hholds, hsubnet, howns⟩ := hfound.sound hfind
  exact .inr ⟨h, hholds, hsubnet, rfl, howns⟩

theorem Cleared4.subnetConsistent (hfound : ReservationsFound4 env ctx)
    (hmode : ∀ v ∈ s.siblings, v.mode ≠ .global) (h : Cleared4 env ctx db s addr t) (hne : addr ≠ 0) :
    SubnetConsistent4 env ctx t addr := by
  have hmode' := hmode t h.sibling
  by_cases hzero : ctx.requestedAddress = 0
  · exact subnetConsistent4_of_reserved hfound hmode' (h.of_reserved hzero hne).2
  obtain ⟨-, -, -, ⟨-, hpool⟩ | ⟨r, reserved, hres, haddr, hcase⟩⟩ := h.of_requested hzero
  · exact .inl (inAllowedPool_some hpool).2
  rcases hcase with ⟨rfl, rfl⟩ | ⟨-, -, hpool⟩
  · exact subnetConsistent4_of_reserved hfound hmode' haddr
  · exact .inl (inAllowedPool_some hpool).2

/--
The renewal of a lease that ends up in the wrong subnet. The client asks for its address while its
reserved one is in use by someone else. The engine moves to the subnet `p` with a pool for the
address, and then to the subnet `t` with the reservation, which has nothing to do with it.
-/
inductive RenewalMoves4 (env : Env) (ctx : ClientContext4) (db : Lease4Storage) : Prop
  | intro {s c r p t : SubnetPtr 32} {l : Lease4} {hw : HWAddr} {reserved : Address 32}
      (hreal : ctx.fakeAllocation = false) (hhwaddr : ctx.hwaddr = some hw)
      (hstart : startSubnet ctx = some s) (hfind : findClientLease db ctx s = (some l, c))
      (hne : l.addr ≠ 0) (hrequested : ctx.requestedAddress = l.addr)
      (hothers : addressReserved env ctx c l.addr = false)
      (hres : hasAddressReservation ctx c = (true, r))
      (hreserved : ctx.reservedAddress r = .ok reserved) (hdiffers : reserved ≠ l.addr)
      (hused : notInUse env db reserved = false) (hpool : inAllowedPool ctx r l.addr = some p)
      (hagain : hasAddressReservation ctx p = (true, t))
      (hwrong : ¬SubnetConsistent4 env ctx t l.addr)

/-- The lease that `findClientLease` finds is not in use by another client. -/
theorem inUseByOther_own (h : findClientLease db ctx s = (some l, t)) :
    inUseByOther env ctx db t l.addr = false := by
  have hown : (findClientLease db ctx s).1 = some l := by rw [h]
  obtain ⟨hl, -, -, hbelongs⟩ := findClientLease_some hown
  rw [h] at hbelongs
  simp [inUseByOther, Lease4Storage.getLease4_of_mem hl, hbelongs]

/-- A renewal stays in a subnet for the address, or it is the one of `RenewalMoves4`. -/
theorem renewal_subnetConsistent {hw : HWAddr} (hfound : ReservationsFound4 env ctx)
    (hreal : ctx.fakeAllocation = false) (hhwaddr : ctx.hwaddr = some hw)
    (hstart : startSubnet ctx = some s) (hsupported : s.clientSupported ctx.classes)
    (hmode : ∀ v ∈ s.siblings, v.mode = .all)
    (hplan : requestPlan env ctx st.leases s = .ok (.renew l t))
    (hmoves : ¬RenewalMoves4 env ctx st.leases) : SubnetConsistent4 env ctx t l.addr := by
  obtain ⟨hown, addr, u, hclear, hrenew⟩ := requestPlan_renew hplan
  rcases hfind : findClientLease st.leases ctx s with ⟨found, c⟩
  obtain rfl : found = some l := by simpa [hfind] using hown
  have hcwalk := findClientLease_subnet_mem st.leases ctx s
  rw [hfind] at hclear hcwalk
  obtain ⟨hc, hcsupported⟩ := (mem_walkFor_of_supported hsupported).mp hcwalk
  have hglobal : ∀ v ∈ c.siblings, v.mode ≠ .global := by
    intro v hv
    simp [hmode v (sibling_trans hc hv)]
  rcases (renewalSubnet_some hrenew).2 with hres | ⟨-, hpool⟩
  case inr => exact .inl (inAllowedPool_some hpool).2
  by_cases hne : addr = 0
  · subst hne
    -- No address was asked for, so the client had no reservation in the first place.
    exfalso
    cases hclear with
    | any _ _ hr =>
      obtain rfl := hasAddressReservation_false hr
      simp [hr] at hres
    | reserved _ hr haddr => exact reservedAddress_ne_zero hglobal hr haddr
    | requested hne => exact hne rfl
  · have hladdr := renewalSubnet_addr hrenew hne
    by_cases hzero : ctx.requestedAddress = 0
    · obtain ⟨hr, haddr⟩ := hclear.of_reserved hzero hne
      obtain rfl : t = u := (Prod.mk.inj (hres.symm.trans (hasAddressReservation_again hr))).2
      rw [hladdr]
      exact hclear.subnetConsistent hfound hglobal hne
    · obtain ⟨hreq, hothers, -, ⟨hnone, hpool⟩ | ⟨r, reserved, hr, haddr, hcase⟩⟩ :=
        hclear.of_requested hzero
      · have hu := hasAddressReservation_sibling_none hglobal hcsupported
          (inAllowedPool_some hpool).1 hnone
        simp [hu] at hres
      · rcases hcase with ⟨rfl, rfl⟩ | ⟨hdiffers, hused, hpool⟩
        · obtain rfl : t = r := (Prod.mk.inj (hres.symm.trans (hasAddressReservation_again hr))).2
          rw [hladdr]
          exact hclear.subnetConsistent hfound hglobal hne
        · by_contra hwrong
          subst hladdr
          exact hmoves (.intro hreal hhwaddr hstart hfind hne hreq.symm hothers hr haddr hdiffers
            hused hpool hres hwrong)

theorem leaseConsistent4_of_subnet (hstart : startSubnet ctx = some s) (ht : t ∈ s.siblings)
    (hsubnet : n.subnetId = t.getID) (hcons : SubnetConsistent4 env ctx t n.addr) :
    LeaseConsistent4 env ctx n := by
  obtain ⟨s₀, hs₀, hs, -⟩ := startSubnet_spec hstart
  exact ⟨s₀, hs₀, t, sibling_trans hs ht, hsubnet.symm, hcons⟩

theorem renewalSubnet_sibling (h : renewalSubnet ctx s addr l = some t) : t ∈ s.siblings := by
  rcases (renewalSubnet_some h).2 with hres | ⟨-, hpool⟩
  · exact hasAddressReservation_sibling hres
  · exact inAllowedPool_sibling hpool

section

variable (hfound : ReservationsFound4 env ctx) (hstart : startSubnet ctx = some s)
  (hmode : ∀ v ∈ s.siblings, v.mode = .all) (hnew : r.newLease = some n)

include hfound hstart hmode hnew

/-- Outside of `RenewalMoves4`, a request returns a lease in a subnet for its address. -/
theorem Outcome4.leaseConsistent {hw : HWAddr} (h : Outcome4 env ctx s st (.ok r st'))
    (hreal : ctx.fakeAllocation = false) (hhwaddr : ctx.hwaddr = some hw)
    (hmoves : ¬RenewalMoves4 env ctx st.leases) : LeaseConsistent4 env ctx n := by
  obtain ⟨s₀, -, -, hsupported⟩ := startSubnet_spec hstart
  have hbegin := findClientLease_sibling st.leases ctx s
  have hglobal : ∀ v ∈ (findClientLease st.leases ctx s).2.siblings, v.mode ≠ .global := by
    intro v hv
    simp [hmode v (sibling_trans hbegin hv)]
  cases h with
  | refused hnone => simp [hnone] at hnew
  | renewed hplan hlease =>
    obtain rfl := some.inj (hlease.symm.trans hnew)
    obtain ⟨-, addr, u, hclear, hrenew⟩ := requestPlan_renew hplan
    have ht := sibling_trans (sibling_trans hbegin hclear.sibling)
      (renewalSubnet_sibling hrenew)
    have hcons :=
      renewal_subnetConsistent hfound hreal hhwaddr hstart hsupported hmode hplan hmoves
    exact leaseConsistent4_of_subnet hstart ht rfl hcons
  | allocated hplan hplaced hlease =>
    obtain rfl := some.inj (hlease.symm.trans hnew)
    obtain ⟨-, hne, hclear, -⟩ := requestPlan_allocate hplan
    refine leaseConsistent4_of_subnet hstart (sibling_trans hbegin hclear.sibling)
      hplaced.subnetId_eq ?_
    rw [hplaced.addr_eq]
    exact hclear.subnetConsistent hfound hglobal hne
  | picked hplan hpreferred _ hu hpicked hlease =>
    obtain rfl := some.inj (hlease.symm.trans hnew)
    obtain ⟨-, hclear, -⟩ := requestPlan_pick hplan
    have hmem := sibling_trans (sibling_trans hbegin hclear.sibling)
      (sibling_trans hpreferred (sibling_of_mem_walkFor hu))
    exact leaseConsistent4_of_subnet hstart hmem hpicked.2.2.subnetId_eq (.inl hpicked.1)

theorem Offered4.leaseConsistent (h : Offered4 env ctx s st (.ok r st')) :
    LeaseConsistent4 env ctx n := by
  obtain ⟨t, hsubnet, hsource⟩ := h.2 n hnew
  cases hsource with
  | reserved u hu hres haddr =>
    have ht := sibling_trans (sibling_of_mem_walkFor hu)
      (hasAddressReservation_sibling hres)
    have hglobal : t.mode ≠ .global := by simp [hmode t ht]
    exact leaseConsistent4_of_subnet hstart ht hsubnet
      (subnetConsistent4_of_reserved hfound hglobal haddr)
  | pool ht hpool => exact leaseConsistent4_of_subnet hstart ht hsubnet (.inl hpool)

end

/-- The call of `RenewalMoves4` returns a lease that is recorded in the wrong subnet. -/
theorem RenewalMoves4.wrong_subnet (h : RenewalMoves4 env ctx st.leases) :
    ∃ n, returned4 env ctx st = some n ∧ ¬LeaseConsistent4 env ctx n := by
  obtain @⟨s, c, r, p, t, l, hw, reserved, hreal, hhwaddr, hstart, hfind, hne, hrequested, hothers,
    hres, hreserved, hdiffers, hused, hpool, hagain, hwrong⟩ := h
  have hclear : Cleared4 env ctx st.leases c l.addr p :=
    .requested hne hrequested.symm hothers (inUseByOther_own hfind)
      (.inr ⟨r, reserved, hres, hreserved, .inr ⟨hdiffers, hused, hpool⟩⟩)
  have hplan : requestPlan env ctx st.leases s = .ok (.renew l t) :=
    (requestPlan_renew_iff hfind).mpr ⟨rfl, l.addr, p, hclear, .inl rfl, .inl hagain⟩
  have hl : l ∈ st.leases := (findClientLease_some (by rw [hfind])).1
  have hrenew := renewLease4_real env t hreal hl
  refine ⟨renewedLease4 env ctx t l, ?_, ?_⟩
  · simp [returned4, allocateLease4, hstart, hhwaddr, hreal, run_tryCatch, requestLease4, run_bind,
      run_map, hplan, hrenew]
  rintro ⟨s₀, hs₀, u, hu, hid, hcons⟩
  obtain ⟨s₁, hs₁, hs, -⟩ := startSubnet_spec hstart
  obtain rfl : s₀ = s₁ := mem_unique hs₀ hs₁
  have hc := findClientLease_sibling st.leases ctx s
  rw [hfind] at hc
  have ht : t ∈ s₀.siblings :=
    sibling_trans (sibling_trans hs hc)
      (sibling_trans (sibling_trans (hasAddressReservation_sibling hres)
        (inAllowedPool_sibling hpool)) (hasAddressReservation_sibling hagain))
  obtain rfl : u = t := eq_of_getID_eq hu ht hid
  exact hwrong hcons

/--
**The subnet of a lease has a pool or a reservation for its address**, for every call except the
one of `RenewalMoves4`.
-/
theorem allocateLease4_subnet_consistent_iff (env : Env) (ctx : ClientContext4) (st : Server4)
    (hfound : ReservationsFound4 env ctx) (hmode : ReservationsEverywhere ctx) :
    (∀ n, returned4 env ctx st = some n → LeaseConsistent4 env ctx n) ↔
      ¬RenewalMoves4 env ctx st.leases := by
  constructor
  · intro hall hmoves
    obtain ⟨n, hnew, hwrong⟩ := hmoves.wrong_subnet
    exact hwrong (hall n hnew)
  · intro hmoves n hnew
    obtain ⟨s, hstart⟩ := startSubnet_of_returned4 hnew
    obtain ⟨s₀, hs₀, hs, -⟩ := startSubnet_spec hstart
    have hmode' : ∀ v ∈ s.siblings, v.mode = .all := fun v hv =>
      hmode s₀ hs₀ v (sibling_trans hs hv)
    obtain ⟨hw, hhwaddr⟩ := hwaddr_of_returned4 hnew
    obtain ⟨r, st', hrun, hlease⟩ := returned4_eq_some hnew
    cases hfake : ctx.fakeAllocation with
    | false =>
      have hout := allocateLease4_outcome env hfake hstart st
      rw [hrun] at hout
      exact hout.leaseConsistent hfound hstart hmode' hlease hfake hhwaddr hmoves
    | true =>
      have hoffer := allocateLease4_offer env hfake hstart st
      rw [hrun] at hoffer
      exact hoffer.leaseConsistent hfound hstart hmode' hlease

namespace Sample

/-- Client 1 holds a reservation in subnet 2, and client 2 has a lease for that address. -/
def takenHost : Host := host4 1 2 0x0A00000B#32

def takenEnv : Env := envAt 50 (hostsOf takenHost)

def takenServer : Server4 := serverWith [lease 2 2 0x0A00000B#32, lease 1 1 0xC000020C#32]

variable (requested : Address 32)

/-- Client 1 asks for an address while its reservation is taken. -/
def takenClient : ClientContext4 := client 1 requested false [(2, takenHost)]

theorem taken_hosts : ReservationsFound4 takenEnv (takenClient requested) :=
  ⟨[], rfl⟩

theorem taken_mode : ReservationsEverywhere (takenClient requested) := by
  rintro s ⟨⟩
  decide

end Sample

/-- Any other request in the network of the failing one gets a lease in the right subnet. -/
theorem subnet_consistent_sample :
    (returned4 takenEnv (takenClient 0xC000020D#32) takenServer).map
        (fun n => (n.addr, n.subnetId)) = some (0xC000020D#32, 1) ∧
      ((∀ n, returned4 takenEnv (takenClient 0xC000020D#32) takenServer = some n →
          LeaseConsistent4 takenEnv (takenClient 0xC000020D#32) n) ↔
        ¬RenewalMoves4 takenEnv (takenClient 0xC000020D#32) takenServer.leases) :=
  ⟨by decide, allocateLease4_subnet_consistent_iff _ _ _ (taken_hosts _) (taken_mode _)⟩

/-- The client renews its lease of subnet 1, and the lease is recorded in subnet 2. -/
theorem renewal_moves_to_reservation :
    ReservationsFound4 takenEnv (takenClient 0xC000020C#32) ∧
      ReservationsEverywhere (takenClient 0xC000020C#32) ∧
      ∃ n, returned4 takenEnv (takenClient 0xC000020C#32) takenServer = some n ∧
        n.addr = 0xC000020C#32 ∧ n.subnetId = 2 ∧
        ¬LeaseConsistent4 takenEnv (takenClient 0xC000020C#32) n := by
  refine ⟨taken_hosts _, taken_mode _,
    renewedLease4 takenEnv (takenClient 0xC000020C#32) ptr2
      (lease 1 1 0xC000020C#32), by decide, rfl, rfl, ?_⟩
  rintro ⟨s, ⟨⟩, t, ht, hid, hcons⟩
  obtain rfl : t = ptr2 := eq_of_getID_eq ht (by decide) hid
  rcases hcons with hpool | ⟨h, ⟨c, hc, hh⟩, -, haddr, -⟩
  · revert hpool
    decide
  obtain rfl := mem_singleton.mp hc
  obtain rfl := mem_singleton.mp hh
  revert haddr
  decide

end Dhcp
