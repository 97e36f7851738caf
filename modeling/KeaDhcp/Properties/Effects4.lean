import KeaDhcp.Properties.Placing4

/-!
# What the steps of DHCPv4 allocation do

One lemma per function of the engine that works on the server: the state it leaves behind and
what it returns. The properties of whole calls are derived from these.
-/

namespace Dhcp

open Infra Engine4 SubnetPtr Lease4Storage ClientContext4 RequestPlan Option List Lease4

variable {env : Env} {ctx : ClientContext4} {s : SubnetPtr 32} {st st' : Server4}
variable {l : Lease4} {t : SubnetPtr 32} {db : Lease4Storage} {cl previous : Option Lease4}

variable {addr : Address 32} {st₀ : Server4} {lease : Lease4} {old : Option Lease4}
  {subnets : List (SubnetPtr 32)} {r : Allocation4} {current : SubnetPtr 32}
  {clientLease : Option Lease4}

/-! ## Requests -/

theorem findLeaseInSubnets_some {p : SubnetPtr 32 → Lease4 → Bool} {leases : List Lease4}
    (h : findLeaseInSubnets p leases subnets = some (l, t)) :
    t ∈ subnets ∧ l ∈ leases ∧ l.subnetId = t.getID ∧ p t l := by
  obtain ⟨u, hu, hfind⟩ := exists_of_findSome?_eq_some h
  obtain ⟨l', hl', heq⟩ := map_eq_some_iff.mp hfind
  obtain ⟨rfl, rfl⟩ : l' = l ∧ u = t := by simpa using heq
  have hp := find?_some hl'
  simp only [Bool.and_eq_true, decide_eq_true_eq] at hp
  exact ⟨hu, mem_of_find?_eq_some hl', hp⟩

theorem searchClientLease_some (h : searchClientLease db ctx s = some (l, t)) :
    l ∈ db ∧ t ∈ s.walkFor ctx.classes ∧ l.subnetId = t.getID ∧
      l.belongsToClient ctx.hwaddr (ctx.clientIdFor t) := by
  rcases or_eq_some_iff.mp h with hid | ⟨-, hhw⟩
  · obtain ⟨c, hc, hfind⟩ := bind_eq_some_iff.mp hid
    obtain ⟨ht, hl, hsub, hmatch⟩ := findLeaseInSubnets_some hfind
    obtain ⟨hdb, hlc⟩ := mem_getLease4ByClientId.mp hl
    refine ⟨hdb, ht, hsub, ?_⟩
    simp [belongsToClient, clientIdFor, hmatch, hc, hlc, equalValues]
  · obtain ⟨hw, -, hfind⟩ := bind_eq_some_iff.mp hhw
    obtain ⟨ht, hl, hsub, hbelongs⟩ := findLeaseInSubnets_some hfind
    exact ⟨mem_of_getLease4ByHWAddr hl, ht, hsub, hbelongs⟩

theorem findClientLease_some (h : (findClientLease db ctx s).1 = some l) :
    l ∈ db ∧ (findClientLease db ctx s).2 ∈ s.walkFor ctx.classes ∧
      l.subnetId = (findClientLease db ctx s).2.getID ∧
      l.belongsToClient ctx.hwaddr (ctx.clientIdFor (findClientLease db ctx s).2) := by
  obtain ⟨⟨l', t⟩, hfound, rfl⟩ := map_eq_some_iff.mp h
  have hsubnet : (findClientLease db ctx s).2 = t := by simp [findClientLease, hfound]
  rw [hsubnet]
  exact searchClientLease_some hfound

theorem findClientLease_subnet_mem (db : Lease4Storage) (ctx : ClientContext4) (s : SubnetPtr 32) :
    (findClientLease db ctx s).2 ∈ s.walkFor ctx.classes := by
  cases hfound : searchClientLease db ctx s with
  | none =>
    simp only [findClientLease, hfound, map_none]
    exact s.self_mem_walkFor ctx.classes
  | some p =>
    have hmem := (searchClientLease_some (l := p.1) (t := p.2) hfound).2.1
    simpa [findClientLease, hfound] using hmem

/-! ### The client's address reservation -/

/-- The client has an address reservation in the subnet that the engine takes into account. -/
def ClientContext4.reservesIn (ctx : ClientContext4) (t : SubnetPtr 32) : Bool :=
  (ctx.findHost t.getID).any fun h =>
    h.ipv4Reservation ≠ 0 && t.honoursReservation h.ipv4Reservation

theorem findAddressReservation_true (h : findAddressReservation ctx s subnets = (true, t)) :
    t = s ∨ (t ∈ subnets ∧ t.mode ≠ .global ∧ ctx.reservesIn t) := by
  fun_induction findAddressReservation ctx s subnets with
  | case1 => cases h
  | case2 v vs hmode => exact .inl (Prod.mk.inj h).2.symm
  | case3 v vs hmode hres =>
    obtain rfl : v = t := (Prod.mk.inj h).2
    exact .inr ⟨mem_cons_self, hmode, hres⟩
  | case4 v vs hmode hres ih => exact (ih h).imp_right (And.imp_left (mem_cons_of_mem v))

theorem findAddressReservation_false (h : findAddressReservation ctx s subnets = (false, t)) :
    t = s := by
  fun_induction findAddressReservation ctx s subnets with
  | case1 | case2 => exact (Prod.mk.inj h).2.symm
  | case3 => cases h
  | case4 v vs hmode hres ih => exact ih h

theorem hasAddressReservation_false (h : hasAddressReservation ctx s = (false, t)) : t = s := by
  unfold hasAddressReservation at h
  split at h
  · exact (Prod.mk.inj h).2.symm
  · exact findAddressReservation_false h

theorem hasAddressReservation_again (h : hasAddressReservation ctx s = (true, t)) :
    hasAddressReservation ctx t = (true, t) := by
  have hcall := h
  unfold hasAddressReservation at h
  split at h
  · cases h
  rename_i hhosts
  rcases findAddressReservation_true h with rfl | ⟨-, hmode, hres⟩
  · exact hcall
  rw [hasAddressReservation, if_neg hhosts, walkFor_eq, findAddressReservation,
    if_neg hmode]
  exact if_pos hres

theorem findAddressReservation_subnet :
    (findAddressReservation ctx current subnets).2 = current ∨
      (findAddressReservation ctx current subnets).2 ∈ subnets := by
  fun_induction findAddressReservation ctx current subnets with
  | case1 | case2 => exact .inl rfl
  | case3 => exact .inr mem_cons_self
  | case4 t ts hmode hres ih => exact ih.imp_right (mem_cons_of_mem t)

theorem hasAddressReservation_subnet_mem (ctx : ClientContext4) (s : SubnetPtr 32) :
    (hasAddressReservation ctx s).2 ∈ s.walkFor ctx.classes := by
  unfold hasAddressReservation
  split
  · exact s.self_mem_walkFor ctx.classes
  rcases findAddressReservation_subnet with h | h
  · rw [h]
    exact s.self_mem_walkFor ctx.classes
  · exact h

theorem hasAddressReservation_walk {found : Bool} (h : hasAddressReservation ctx s = (found, t)) :
    t ∈ s.walkFor ctx.classes := by
  have hmem := hasAddressReservation_subnet_mem ctx s
  rw [h] at hmem
  exact hmem

theorem hasAddressReservation_sibling {found : Bool} (h : hasAddressReservation ctx s = (found, t)) :
    t ∈ s.siblings :=
  sibling_of_mem_walkFor (hasAddressReservation_walk h)

theorem inAllowedPool_some (h : inAllowedPool ctx s addr = some t) :
    t ∈ s.walkFor ctx.classes ∧ t.subnet.inPoolFor .v4 addr ctx.classes :=
  ⟨mem_of_find?_eq_some h, by simpa using find?_some h⟩

theorem inAllowedPool_none (h : inAllowedPool ctx s addr = none) (ht : t ∈ s.walkFor ctx.classes) :
    ¬t.subnet.inPoolFor .v4 addr ctx.classes :=
  find?_eq_none.mp h t ht

theorem inAllowedPool_sibling (h : inAllowedPool ctx s addr = some t) : t ∈ s.siblings :=
  sibling_of_mem_walkFor (inAllowedPool_some h).1

/-! ### The checks of a request -/

/-- Where the address of a request comes from. -/
theorem requestTarget_some (h : requestTarget env ctx s = .ok (some addr, t)) :
    (ctx.requestedAddress ≠ 0 ∧ addr = ctx.requestedAddress ∧ t = s ∧
      addressReserved env ctx s addr = false) ∨
    (ctx.requestedAddress = 0 ∧ hasAddressReservation ctx s = (true, t) ∧
      ctx.reservedAddress t = .ok addr) ∨
    (ctx.requestedAddress = 0 ∧ hasAddressReservation ctx s = (false, t) ∧ addr = 0) := by
  unfold requestTarget at h
  split at h
  · rename_i hne
    obtain ⟨haddr, rfl⟩ := Prod.mk.inj (Except.ok.inj h)
    split at haddr
    · cases haddr
    rename_i hres
    obtain rfl := some.inj haddr
    exact .inl ⟨hne, rfl, rfl, by simpa using hres⟩
  · rename_i hzero
    have hzero : ctx.requestedAddress = 0 := by simpa using hzero
    split at h
    · rename_i v hres
      cases haddr : ctx.reservedAddress v with
      | error e => simp [haddr, Except.map] at h
      | ok a =>
        rw [haddr] at h
        obtain ⟨rfl, rfl⟩ := h
        exact .inr (.inl ⟨hzero, hres, haddr⟩)
    · rename_i v hres
      obtain ⟨haddr, rfl⟩ := Prod.mk.inj (Except.ok.inj h)
      exact .inr (.inr ⟨hzero, hres, (some.inj haddr).symm⟩)

theorem moveToPool_true :
    moveToPool ctx s addr = (true, t) ↔ inAllowedPool ctx s addr = some t := by
  unfold moveToPool
  split <;> simp_all

/--
Where a request for an address goes on: where it is reserved for the client, or in a subnet with a
pool for it if the client has no reservation or its reserved address is in use.
-/
def RequestedIn4 (env : Env) (ctx : ClientContext4) (db : Lease4Storage) (s : SubnetPtr 32)
    (addr : Address 32) (t : SubnetPtr 32) : Prop :=
  hasAddressReservation ctx s = (false, s) ∧ inAllowedPool ctx s addr = some t ∨
    ∃ r reserved, hasAddressReservation ctx s = (true, r) ∧
      ctx.reservedAddress r = .ok reserved ∧ (reserved = addr ∧ r = t ∨ reserved ≠ addr ∧
        notInUse env db reserved = false ∧ inAllowedPool ctx r addr = some t)

/-- A specific address passes the checks of a request. -/
theorem checkRequested_iff :
    checkRequested env ctx db s addr = .ok (true, t) ↔
      inUseByOther env ctx db s addr = false ∧ RequestedIn4 env ctx db s addr t := by
  unfold checkRequested RequestedIn4
  cases hused : inUseByOther env ctx db s addr with
  | true => simp
  | false =>
    simp only [Bool.false_eq_true, ignoresReservation]
    rcases hres : hasAddressReservation ctx s with ⟨_ | _, r⟩
    · obtain rfl := hasAddressReservation_false hres
      simp [bind, Except.bind, mayAllocate, hres, moveToPool_true]
    have hagain := hasAddressReservation_again hres
    cases haddr : ctx.reservedAddress r with
    | error e => simp [Except.map, bind, Except.bind, haddr]
    | ok reserved =>
      by_cases heq : reserved = addr
      · simp [Except.map, bind, Except.bind, mayAllocate, hagain, haddr, heq]
      cases hfree : notInUse env db reserved with
      | true => simp [Except.map, bind, Except.bind, pure, Except.pure, haddr, heq, hfree]
      | false =>
        simp [Except.map, bind, Except.bind, mayAllocate, hagain, haddr, heq, hfree,
          moveToPool_true]

/--
A request passes the checks, with this address or zero for any, and goes on in `t`. Only a requested
address is compared with the reservations of others, in the subnet `s` in which the engine begins.
-/
inductive Cleared4 (env : Env) (ctx : ClientContext4) (db : Lease4Storage) (s : SubnetPtr 32)
    (addr : Address 32) (t : SubnetPtr 32) : Prop
  | any (hzero : ctx.requestedAddress = 0) (haddr : addr = 0)
      (hnone : hasAddressReservation ctx s = (false, t))
  | reserved (hzero : ctx.requestedAddress = 0) (hres : hasAddressReservation ctx s = (true, t))
      (haddr : ctx.reservedAddress t = .ok addr)
      (hused : addr ≠ 0 → inUseByOther env ctx db t addr = false)
  | requested (hne : addr ≠ 0) (haddr : addr = ctx.requestedAddress)
      (hothers : addressReserved env ctx s addr = false)
      (hused : inUseByOther env ctx db s addr = false) (hin : RequestedIn4 env ctx db s addr t)

theorem cleared4_iff :
    Cleared4 env ctx db s addr t ↔ ∃ u, requestTarget env ctx s = .ok (some addr, u) ∧
      (addr = 0 ∧ u = t ∨ addr ≠ 0 ∧ checkRequested env ctx db u addr = .ok (true, t)) := by
  constructor
  · intro h
    cases h with
    | any hzero haddr hnone =>
      exact ⟨t, by simp [requestTarget, hzero, hnone, haddr], .inl ⟨haddr, rfl⟩⟩
    | reserved hzero hres haddr hused =>
      refine ⟨t, by simp [requestTarget, hzero, hres, haddr, Except.map], ?_⟩
      by_cases hne : addr = 0
      · exact .inl ⟨hne, rfl⟩
      · exact .inr ⟨hne, checkRequested_iff.mpr ⟨hused hne,
          .inr ⟨t, addr, hasAddressReservation_again hres, haddr, .inl ⟨rfl, rfl⟩⟩⟩⟩
    | requested hne haddr hothers hused hin =>
      refine ⟨s, ?_, .inr ⟨hne, checkRequested_iff.mpr ⟨hused, hin⟩⟩⟩
      rw [requestTarget, if_pos (haddr ▸ hne), ← haddr, hothers]
      rfl
  · rintro ⟨u, htarget, hcase⟩
    rcases requestTarget_some htarget with ⟨hne, haddr, rfl, hothers⟩ | ⟨hzero, hres, haddr⟩ |
      ⟨hzero, hnone, haddr⟩
    · obtain ⟨hne, hcheck⟩ := hcase.resolve_left fun h => hne (haddr.symm.trans h.1)
      obtain ⟨hused, hin⟩ := checkRequested_iff.mp hcheck
      exact .requested hne haddr hothers hused hin
    · rcases hcase with ⟨hne, rfl⟩ | ⟨hne, hcheck⟩
      · exact .reserved hzero hres haddr (absurd hne)
      have hagain := hasAddressReservation_again hres
      obtain ⟨hused, ⟨hnone, -⟩ | ⟨r, reserved, hr, hraddr, hsame⟩⟩ := checkRequested_iff.mp hcheck
      · simp [hagain] at hnone
      obtain rfl : u = r := (Prod.mk.inj (hagain.symm.trans hr)).2
      obtain rfl : addr = reserved := Except.ok.inj (haddr.symm.trans hraddr)
      obtain ⟨-, rfl⟩ := hsame.resolve_right fun h => h.1 rfl
      exact .reserved hzero hres haddr fun _ => hused
    · obtain ⟨-, rfl⟩ := hcase.resolve_right fun h => h.1 haddr
      exact .any hzero haddr hnone

/-! ### The plan of a request -/

/--
Where a lease for this address is renewed: in the subnet of the client's reservation, whatever
that is for, or else in a subnet with a pool for the address.
-/
def RenewedIn4 (ctx : ClientContext4) (s : SubnetPtr 32) (addr : Address 32) (t : SubnetPtr 32) :
    Prop :=
  hasAddressReservation ctx s = (true, t) ∨
    hasAddressReservation ctx s = (false, s) ∧ inAllowedPool ctx s addr = some t

theorem renewalSubnet_iff :
    renewalSubnet ctx s addr l = some t ↔ (l.addr = addr ∨ addr = 0) ∧ RenewedIn4 ctx s l.addr t := by
  unfold renewalSubnet RenewedIn4
  rcases hres : hasAddressReservation ctx s with ⟨_ | _, u⟩
  · obtain rfl := hasAddressReservation_false hres
    simp
  · simp

theorem renewalSubnet_some (h : renewalSubnet ctx s addr l = some t) :
    (l.addr = addr ∨ addr = 0) ∧ RenewedIn4 ctx s l.addr t := renewalSubnet_iff.mp h

theorem renewalSubnet_addr (h : renewalSubnet ctx s addr l = some t) (hne : addr ≠ 0) :
    l.addr = addr :=
  (renewalSubnet_some h).1.resolve_right hne

theorem renewalSubnet_none (h : renewalSubnet ctx s addr l = none)
    (haddr : l.addr = addr ∨ addr = 0) :
    hasAddressReservation ctx s = (false, s) ∧ inAllowedPool ctx s l.addr = none := by
  have hnot : ∀ t, ¬RenewedIn4 ctx s l.addr t := by
    intro t ht
    simp [renewalSubnet_iff.mpr ⟨haddr, ht⟩] at h
  rcases hres : hasAddressReservation ctx s with ⟨_ | _, u⟩
  · obtain rfl := hasAddressReservation_false hres
    exact ⟨rfl, eq_none_iff_forall_ne_some.mpr fun t ht => hnot t (.inr ⟨hres, ht⟩)⟩
  · exact absurd (.inl hres) (hnot u)

/-- The plan for an address that passed the checks. -/
inductive Planned4 (ctx : ClientContext4) (cl : Option Lease4) (addr : Address 32)
    (s : SubnetPtr 32) : RequestPlan → Prop
  | renew {l : Lease4} {t : SubnetPtr 32} (hcl : cl = some l)
      (hsubnet : renewalSubnet ctx s addr l = some t) : Planned4 ctx cl addr s (.renew l t)
  | allocate (haddr : addr ≠ 0) (hnone : ∀ l, cl = some l → renewalSubnet ctx s addr l = none) :
      Planned4 ctx cl addr s (.allocate addr s cl)
  | pick (haddr : addr = 0) (hnone : ∀ l, cl = some l → renewalSubnet ctx s addr l = none) :
      Planned4 ctx cl addr s (.pick s cl)

theorem planFor_planned : Planned4 ctx cl addr s (planFor ctx cl addr s) := by
  unfold planFor
  split
  · rename_i hbind
    obtain ⟨l, hcl, hren⟩ := bind_eq_some_iff.mp hbind
    obtain ⟨t, hsubnet, heq⟩ := map_eq_some_iff.mp hren
    obtain ⟨rfl, rfl⟩ := Prod.mk.inj heq
    exact .renew hcl hsubnet
  rename_i hbind
  have hnone : ∀ l, cl = some l → renewalSubnet ctx s addr l = none := by
    rintro l rfl
    simpa using hbind
  split
  · exact .allocate ‹_› hnone
  · exact .pick (by simpa using ‹¬addr ≠ 0›) hnone

theorem requestPlan_inv {plan : RequestPlan} (h : requestPlan env ctx db s = .ok plan) :
    (∃ t, plan = .refuse t) ∨ ∃ addr t,
      Cleared4 env ctx db (findClientLease db ctx s).2 addr t ∧
      Planned4 ctx (findClientLease db ctx s).1 addr t plan := by
  simp only [requestPlan] at h
  cases htarget : requestTarget env ctx (findClientLease db ctx s).2 with
  | error e =>
    rw [htarget] at h
    cases h
  | ok target =>
    obtain ⟨addr | addr, u⟩ := target
    · rw [htarget] at h
      exact .inl ⟨u, (Except.ok.inj h).symm⟩
    rw [htarget] at h
    simp only [bind, Except.bind] at h
    split at h
    · rename_i hne
      cases hcheck : checkRequested env ctx db u addr with
      | error e =>
        rw [hcheck] at h
        cases h
      | ok checked =>
        rw [hcheck] at h
        obtain ⟨_ | _, t⟩ := checked
        · exact .inl ⟨t, (Except.ok.inj h).symm⟩
        · exact .inr ⟨addr, t, cleared4_iff.mpr ⟨u, htarget, .inr ⟨hne, hcheck⟩⟩,
            Except.ok.inj h ▸ planFor_planned⟩
    · rename_i hzero
      obtain rfl : addr = 0 := by simpa using hzero
      exact .inr ⟨0, u, cleared4_iff.mpr ⟨u, htarget, .inl ⟨rfl, rfl⟩⟩,
        Except.ok.inj h ▸ planFor_planned⟩

/-- A request that passes the checks is carried out. -/
theorem requestPlan_of_cleared {c : SubnetPtr 32} (hfind : findClientLease db ctx s = (cl, c))
    (h : Cleared4 env ctx db c addr t) :
    requestPlan env ctx db s = .ok (planFor ctx cl addr t) := by
  obtain ⟨u, htarget, ⟨haddr, rfl⟩ | ⟨hne, hcheck⟩⟩ := cleared4_iff.mp h
  · simp [requestPlan, hfind, htarget, haddr, bind, Except.bind, pure, Except.pure]
  · simp only [requestPlan, hfind, htarget, hcheck, bind, Except.bind, pure, Except.pure]
    exact if_pos hne

theorem requestPlan_renew (h : requestPlan env ctx db s = .ok (.renew l t)) :
    (findClientLease db ctx s).1 = some l ∧ ∃ addr u,
      Cleared4 env ctx db (findClientLease db ctx s).2 addr u ∧
      renewalSubnet ctx u addr l = some t := by
  rcases requestPlan_inv h with ⟨u, hu⟩ | ⟨addr, u, hclear, hplan⟩
  · cases hu
  · cases hplan with
    | renew hcl hsubnet => exact ⟨hcl, addr, u, hclear, hsubnet⟩

theorem requestPlan_allocate (h : requestPlan env ctx db s = .ok (.allocate addr t previous)) :
    (findClientLease db ctx s).1 = previous ∧ addr ≠ 0 ∧
      Cleared4 env ctx db (findClientLease db ctx s).2 addr t ∧
      ∀ l, previous = some l → renewalSubnet ctx t addr l = none := by
  rcases requestPlan_inv h with ⟨u, hu⟩ | ⟨a, u, hclear, hplan⟩
  · cases hu
  · cases hplan with
    | allocate hne hnone => exact ⟨rfl, hne, hclear, hnone⟩

theorem requestPlan_pick (h : requestPlan env ctx db s = .ok (.pick t previous)) :
    (findClientLease db ctx s).1 = previous ∧
      Cleared4 env ctx db (findClientLease db ctx s).2 0 t ∧
      ∀ l, previous = some l → renewalSubnet ctx t 0 l = none := by
  rcases requestPlan_inv h with ⟨u, hu⟩ | ⟨a, u, hclear, hplan⟩
  · cases hu
  · cases hplan with
    | pick hzero hnone =>
      subst hzero
      exact ⟨rfl, hclear, hnone⟩

/-- A specific address that is allocated is not the one the client has. -/
theorem allocate_other_addr (hplan : requestPlan env ctx db s = .ok (.allocate addr t previous))
    (hl : previous = some l) : l.addr ≠ addr := by
  obtain ⟨-, hne, hclear, hnone⟩ := requestPlan_allocate hplan
  intro haddr
  obtain ⟨hres, hpool⟩ := renewalSubnet_none (hnone l hl) (.inl haddr)
  rw [haddr] at hpool
  have hout := inAllowedPool_none hpool (t.self_mem_walkFor ctx.classes)
  cases hclear with
  | any _ hzero => exact hne hzero
  | reserved _ hr => simp [hasAddressReservation_again hr] at hres
  | requested _ _ _ _ hin =>
    obtain ⟨-, hin⟩ | ⟨r, reserved, hr, -, ⟨-, rfl⟩ | ⟨-, -, hin⟩⟩ := hin
    · exact hout (inAllowedPool_some hin).2
    · simp [hasAddressReservation_again hr] at hres
    · exact hout (inAllowedPool_some hin).2

section

variable {c : SubnetPtr 32} (hfind : findClientLease db ctx s = (cl, c))

include hfind

/-- When the client's lease is renewed. -/
theorem requestPlan_renew_iff :
    requestPlan env ctx db s = .ok (.renew l t) ↔
      cl = some l ∧ ∃ addr u, Cleared4 env ctx db c addr u ∧ (l.addr = addr ∨ addr = 0) ∧
        RenewedIn4 ctx u l.addr t := by
  constructor
  · intro h
    obtain ⟨hfound, addr, u, hclear, hrenew⟩ := requestPlan_renew h
    rw [hfind] at hfound hclear
    exact ⟨hfound, addr, u, hclear, renewalSubnet_some hrenew⟩
  · rintro ⟨rfl, addr, u, hclear, hrenew⟩
    rw [requestPlan_of_cleared hfind hclear]
    simp [planFor, renewalSubnet_iff.mpr hrenew]

/-- When a specific address is allocated. -/
theorem requestPlan_allocate_iff :
    requestPlan env ctx db s = .ok (.allocate addr t previous) ↔
      previous = cl ∧ addr ≠ 0 ∧ Cleared4 env ctx db c addr t ∧ ∀ l, cl = some l → l.addr ≠ addr := by
  constructor
  · intro h
    obtain ⟨hprevious, hne, hclear, -⟩ := requestPlan_allocate h
    rw [hfind] at hprevious hclear
    subst hprevious
    exact ⟨rfl, hne, hclear, fun l hl => allocate_other_addr h hl⟩
  · rintro ⟨rfl, hne, hclear, hother⟩
    rw [requestPlan_of_cleared hfind hclear]
    have hplan : Planned4 ctx previous addr t (planFor ctx previous addr t) := planFor_planned
    generalize planFor ctx previous addr t = plan at hplan ⊢
    cases hplan with
    | renew hcl hsubnet => exact absurd (renewalSubnet_addr hsubnet hne) (hother _ hcl)
    | allocate => rfl
    | pick hzero => exact absurd hzero hne

/-- When any address will do. -/
theorem requestPlan_pick_iff :
    requestPlan env ctx db s = .ok (.pick t previous) ↔
      previous = cl ∧ Cleared4 env ctx db c 0 t ∧ ∀ l, cl = some l → ∀ u, ¬RenewedIn4 ctx t l.addr u := by
  constructor
  · intro h
    obtain ⟨hprevious, hclear, hnone⟩ := requestPlan_pick h
    rw [hfind] at hprevious hclear
    subst hprevious
    refine ⟨rfl, hclear, fun l hl u hu => ?_⟩
    have hstays := hnone l hl
    rw [renewalSubnet_iff.mpr ⟨.inr rfl, hu⟩] at hstays
    cases hstays
  · rintro ⟨rfl, hclear, hnone⟩
    rw [requestPlan_of_cleared hfind hclear]
    have hplan : Planned4 ctx previous 0 t (planFor ctx previous 0 t) := planFor_planned
    generalize planFor ctx previous 0 t = plan at hplan ⊢
    cases hplan with
    | renew hcl hsubnet => exact absurd (renewalSubnet_some hsubnet).2 (hnone _ hcl _)
    | allocate hne => exact absurd rfl hne
    | pick => rfl

end

/-! ### Everything that a request can do -/

/-- The client's other lease, if there is one, went from `st` to `st'`. -/
def Removed4 (previous : Option Lease4) (st st' : Server4) : Prop :=
  match previous with
  | none => Unchanged4 st st'
  | some l =>
    st'.leases = st.leases.erase l.addr ∧
      st'.stats = st.stats.addValue (.subnet l.subnetId .assignedAddresses) (-1) ∧
      st'.ncrs = st.ncrs

theorem removePrevious_run (previous : Option Lease4) (hnew : r.newLease = some lease)
    (st : Server4) :
    ∃ r' st', removePrevious previous r st = .ok r' st' ∧ r'.newLease = some lease ∧
      r'.oldLease = previous.or r.oldLease ∧ Removed4 previous st st' := by
  cases previous with
  | none =>
    refine ⟨r, st, ?_, hnew, rfl, .refl st⟩
    simp [removePrevious]
  | some l =>
    refine ⟨{ r with oldLease := some l },
      { st with
        leases := st.leases.erase l.addr
        stats := st.stats.addValue (.subnet l.subnetId .assignedAddresses) (-1) },
      ?_, hnew, rfl, rfl, rfl, rfl⟩
    simp [removePrevious, hnew, run_bind, run_map]

theorem removePrevious_none (previous : Option Lease4) (hnew : r.newLease = none) (st : Server4) :
    removePrevious previous r st = .ok r st := by
  simp [removePrevious, hnew]

/-- What a request did to the server, and the lease it came back with. -/
inductive Outcome4 (env : Env) (ctx : ClientContext4) (s : SubnetPtr 32) (st : Server4) :
    EStateM.Result EngineError Server4 Allocation4 → Prop
  | crashed {e : EngineError} (hplan : requestPlan env ctx st.leases s = .error e) :
      Outcome4 env ctx s st (.error e st)
  | refused {r : Allocation4} {st' : Server4} (hnew : r.newLease = none)
      (hsame : Unchanged4 st st') : Outcome4 env ctx s st (.ok r st')
  | renewed {r : Allocation4} {l : Lease4} {t : SubnetPtr 32} {st' : Server4}
      (hplan : requestPlan env ctx st.leases s = .ok (.renew l t))
      (hnew : r.newLease = some (renewedLease4 env ctx t l))
      (hleases : st'.leases = st.leases.replace (renewedLease4 env ctx t l))
      (hstats : st'.stats = renewStats env t l st.stats) (hold : r.oldLease = some l)
      (hncrs : st'.ncrs = st.ncrs ++ if l.expired env.now then l.useNcrs env else []) :
      Outcome4 env ctx s st (.ok r st')
  | allocated {r : Allocation4} {addr : Address 32} {t : SubnetPtr 32}
      {previous old : Option Lease4} {lease : Lease4} {st₁ st' : Server4}
      (hplan : requestPlan env ctx st.leases s = .ok (.allocate addr t previous))
      (hplaced : Placed4 env ctx t addr st st₁ lease old) (hnew : r.newLease = some lease)
      (hremoved : Removed4 previous st₁ st') (hold : r.oldLease = previous.or old) : Outcome4 env ctx s st (.ok r st')
  | picked {r : Allocation4} {t preferred u : SubnetPtr 32} {previous old : Option Lease4}
      {lease : Lease4} {st₁ st' : Server4}
      (hplan : requestPlan env ctx st.leases s = .ok (.pick t previous))
      (hpreferred : preferred ∈ t.siblings)
      (hsupported : preferred.clientSupported ctx.classes = t.clientSupported ctx.classes)
      (hu : u ∈ preferred.walkFor ctx.classes)
      (hpicked : PickedIn4 env ctx u st st₁ lease old) (hnew : r.newLease = some lease)
      (hremoved : Removed4 previous st₁ st') (hold : r.oldLease = previous.or old) : Outcome4 env ctx s st (.ok r st')

/-- **Everything that a request can do**, one constructor of `Outcome4` per kind. -/
theorem requestLease4_outcome (env : Env) (s : SubnetPtr 32) (hfake : ctx.fakeAllocation = false)
    (st : Server4) : Outcome4 env ctx s st (requestLease4 env ctx s st) := by
  unfold requestLease4
  rw [run_bind_ok (run_get st)]
  cases hplan : requestPlan env ctx st.leases s with
  | error e => exact .crashed hplan
  | ok plan =>
    cases plan with
    | refuse t => exact .refused rfl (.refl st)
    | renew l t =>
      have hl := findClientLease_some (requestPlan_renew hplan).1
      have hrenew := renewLease4_real env t hfake hl.1
      simp only [run_bind, hrenew]
      exact .renewed hplan rfl rfl rfl rfl rfl
    | allocate addr t previous =>
      rcases allocateOrReuseLease4_run env ctx t addr st with hrun | ⟨lease, old, st₁, hrun, hplaced⟩ <;>
        simp only [run_bind, hrun]
      · exact .refused rfl (.refl st)
      · obtain ⟨r', st', hremove, hnew, hold, hremoved⟩ := removePrevious_run previous
          (r := { newLease := some lease, oldLease := old, subnet := t }) rfl st₁
        simp only [hremove]
        exact .allocated hplan hplaced hnew hremoved hold
    | pick t previous =>
      obtain ⟨r, st₁, hrun, hsearch⟩ := allocateUnreservedLease4_run
      dsimp only
      rw [run_bind_ok hrun]
      rcases hsearch with ⟨hnew, hsame⟩ | ⟨lease, preferred, u, hnew, hpref, hsup, hu, hpicked⟩
      · rw [removePrevious_none previous hnew]
        exact .refused hnew hsame
      · obtain ⟨r', st', hremove, hnew', hold, hremoved⟩ := removePrevious_run previous hnew st₁
        rw [hremove]
        exact .picked hplan hpref hsup hu hpicked hnew' hremoved hold

/-! ## Discoveries -/

theorem Placed4.unchanged_of_fake (hfake : ctx.fakeAllocation = true)
    (h : Placed4 env ctx s addr st st' lease old) : Unchanged4 st st' := by
  cases h with
  | created hreal | reused hreal => simp [hfake] at hreal
  | offered _ _ _ hsame => exact hsame

theorem renewLease4_fake (hfake : ctx.fakeAllocation = true) :
    renewLease4 env ctx s l st = .ok (updateLease4Information env ctx s l) st := by
  simp [renewLease4, hfake]

/-- Where an offered lease for `addr` in subnet `t` comes from. -/
inductive OfferSource4 (env : Env) (ctx : ClientContext4) (db : Lease4Storage) (s : SubnetPtr 32)
    (addr : Address 32) (t : SubnetPtr 32) : Prop
  /-- The address is the client's reservation. -/
  | reserved (u : SubnetPtr 32) (hu : u ∈ s.walkFor ctx.classes)
      (hres : hasAddressReservation ctx u = (true, t)) (haddr : ctx.reservedAddress t = .ok addr)
  /-- The address comes from a pool for the client and is not reserved for another one. -/
  | pool (ht : t ∈ s.siblings) (hpool : t.subnet.inPoolFor .v4 addr ctx.classes)
      (hres : addressReserved env ctx t addr = false)

/-- An offer changes neither database nor statistics, and its lease has a source. -/
def Offered4 (env : Env) (ctx : ClientContext4) (s : SubnetPtr 32) (st : Server4) :
    EStateM.Result EngineError Server4 Allocation4 → Prop
  | .error e st' => e = .nullPointer ∧ Unchanged4 st st'
  | .ok r st' => Unchanged4 st st' ∧ ∀ lease, r.newLease = some lease →
      ∃ t, lease.subnetId = t.getID ∧ OfferSource4 env ctx st.leases s lease.addr t

/-- The hint is not looked at, or the outcome is that of an allocation of it. -/
theorem offerRequested_cases (env : Env) (ctx : ClientContext4) (s : SubnetPtr 32) (st : Server4) :
    (∃ t ∈ s.walkFor ctx.classes, offerRequested env ctx s st = .ok (none, none, t) st) ∨
      ∃ t, inAllowedPool ctx s ctx.requestedAddress = some t ∧
        addressReserved env ctx t ctx.requestedAddress = false ∧
        ∀ lease old st', allocateOrReuseLease4 env ctx t ctx.requestedAddress st =
          .ok (lease, old) st' → offerRequested env ctx s st = .ok (lease, old, t) st' := by
  have hself := s.self_mem_walkFor ctx.classes
  unfold offerRequested
  split
  · exact .inl ⟨s, hself, rfl⟩
  cases hallowed : inAllowedPool ctx s ctx.requestedAddress with
  | none => exact .inl ⟨s, hself, rfl⟩
  | some t =>
    cases hres : addressReserved env ctx t ctx.requestedAddress with
    | true => exact .inl ⟨t, (inAllowedPool_some hallowed).1, by simp [hres]⟩
    | false =>
      refine .inr ⟨t, rfl, hres, fun lease old st' hrun => ?_⟩
      simp [hres, run_map, hrun]

section

variable (hfake : ctx.fakeAllocation = true)
include hfake

/-- An address that is only offered changes nothing. -/
theorem allocateOrReuseLease4_fake (env : Env) (t : SubnetPtr 32) (addr : Address 32) (st : Server4) :
    ∃ lease old st', allocateOrReuseLease4 env ctx t addr st = .ok (lease, old) st' ∧
      Unchanged4 st st' ∧ ∀ n, lease = some n → n.addr = addr ∧ n.subnetId = t.getID := by
  rcases allocateOrReuseLease4_run env ctx t addr st with hrun | ⟨n, old, st₁, hrun, hplaced⟩
  · exact ⟨none, none, st, hrun, .refl st, by simp⟩
  · refine ⟨some n, old, st₁, hrun, hplaced.unchanged_of_fake hfake, ?_⟩
    rintro n' ⟨⟩
    exact ⟨hplaced.addr_eq, hplaced.subnetId_eq⟩

/-- The hint leads to a lease for it from a pool, or to nothing; an offer changes nothing. -/
theorem offerRequested_run :
    ∃ lease old t st', offerRequested env ctx s st = .ok (lease, old, t) st' ∧
      t ∈ s.walkFor ctx.classes ∧ Unchanged4 st st' ∧ ∀ n, lease = some n →
        n.subnetId = t.getID ∧ t.subnet.inPoolFor .v4 n.addr ctx.classes ∧
        addressReserved env ctx t n.addr = false := by
  rcases offerRequested_cases env ctx s st with ⟨t, ht, hnone⟩ | ⟨t, hallowed, hres, hrest⟩
  · exact ⟨none, none, t, st, hnone, ht, .refl st, by simp⟩
  obtain ⟨ht, hpool⟩ := inAllowedPool_some hallowed
  obtain ⟨lease, old, st₁, hrun, hsame, hlease⟩ :=
    allocateOrReuseLease4_fake hfake env t ctx.requestedAddress st
  refine ⟨lease, old, t, st₁, hrest _ _ _ hrun, ht, hsame, fun n hn => ?_⟩
  obtain ⟨haddr, hsubnet⟩ := hlease n hn
  rw [haddr]
  exact ⟨hsubnet, hpool, hres⟩

section

variable (ht : t ∈ s.siblings) (hsame : Unchanged4 st st')

include ht hsame

theorem offerUnreserved_run : Offered4 env ctx s st (allocateUnreservedLease4 env ctx t st') := by
  obtain ⟨r, st₂, hrun, hsearch⟩ := allocateUnreservedLease4_run
  rw [hrun]
  rcases hsearch with ⟨hnew, hsame'⟩ | ⟨lease, preferred, v, hnew, hpref, -, hv, hpool, hres, hplaced⟩
  · exact ⟨hsame.trans hsame', by simp [hnew]⟩
  refine ⟨hsame.trans (hplaced.unchanged_of_fake hfake), ?_⟩
  intro lease' hlease'
  obtain rfl : lease = lease' := by simpa [hnew] using hlease'
  have hvs : v ∈ s.siblings := sibling_trans (sibling_trans ht hpref) (sibling_of_mem_walkFor hv)
  exact ⟨v, hplaced.subnetId_eq, .pool hvs hpool hres⟩

theorem offerOther_run : Offered4 env ctx s st (offerOther env ctx t st') := by
  obtain ⟨lease, old, u, st₁, hrun, hu, hsame₁, hlease⟩ := offerRequested_run hfake
  have hus : u ∈ s.siblings := sibling_trans ht (sibling_of_mem_walkFor hu)
  rw [offerOther, run_bind_ok hrun]
  cases lease with
  | none => exact offerUnreserved_run hfake hus (hsame.trans hsame₁)
  | some n =>
    obtain ⟨hsub, hpool, hres⟩ := hlease n rfl
    refine ⟨hsame.trans hsame₁, ?_⟩
    intro n' hn'
    obtain rfl : n = n' := by simpa using hn'
    exact ⟨u, hsub, .pool hus hpool hres⟩

theorem offerExisting_run : Offered4 env ctx s st (offerExisting env ctx t clientLease st') := by
  cases clientLease with
  | none => exact offerOther_run hfake ht hsame
  | some l =>
    simp only [offerExisting]
    cases hallowed : inAllowedPool ctx t l.addr with
    | none => exact offerOther_run hfake ht hsame
    | some u =>
      obtain ⟨hu, hpool⟩ := inAllowedPool_some hallowed
      have hus : u ∈ s.siblings := sibling_trans ht (sibling_of_mem_walkFor hu)
      cases hres : addressReserved env ctx u l.addr with
      | true =>
        simp only [hres]
        exact offerOther_run hfake hus hsame
      | false =>
        have hrun : (renewLease4 env ctx u l >>= fun lease => pure
            { newLease := some lease, oldLease := some l, subnet := u : Allocation4 }) st' = _ :=
          run_bind_ok (renewLease4_fake hfake) _
        simp only [hres, Bool.false_eq_true, if_false, hrun]
        refine ⟨hsame, ?_⟩
        intro n hn
        obtain rfl : updateLease4Information env ctx u l = n := by simpa using hn
        exact ⟨u, rfl, .pool hus hpool hres⟩

end

theorem offerReserved_run :
    (offerReserved env ctx t clientLease st = .error .nullPointer st) ∨
    ∃ addr lease old st', ctx.reservedAddress t = .ok addr ∧
      offerReserved env ctx t clientLease st = .ok (lease, old) st' ∧ Unchanged4 st st' ∧
      ∀ n, lease = some n → n.addr = addr ∧ n.subnetId = t.getID := by
  cases hhost : ctx.currentHost t with
  | none =>
    simp [offerReserved, reservedAddress, hhost]
  | some h =>
    right
    have haddr : ctx.reservedAddress t = .ok h.ipv4Reservation := by
      simp [reservedAddress, hhost]
    -- Without a lease on the reserved address, the address is allocated.
    obtain ⟨lease, old, st', hrun, hsame, hn⟩ :=
      allocateOrReuseLease4_fake hfake env t h.ipv4Reservation st
    cases clientLease with
    | none =>
      refine ⟨_, lease, old, st', haddr, ?_, hsame, hn⟩
      simp [offerReserved, haddr, hrun]
    | some l =>
      by_cases hl : l.addr = h.ipv4Reservation
      · refine ⟨_, some (updateLease4Information env ctx t l), some l, st, haddr, ?_, .refl st, ?_⟩
        · simp [offerReserved, haddr, hl, run_map, renewLease4_fake hfake]
        · rintro n ⟨⟩
          exact ⟨hl, rfl⟩
      · refine ⟨_, lease, old, st', haddr, ?_, hsame, hn⟩
        simp [offerReserved, haddr, hl, hrun]

end

theorem offerAny_run (env : Env) (hfake : ctx.fakeAllocation = true) {u : SubnetPtr 32}
    (hu : u ∈ s.walkFor ctx.classes) (clientLease : Option Lease4) (st : Server4) :
    Offered4 env ctx s st (offerAny env ctx u clientLease st) := by
  have ht := sibling_trans (sibling_of_mem_walkFor hu)
    (sibling_of_mem_walkFor (hasAddressReservation_subnet_mem ctx u))
  rcases hres : hasAddressReservation ctx u with ⟨reserved, t⟩
  rw [hres] at ht
  unfold offerAny
  rw [hres]
  cases reserved with
  | false => exact offerExisting_run hfake ht (.refl st)
  | true =>
    dsimp only
    rcases offerReserved_run hfake with hnull | hoffer
    · rw [run_bind, hnull]
      exact ⟨rfl, .refl st⟩
    obtain ⟨addr, lease, old, st', haddr, hrun, hsame, hn⟩ := hoffer
    rw [run_bind_ok hrun]
    cases lease with
    | none => exact offerExisting_run hfake ht hsame
    | some n =>
      obtain ⟨rfl, hsub⟩ := hn n rfl
      refine ⟨hsame, ?_⟩
      rintro n' ⟨⟩
      exact ⟨t, hsub, .reserved u hu hres haddr⟩

/-- **Everything that a discovery can offer.** -/
theorem discoverLease4_offer (env : Env) (s : SubnetPtr 32) (hfake : ctx.fakeAllocation = true)
    (st : Server4) : Offered4 env ctx s st (discoverLease4 env ctx s st) := by
  have hoffer := offerAny_run env hfake (findClientLease_subnet_mem st.leases ctx s)
    (findClientLease st.leases ctx s).1 st
  unfold discoverLease4
  rw [run_bind_ok (run_get st)]
  dsimp only
  rw [run_bind]
  cases hrun : offerAny env ctx (findClientLease st.leases ctx s).2
      (findClientLease st.leases ctx s).1 st with
  | ok r st' | error e st' =>
    rw [hrun] at hoffer
    exact hoffer

end Dhcp
