import KeaDhcp.Properties.Candidates4
import KeaDhcp.Properties.Reservations4

/-!
# Addresses that are reserved for other clients

The engine compares an address with the reservations of the subnet in which it works at that moment.
A request does so before it moves on to the subnet of the address, and a renewal without a requested
address does not do so at all.
-/

namespace Dhcp

open Infra Engine4 SubnetPtr Sample ClientContext4 HostMgr List Option Except

variable {env : Env} {ctx : ClientContext4} {s t u v w c : SubnetPtr 32} {st st' : Server4}
variable {addr : Address 32} {db : Lease4Storage} {cl : Option Lease4} {l n : Lease4}

/-- The address is reserved in the subnet for a host that is not the client. -/
def ReservedForOther (env : Env) (ctx : ClientContext4) (id : SubnetID) (addr : Address 32) : Prop :=
  addr ≠ 0 ∧ ∃ h, env.hostMgr.Holds h ∧ h.ipv4SubnetId = id ∧ h.ipv4Reservation = addr ∧ ¬ctx.Owns h

/-- The lease is for an address that its subnet has reserved for another client. -/
abbrev Misplaced4 (env : Env) (ctx : ClientContext4) (n : Lease4) : Prop :=
  ReservedForOther env ctx n.subnetId n.addr

/-! ## The search -/

/-- The first candidate that can be used is reserved for another client. -/
def SearchOverlooks (env : Env) (ctx : ClientContext4) (st : Server4) (s : SubnetPtr 32) : Prop :=
  ∃ t x, firstUsable env ctx st.leases (candidatesFrom env ctx.classes s st.allocator) = some (t, x) ∧
    ReservedForOther env ctx t.getID x

theorem misplaced4_of_placed {old : Option Lease4} (h : Placed4 env ctx s addr st st' n old) :
    Misplaced4 env ctx n ↔ ReservedForOther env ctx s.getID addr := by
  rw [Misplaced4, h.subnetId_eq, h.addr_eq]

theorem search_overlooks_iff :
    Returns4 (Misplaced4 env ctx) (allocateUnreservedLease4 env ctx s st) ↔
      SearchOverlooks env ctx st s := by
  obtain ⟨r, st', hrun, hleased⟩ := allocateUnreservedLease4_first
  rw [hrun, SearchOverlooks]
  cases hfirst : firstUsable env ctx st.leases (candidatesFrom env ctx.classes s st.allocator) with
  | none =>
    rw [hfirst] at hleased
    exact iff_of_false (not_returns4_none hleased.1) (by simp)
  | some candidate =>
    rw [hfirst] at hleased
    obtain ⟨lease, hnew, hplaced⟩ := hleased
    rw [returns4_ok_iff hnew, misplaced4_of_placed hplaced]
    constructor
    · exact fun h => ⟨candidate.1, candidate.2, rfl, h⟩
    · rintro ⟨t, x, ⟨⟩, h⟩
      exact h

/-! ## Offers -/

/--
The address that the client asks for is reserved for another client in the subnet `t` with a pool
for it, unseen by `addressReserved` there; or the same of a candidate.
-/
def AskedOverlooks (env : Env) (ctx : ClientContext4) (st : Server4) (s : SubnetPtr 32) : Prop :=
  if ctx.requestedAddress = 0 then SearchOverlooks env ctx st s
  else
    match inAllowedPool ctx s ctx.requestedAddress with
    | none => SearchOverlooks env ctx st s
    | some t =>
      if Usable env ctx t st.leases ctx.requestedAddress then
        ReservedForOther env ctx t.getID ctx.requestedAddress
      else SearchOverlooks env ctx st t

/-- The same of the address that the client has, if there is a pool for it. -/
def AgainOverlooks (env : Env) (ctx : ClientContext4) (st : Server4) (s : SubnetPtr 32)
    (cl : Option Lease4) : Prop :=
  match cl.bind fun l => (inAllowedPool ctx s l.addr).map fun t => (l.addr, t) with
  | none => AskedOverlooks env ctx st s
  | some (addr, t) =>
    if addressReserved env ctx t addr then AskedOverlooks env ctx st t
    else ReservedForOther env ctx t.getID addr

/-- The client's reserved address can be offered to it: the client has it, or nobody does. -/
def Offerable (env : Env) (db : Lease4Storage) (cl : Option Lease4) (addr : Address 32) : Prop :=
  notInUse env db addr ∨ ∃ l ∈ cl, l.addr = addr

/--
An offer of an address reserved for another client: the client's reserved address, the one it has,
the one it asks for, or a candidate, in this order.
-/
def OfferOverlooks (env : Env) (ctx : ClientContext4) (st : Server4) (s : SubnetPtr 32)
    (cl : Option Lease4) : Prop :=
  match hasAddressReservation ctx s with
  | (true, t) => ∃ addr, ctx.reservedAddress t = .ok addr ∧
      (Offerable env st.leases cl addr ∧ ReservedForOther env ctx t.getID addr ∨
        ¬Offerable env st.leases cl addr ∧ AgainOverlooks env ctx st t cl)
  | (false, t) => AgainOverlooks env ctx st t cl

theorem offerOther_overlooks_iff :
    Returns4 (Misplaced4 env ctx) (offerOther env ctx s st) ↔ AskedOverlooks env ctx st s := by
  unfold AskedOverlooks
  -- Nothing is offered for the request: the search decides, in the subnet `t`.
  have hrest : ∀ t, offerRequested env ctx s st = .ok (none, none, t) st →
      (Returns4 (Misplaced4 env ctx) (offerOther env ctx s st) ↔ SearchOverlooks env ctx st t) := by
    intro t hrun
    rw [offerOther, run_bind_ok hrun]
    exact search_overlooks_iff
  split
  · rename_i hzero
    exact hrest s (by simp [offerRequested, hzero])
  rename_i hne
  cases hpool : inAllowedPool ctx s ctx.requestedAddress with
  | none => exact hrest s (by rw [offerRequested, if_neg hne, hpool]; rfl)
  | some t =>
    have halloc : ∀ lease old st', addressReserved env ctx t ctx.requestedAddress = false →
        allocateOrReuseLease4 env ctx t ctx.requestedAddress st = .ok (lease, old) st' →
        offerRequested env ctx s st = .ok (lease, old, t) st' := by
      intro lease old st' hres hrun
      rw [offerRequested, if_neg hne, hpool]
      simp [hres, run_map, hrun]
    dsimp only
    split
    · rename_i husable
      obtain ⟨lease, old, st', hrun, hplaced⟩ := allocateOrReuseLease4_free ctx t husable.2
      rw [offerOther, run_bind_ok (halloc _ _ _ husable.1 hrun)]
      exact (returns4_ok_iff rfl).trans (misplaced4_of_placed hplaced)
    · rename_i hnot
      refine hrest t ?_
      cases hres : addressReserved env ctx t ctx.requestedAddress with
      | true =>
        rw [offerRequested, if_neg hne, hpool]
        simp [hres]
      | false =>
        have hused : notInUse env st.leases ctx.requestedAddress = false := by
          simpa [Usable, hres] using hnot
        exact halloc _ _ _ hres (allocateOrReuseLease4_inUse hused)

section

variable (hfake : ctx.fakeAllocation = true)

include hfake

theorem offerExisting_overlooks_iff :
    Returns4 (Misplaced4 env ctx) (offerExisting env ctx s cl st) ↔ AgainOverlooks env ctx st s cl := by
  unfold AgainOverlooks
  cases cl with
  | none => exact offerOther_overlooks_iff
  | some l =>
    rw [offerExisting]
    cases hpool : inAllowedPool ctx s l.addr with
    | none => simpa [hpool] using offerOther_overlooks_iff
    | some t =>
      simp only [bind_some, hpool, map_some]
      split
      · exact offerOther_overlooks_iff
      · rw [run_bind_ok (renewLease4_fake hfake)]
        exact returns4_ok_iff (r := ⟨some _, some l, some t⟩) rfl

theorem offerReserved_of_offerable (haddr : ctx.reservedAddress t = .ok addr)
    (h : Offerable env st.leases cl addr) :
    ∃ n old st', offerReserved env ctx t cl st = .ok (some n, old) st' ∧ n.addr = addr ∧
      n.subnetId = t.getID := by
  by_cases hown : ∃ l ∈ cl, l.addr = addr
  · obtain ⟨l, rfl, rfl⟩ := hown
    exact ⟨updateLease4Information env ctx t l, some l, st,
      by simp [offerReserved, haddr, run_map, renewLease4_fake hfake], rfl, rfl⟩
  obtain ⟨n, old, st', hrun, hplaced⟩ := allocateOrReuseLease4_free ctx t (h.resolve_right hown)
  refine ⟨n, old, st', ?_, hplaced.addr_eq, hplaced.subnetId_eq⟩
  cases cl with
  | none => simp [offerReserved, haddr, hrun]
  | some l =>
    have hne : l.addr ≠ addr := fun h => hown ⟨l, rfl, h⟩
    simp [offerReserved, haddr, hne, hrun]

omit hfake in
theorem offerReserved_of_not_offerable (haddr : ctx.reservedAddress t = .ok addr)
    (h : ¬Offerable env st.leases cl addr) :
    offerReserved env ctx t cl st = .ok (none, none) st := by
  have hused : notInUse env st.leases addr = false := Bool.of_not_eq_true fun hfree => h (.inl hfree)
  have hrun : allocateOrReuseLease4 env ctx t addr st = .ok (none, none) st :=
    allocateOrReuseLease4_inUse hused
  cases cl with
  | none => simp [offerReserved, haddr, hrun]
  | some l =>
    have hne : l.addr ≠ addr := fun hl => h (.inr ⟨l, rfl, hl⟩)
    simp [offerReserved, haddr, hne, hrun]

theorem offerAny_overlooks_iff :
    Returns4 (Misplaced4 env ctx) (offerAny env ctx s cl st) ↔ OfferOverlooks env ctx st s cl := by
  unfold offerAny OfferOverlooks
  rcases hasAddressReservation ctx s with ⟨_ | _, t⟩
  · exact offerExisting_overlooks_iff hfake
  dsimp only
  cases haddr : ctx.reservedAddress t with
  | error e =>
    have hrun : offerReserved env ctx t cl st = .error e st := by simp [offerReserved, haddr]
    rw [run_bind, hrun]
    simp [Returns4]
  | ok addr =>
    simp only [ok.injEq, exists_eq_left']
    by_cases hoffer : Offerable env st.leases cl addr
    · obtain ⟨n, old, st', hrun, hn, hsubnet⟩ := offerReserved_of_offerable hfake haddr hoffer
      rw [run_bind_ok hrun]
      refine (returns4_ok_iff (n := n) rfl).trans ?_
      simp [Misplaced4, hn, hsubnet, hoffer]
    · rw [run_bind_ok (offerReserved_of_not_offerable haddr hoffer)]
      simpa [hoffer] using offerExisting_overlooks_iff hfake

/-- **The offers of addresses that are reserved for others.** -/
theorem discoverLease4_overlooks_iff :
    Returns4 (Misplaced4 env ctx) (discoverLease4 env ctx s st) ↔
      OfferOverlooks env ctx st (findClientLease st.leases ctx s).2
        (findClientLease st.leases ctx s).1 := by
  rw [← offerAny_overlooks_iff hfake, discoverLease4, run_bind_ok (run_get st)]
  dsimp only
  rw [run_bind]
  cases offerAny env ctx (findClientLease st.leases ctx s).2
    (findClientLease st.leases ctx s).1 st <;> simp [Returns4]

end

/-! ## Requests -/

/--
The requests that give out an address reserved for another client. The engine begins in `c`, where
it found the client's lease `cl` or was to begin.
-/
inductive RequestOverlooks (env : Env) (ctx : ClientContext4) (st : Server4) (c : SubnetPtr 32)
    (cl : Option Lease4) : Prop
  /--
  The address is free and allocated in the subnet `t`. If it was requested, it was compared with
  the reservations of `c` before the engine moved to `t`.
  -/
  | allocates {t : SubnetPtr 32} {addr : Address 32} (hclear : Cleared4 env ctx st.leases c addr t)
      (hnew : ∀ l, cl = some l → l.addr ≠ addr) (hfree : notInUse env st.leases addr)
      (hother : ReservedForOther env ctx t.getID addr)
  /--
  The client's lease is renewed in the subnet `t`. Only a requested address was compared with
  reservations at all, with those of `c`.
  -/
  | renews {u t : SubnetPtr 32} {l : Lease4} {addr : Address 32} (hfound : cl = some l)
      (hclear : Cleared4 env ctx st.leases c addr u) (haddr : l.addr = addr ∨ addr = 0)
      (hsubnet : RenewedIn4 ctx u l.addr t) (hother : ReservedForOther env ctx t.getID l.addr)
  /-- No address was asked for, and the search overlooks the reservation. -/
  | picks {t : SubnetPtr 32} (hclear : Cleared4 env ctx st.leases c 0 t)
      (hstays : ∀ l, cl = some l → ∀ u, ¬RenewedIn4 ctx t l.addr u)
      (hsearch : SearchOverlooks env ctx st t)

/-- The lease stays the same when the client's other lease goes. -/
theorem returns4_removePrevious_iff {previous : Option Lease4} {r : Allocation4} {p : Lease4 → Prop} :
    Returns4 p (removePrevious previous r st) ↔ Returns4 p (.ok r st) := by
  cases hnew : r.newLease with
  | none => rw [removePrevious_none previous hnew]
  | some n =>
    obtain ⟨r', st', hrun, hnew', -, -⟩ := removePrevious_run previous hnew st
    rw [hrun, returns4_ok_iff hnew, returns4_ok_iff hnew']

section

variable {previous : Option Lease4}

theorem renew_returns (hreal : ctx.fakeAllocation = false) (hl : l ∈ st.leases) :
    Returns4 (Misplaced4 env ctx) ((do
      let lease ← renewLease4 env ctx t l
      return { newLease := some lease, oldLease := some l, subnet := t } : Engine4 Allocation4) st) ↔
      ReservedForOther env ctx t.getID l.addr := by
  rw [run_bind_ok (renewLease4_real env t hreal hl)]
  exact returns4_ok_iff (n := renewedLease4 env ctx t l) rfl

theorem allocate_returns :
    Returns4 (Misplaced4 env ctx) ((do
      let (lease, old) ← allocateOrReuseLease4 env ctx t addr
      removePrevious previous { newLease := lease, oldLease := old, subnet := t } :
        Engine4 Allocation4) st) ↔
      notInUse env st.leases addr ∧ ReservedForOther env ctx t.getID addr := by
  cases hfree : notInUse env st.leases addr with
  | true =>
    obtain ⟨n, old, st', hrun, hplaced⟩ := allocateOrReuseLease4_free ctx t hfree
    rw [run_bind_ok hrun, returns4_removePrevious_iff, returns4_ok_iff rfl,
      misplaced4_of_placed hplaced]
    simp
  | false =>
    rw [run_bind_ok (allocateOrReuseLease4_inUse hfree), returns4_removePrevious_iff]
    simp [Returns4]

theorem pick_returns :
    Returns4 (Misplaced4 env ctx) ((do
      let result ← allocateUnreservedLease4 env ctx t
      removePrevious previous result : Engine4 Allocation4) st) ↔ SearchOverlooks env ctx st t := by
  rw [← search_overlooks_iff, run_bind]
  obtain ⟨r, st', hrun, -⟩ := allocateUnreservedLease4_first
  rw [hrun]
  exact returns4_removePrevious_iff

end

/-- **The requests that give out addresses which are reserved for others.** -/
theorem requestLease4_overlooks_iff (hreal : ctx.fakeAllocation = false)
    (hfind : findClientLease st.leases ctx s = (cl, c)) :
    Returns4 (Misplaced4 env ctx) (requestLease4 env ctx s st) ↔ RequestOverlooks env ctx st c cl := by
  have hmem : ∀ l, cl = some l → l ∈ st.leases := by
    rintro l rfl
    exact (findClientLease_some (by rw [hfind])).1
  rw [requestLease4, run_bind_ok (run_get st)]
  constructor
  · intro h
    cases hplan : requestPlan env ctx st.leases s with
    | error e =>
      rw [hplan] at h
      exact h.elim
    | ok plan =>
      rw [hplan] at h
      cases plan with
      | refuse t => exact absurd h (not_returns4_none rfl)
      | renew l t =>
        obtain ⟨hfound, addr, u, hclear, haddr, hsubnet⟩ := (requestPlan_renew_iff hfind).mp hplan
        exact .renews hfound hclear haddr hsubnet ((renew_returns hreal (hmem l hfound)).mp h)
      | allocate addr t previous =>
        obtain ⟨-, -, hclear, hnew⟩ := (requestPlan_allocate_iff hfind).mp hplan
        obtain ⟨hfree, hother⟩ := allocate_returns.mp h
        exact .allocates hclear hnew hfree hother
      | pick t previous =>
        obtain ⟨-, hclear, hstays⟩ := (requestPlan_pick_iff hfind).mp hplan
        exact .picks hclear hstays (pick_returns.mp h)
  · intro h
    cases h with
    | @allocates t addr hclear hnew hfree hother =>
      rw [(requestPlan_allocate_iff hfind).mpr ⟨rfl, hother.1, hclear, hnew⟩]
      exact allocate_returns.mpr ⟨hfree, hother⟩
    | renews hfound hclear haddr hsubnet hother =>
      rw [(requestPlan_renew_iff hfind).mpr ⟨hfound, _, _, hclear, haddr, hsubnet⟩]
      exact (renew_returns hreal (hmem _ hfound)).mpr hother
    | picks hclear hstays hsearch =>
      rw [(requestPlan_pick_iff hfind).mpr ⟨rfl, hclear, hstays⟩]
      exact pick_returns.mpr hsearch

/-! ## Whole calls -/

/-- A call overlooks a reservation of another client. -/
def Overlooks4 (env : Env) (ctx : ClientContext4) (st : Server4) : Prop :=
  ctx.hwaddr.isSome ∧ ∃ s c cl, startSubnet ctx = some s ∧
    findClientLease st.leases ctx s = (cl, c) ∧
    if ctx.fakeAllocation then OfferOverlooks env ctx st c cl else RequestOverlooks env ctx st c cl

namespace Sample

/-- 10.0.0.11 is reserved for client 2, in subnet 2. -/
def reservedEnv : Env := envAt 50 (hostsOf (host4 2 2 0x0A00000B#32))

theorem reserved_for_other : ReservedForOther reservedEnv (client 1 0 false []) 2 0x0A00000B#32 := by
  refine ⟨by decide, host4 2 2 0x0A00000B#32, ⟨_, mem_cons_self, mem_cons_self⟩, rfl, rfl, ?_⟩
  unfold ClientContext4.Owns
  decide

end Sample

end Dhcp
