import KeaDhcp.Dhcp4.Exchange
import KeaDhcp.Properties.Candidates4

/-!
# Declined addresses

A lease in the declined state keeps its address out of use until its probation period ends. It is
an ordinary lease with blank identifiers, so a client with the blank hardware address is taken
for its owner.
-/

namespace Dhcp

open Infra Engine4 MultiIndex Option HWAddr EStateM.Result

variable {env : Env} {ctx : ClientContext4} {s : SubnetPtr 32} {st st' : Server4} {l : Lease4}

theorem notInUse_of_active (hl : l ∈ st.leases) (hactive : l.expired env.now = false) :
    notInUse env st.leases l.addr = false := by
  simp [notInUse, Lease4Storage.getLease4_of_mem hl, hactive]

variable {addr : Address 32}

theorem addr_ne_of_notInUse (hl : l ∈ st.leases) (hactive : l.expired env.now = false)
    (hfree : notInUse env st.leases addr) : addr ≠ l.addr := by
  rintro rfl
  rw [notInUse_of_active hl hactive] at hfree
  cases hfree

/-! ## Offers -/

/-- The client's lease is offered to it again, from subnet `t` on. -/
def OffersAgain (env : Env) (ctx : ClientContext4) (t : SubnetPtr 32) (l : Lease4) : Prop :=
  ∃ u, inAllowedPool ctx t l.addr = some u ∧ addressReserved env ctx u l.addr = false

/--
A discovery leads to the lease: it is the client's, and its address is the reserved one, or no other
reserved address can be offered and a pool for the client has it.
-/
def OffersFound (env : Env) (ctx : ClientContext4) (db : Lease4Storage) (s : SubnetPtr 32)
    (l : Lease4) : Prop :=
  (findClientLease db ctx s).1 = some l ∧
    match hasAddressReservation ctx (findClientLease db ctx s).2 with
    | (true, t) => ∃ addr, ctx.reservedAddress t = .ok addr ∧
        (l.addr = addr ∨ (notInUse env db addr = false ∧ OffersAgain env ctx t l))
    | (false, t) => OffersAgain env ctx t l

/-- The result is a lease for this address. -/
abbrev LeasesAddr (addr : Address 32) : EStateM.Result EngineError Server4 Allocation4 → Prop :=
  Returns4 (·.addr = addr)

variable {r : Allocation4}

/-- What a step returns is on a free address, and it leaves the database as it was. -/
def OnFree (env : Env) (st : Server4) (lease : Option Lease4) (st' : Server4) : Prop :=
  st'.leases = st.leases ∧ ∀ n, lease = some n → notInUse env st.leases n.addr

theorem OnFree.none (env : Env) (st : Server4) : OnFree env st none st := ⟨rfl, by simp⟩

theorem allocateOrReuseLease4_onFree (env : Env) (hfake : ctx.fakeAllocation = true)
    (s : SubnetPtr 32) (addr : Address 32) (st : Server4) :
    ∃ lease old st', allocateOrReuseLease4 env ctx s addr st = .ok (lease, old) st' ∧
      OnFree env st lease st' := by
  cases hfree : notInUse env st.leases addr with
  | true =>
    obtain ⟨n, old, st', hrun, hplaced⟩ := allocateOrReuseLease4_free ctx s hfree
    refine ⟨some n, old, st', hrun, (hplaced.unchanged_of_fake hfake).leases, ?_⟩
    rintro _ ⟨⟩
    rw [hplaced.addr_eq, hfree]
  | false => exact ⟨none, none, st, allocateOrReuseLease4_inUse hfree, .none env st⟩

theorem offerRequested_onFree (env : Env) (hfake : ctx.fakeAllocation = true) (s : SubnetPtr 32)
    (st : Server4) :
    ∃ lease old t st', offerRequested env ctx s st = .ok (lease, old, t) st' ∧
      OnFree env st lease st' := by
  rcases offerRequested_cases env ctx s st with ⟨t, -, hnone⟩ | ⟨t, -, -, hrest⟩
  · exact ⟨none, none, t, st, hnone, .none env st⟩
  · obtain ⟨lease, old, st', hrun, hfree⟩ :=
      allocateOrReuseLease4_onFree env hfake t ctx.requestedAddress st
    exact ⟨lease, old, t, st', hrest _ _ _ hrun, hfree⟩

theorem offerOther_onFree (hfake : ctx.fakeAllocation = true) :
    ∃ r st', offerOther env ctx s st = .ok r st' ∧
      ∀ n, r.newLease = some n → notInUse env st.leases n.addr := by
  obtain ⟨lease, old, t, st₁, hrun, hsame, hfree⟩ := offerRequested_onFree env hfake s st
  rw [offerOther, run_bind_ok hrun]
  cases lease with
  | some m => exact ⟨_, st₁, rfl, hfree⟩
  | none =>
    obtain ⟨r, st', hfound, hnew, -⟩ := allocateUnreservedLease4_found
    rw [hsame] at hnew
    exact ⟨r, st', hfound, hnew⟩

section Offers

variable (hl : l ∈ st.leases) (hactive : l.expired env.now = false)
  (hfake : ctx.fakeAllocation = true)
include hl hactive hfake

theorem not_leasesAddr_offerOther (t : SubnetPtr 32) :
    ¬LeasesAddr l.addr (offerOther env ctx t st) := by
  obtain ⟨r, st', hrun, hfree⟩ := offerOther_onFree hfake
  rw [hrun]
  rintro ⟨n, hnew, haddr⟩
  exact addr_ne_of_notInUse hl hactive (hfree n hnew) haddr

variable {found : Option Lease4}

/-- An offer of the client's lease `found` is an offer of `l` only if it is `l`. -/
theorem leasesAddr_offerExisting_iff (hfound : ∀ l', found = some l' → l' ∈ st.leases)
    (t : SubnetPtr 32) :
    LeasesAddr l.addr (offerExisting env ctx t found st) ↔
      found = some l ∧ OffersAgain env ctx t l := by
  have hother := not_leasesAddr_offerOther hl hactive hfake
  cases found with
  | none => simpa [offerExisting] using hother t
  | some l' =>
    have hsame : l'.addr = l.addr ↔ l' = l :=
      ⟨eq_of_key_eq (hfound l' rfl) hl, fun h => h ▸ rfl⟩
    simp only [offerExisting]
    cases hallowed : inAllowedPool ctx t l'.addr with
    | none =>
      refine iff_of_false (hother t) ?_
      rintro ⟨⟨⟩, u, hu, -⟩
      rw [hallowed] at hu
      cases hu
    | some u =>
      cases hres : addressReserved env ctx u l'.addr with
      | true =>
        refine iff_of_false (by simpa [hres] using hother u) ?_
        rintro ⟨⟨⟩, v, hv, hfree⟩
        rw [hallowed] at hv
        obtain rfl := some.inj hv
        rw [hres] at hfree
        cases hfree
      | false =>
        have hrun : (renewLease4 env ctx u l' >>= fun lease => pure
            { newLease := some lease, oldLease := some l', subnet := u : Allocation4 }) st = _ :=
          run_bind_ok (renewLease4_fake hfake) _
        simp only [hres, Bool.false_eq_true, if_false, hrun]
        refine (returns4_ok_iff rfl).trans ⟨fun haddr => ?_, ?_⟩
        · obtain rfl := hsame.mp haddr
          exact ⟨rfl, u, hallowed, hres⟩
        · rintro ⟨⟨⟩, -⟩
          rfl

/-- Through a reservation: the lease on the reserved address, or else the one in a pool. -/
theorem leasesAddr_reserved_iff (hfound : ∀ l', found = some l' → l' ∈ st.leases) {t : SubnetPtr 32} :
    LeasesAddr l.addr ((do
      match ← offerReserved env ctx t found with
      | (some lease, old) => return { newLease := some lease, oldLease := old, subnet := t }
      | (none, _) => offerExisting env ctx t found : Engine4 Allocation4) st) ↔
      found = some l ∧ ∃ addr, ctx.reservedAddress t = .ok addr ∧
        (l.addr = addr ∨ (notInUse env st.leases addr = false ∧ OffersAgain env ctx t l)) := by
  cases haddr : ctx.reservedAddress t with
  | error e =>
    have hrun : offerReserved env ctx t found st = .error e st := by simp [offerReserved, haddr]
    rw [run_bind, hrun]
    simp [Returns4]
  | ok addr =>
    -- The lease on the reserved address is not the client's: the address is offered if it is free.
    have hfresh : (∀ l', found = some l' → l'.addr ≠ addr) →
        offerReserved env ctx t found st = allocateOrReuseLease4 env ctx t addr st := by
      intro hne
      cases found with
      | none => simp [offerReserved, haddr]
      | some l' => simp [offerReserved, haddr, hne l' rfl]
    by_cases howner : ∃ l', found = some l' ∧ l'.addr = addr
    · obtain ⟨l', rfl, hl'⟩ := howner
      have hrun : offerReserved env ctx t (some l') st =
          .ok (some (updateLease4Information env ctx t l'), some l') st := by
        simp [offerReserved, haddr, hl', run_map, renewLease4_fake hfake]
      rw [run_bind_ok hrun]
      refine (returns4_ok_iff rfl).trans ⟨fun hn => ?_, ?_⟩
      · obtain rfl := eq_of_key_eq (hfound l' rfl) hl hn
        exact ⟨rfl, addr, rfl, .inl hl'⟩
      · rintro ⟨⟨⟩, -⟩
        rfl
    · have hnot : ∀ l', found = some l' → l'.addr ≠ addr := fun l' h h' => howner ⟨l', h, h'⟩
      cases hfree : notInUse env st.leases addr with
      | true =>
        obtain ⟨n, old, st', hrun, hplaced⟩ := allocateOrReuseLease4_free ctx t hfree
        rw [run_bind_ok ((hfresh hnot).trans hrun)]
        refine (returns4_ok_iff rfl).trans (iff_of_false ?_ ?_)
        · exact addr_ne_of_notInUse hl hactive (hplaced.addr_eq ▸ hfree)
        · rintro ⟨rfl, a, ⟨⟩, hsame | ⟨hused, -⟩⟩
          · exact hnot l rfl hsame
          · rw [hfree] at hused
            cases hused
      | false =>
        rw [run_bind_ok ((hfresh hnot).trans (allocateOrReuseLease4_inUse hfree))]
        refine (leasesAddr_offerExisting_iff hl hactive hfake hfound t).trans ?_
        refine and_congr_right fun hsome => ⟨fun h => ⟨addr, rfl, .inr ⟨hfree, h⟩⟩, ?_⟩
        rintro ⟨a, ⟨⟩, hsame | ⟨-, h⟩⟩
        · exact absurd hsame (hnot l hsome)
        · exact h

/-- **When a discovery leads to an offer of a lease's address.** -/
theorem leasesAddr_discoverLease4_iff :
    LeasesAddr l.addr (discoverLease4 env ctx s st) ↔ OffersFound env ctx st.leases s l := by
  have hfound : ∀ l', (findClientLease st.leases ctx s).1 = some l' → l' ∈ st.leases :=
    fun l' h => (findClientLease_some h).1
  have hany : LeasesAddr l.addr (discoverLease4 env ctx s st) ↔ LeasesAddr l.addr
      (offerAny env ctx (findClientLease st.leases ctx s).2 (findClientLease st.leases ctx s).1 st) := by
    unfold discoverLease4
    rw [run_bind_ok (run_get st)]
    dsimp only
    rw [run_bind]
    cases offerAny env ctx (findClientLease st.leases ctx s).2
        (findClientLease st.leases ctx s).1 st with
    | ok r st' | error e st' => simp [Returns4]
  rw [hany, OffersFound, offerAny]
  rcases hasAddressReservation ctx (findClientLease st.leases ctx s).2 with ⟨_ | _, t⟩
  · exact leasesAddr_offerExisting_iff hl hactive hfake hfound t
  · exact leasesAddr_reserved_iff hl hactive hfake hfound

end Offers

/-! ## Requests -/

/--
A request takes the lease that was found for the client: it passes the checks, and the lease is
renewed, or it goes for a lease on its address or on any address.
-/
inductive TakesFound (env : Env) (ctx : ClientContext4) (st : Server4) (s : SubnetPtr 32)
    (l : Lease4) : Prop
  | renews {c t u : SubnetPtr 32} {addr : Address 32}
      (hfind : findClientLease st.leases ctx s = (some l, c))
      (hclear : Cleared4 env ctx st.leases c addr t) (haddr : l.addr = addr ∨ addr = 0)
      (hsubnet : RenewedIn4 ctx t l.addr u)
  | replaces {c t : SubnetPtr 32} {addr : Address 32}
      (hfind : findClientLease st.leases ctx s = (some l, c)) (hne : addr ≠ 0)
      (hclear : Cleared4 env ctx st.leases c addr t) (hother : l.addr ≠ addr)
      (hfree : notInUse env st.leases addr)
  | picks {c t u : SubnetPtr 32} {x : Address 32}
      (hfind : findClientLease st.leases ctx s = (some l, c))
      (hclear : Cleared4 env ctx st.leases c 0 t) (hstays : ∀ v, ¬RenewedIn4 ctx t l.addr v)
      (hcandidate : (u, x) ∈ candidatesFrom env ctx.classes t st.allocator)
      (husable : Usable env ctx u st.leases x)

theorem TakesFound.found (h : TakesFound env ctx st s l) :
    (findClientLease st.leases ctx s).1 = some l := by
  cases h with
  | renews hfind | replaces hfind | picks hfind => rw [hfind]

/-- The three ways of `TakesFound` are the plans that touch the client's lease. -/
theorem takesFound_iff (hfound : (findClientLease st.leases ctx s).1 = some l) :
    TakesFound env ctx st s l ↔
      match requestPlan env ctx st.leases s with
      | .ok (.renew _ _) => True
      | .ok (.allocate addr _ _) => notInUse env st.leases addr
      | .ok (.pick t _) =>
        ∃ c ∈ candidatesFrom env ctx.classes t st.allocator, Usable env ctx c.1 st.leases c.2
      | _ => False := by
  rcases hfind : findClientLease st.leases ctx s with ⟨found, c⟩
  obtain rfl : found = some l := by simpa [hfind] using hfound
  constructor
  · rintro (⟨hfind', hclear, haddr, hsubnet⟩ | ⟨hfind', hne, hclear, hother, hfree⟩ |
      ⟨hfind', hclear, hstays, hcandidate, husable⟩)
    · rw [(requestPlan_renew_iff hfind').mpr ⟨rfl, _, _, hclear, haddr, hsubnet⟩]
      trivial
    · rw [(requestPlan_allocate_iff hfind').mpr ⟨rfl, hne, hclear, by simpa using hother⟩]
      exact hfree
    · rw [(requestPlan_pick_iff hfind').mpr ⟨rfl, hclear, by simpa using hstays⟩]
      exact ⟨_, hcandidate, husable⟩
  · intro h
    split at h
    · rename_i hplan
      obtain ⟨heq, addr, u, hclear, haddr, hsubnet⟩ := (requestPlan_renew_iff hfind).mp hplan
      obtain rfl := some.inj heq
      exact .renews hfind hclear haddr hsubnet
    · rename_i hplan
      obtain ⟨-, hne, hclear, hother⟩ := (requestPlan_allocate_iff hfind).mp hplan
      exact .replaces hfind hne hclear (hother l rfl) h
    · rename_i hplan
      obtain ⟨-, hclear, hstays⟩ := (requestPlan_pick_iff hfind).mp hplan
      obtain ⟨c, hcandidate, husable⟩ := h
      exact .picks hfind hclear (hstays l rfl) hcandidate husable
    · exact h.elim

/-- The lease is gone, and a lease in use has been returned. -/
def Lost (l : Lease4) (result : EStateM.Result EngineError Server4 Allocation4) : Prop :=
  ∃ r st' n, result = .ok r st' ∧ r.newLease = some n ∧ n.state = .default ∧ l ∉ st'.leases

variable {old : Option Lease4}

theorem Placed4.state_eq {lease : Lease4} (h : Placed4 env ctx s addr st st' lease old)
    (hreal : ctx.fakeAllocation = false) : lease.state = .default := by
  cases h with
  | created => rfl
  | reused => rfl
  | offered hfake => simp [hreal] at hfake

theorem Removed4.not_mem (h : Removed4 (some l) st st') : l ∉ st'.leases := by
  rw [h.1]
  intro hmem
  exact (mem_erase.mp hmem).2 rfl

theorem keepsLease_iff {x : Engine4 Allocation4} :
    KeepsLease l (x st) ↔
      Post x st (fun r st' => l ∈ st'.leases ∧ ∀ n, r.newLease = some n → n.addr ≠ l.addr)
        fun _ st' => l ∈ st'.leases := by
  unfold Post
  cases x st <;> rfl

theorem keepsLease_of_leases (hl : l ∈ st.leases) (hnew : r.newLease = none) :
    KeepsLease l (.ok r st) := ⟨hl, by simp [hnew]⟩

/-- The lease that is found for the client: renewed, removed, or left as it is. -/
theorem requestLease4_of_found (hl : l ∈ st.leases) (hactive : l.expired env.now = false)
    (hreal : ctx.fakeAllocation = false) (hstate : l.state ≠ .default)
    (hfound : (findClientLease st.leases ctx s).1 = some l) :
    (TakesFound env ctx st s l ∧ Lost l (requestLease4 env ctx s st)) ∨
      (¬TakesFound env ctx st s l ∧ KeepsLease l (requestLease4 env ctx s st)) := by
  rw [takesFound_iff hfound]
  unfold requestLease4
  rw [run_bind_ok (run_get st)]
  cases hplan : requestPlan env ctx st.leases s with
  | error e => exact .inr ⟨id, hl⟩
  | ok plan =>
    cases plan with
    | refuse t => exact .inr ⟨id, keepsLease_of_leases hl rfl⟩
    | renew l' t =>
      obtain rfl : l' = l := some.inj ((requestPlan_renew hplan).1.symm.trans hfound)
      have hrenew := renewLease4_real env t hreal hl
      have hfind : st.leases.find (lease4Spec.key (renewedLease4 env ctx t l')) = some l' :=
        find_eq_some_iff.mpr ⟨hl, rfl⟩
      refine .inl ⟨trivial, _, _, renewedLease4 env ctx t l', run_bind_ok hrenew _, rfl, rfl, ?_⟩
      intro hmem
      rcases (mem_replace hfind).mp hmem with heq | ⟨-, hne⟩
      · exact hstate (heq ▸ rfl)
      · exact hne rfl
    | allocate addr t previous =>
      obtain rfl : previous = some l := (requestPlan_allocate hplan).1.symm.trans hfound
      cases hfree : notInUse env st.leases addr with
      | true =>
        obtain ⟨n, old, st₁, hrun, hplaced⟩ := allocateOrReuseLease4_free ctx t hfree
        obtain ⟨r', st', hremove, hnew, -, hremoved⟩ := removePrevious_run (some l)
          (r := { newLease := some n, oldLease := old, subnet := t }) rfl st₁
        exact .inl ⟨hfree, r', st', n, (run_bind_ok hrun _).trans hremove, hnew,
          hplaced.state_eq hreal, hremoved.not_mem⟩
      | false =>
        refine .inr ⟨by simp [hfree], ?_⟩
        dsimp only
        rw [run_bind_ok (allocateOrReuseLease4_inUse hfree)]
        exact keepsLease_of_leases hl rfl
    | pick t previous =>
      obtain rfl : previous = some l := (requestPlan_pick hplan).1.symm.trans hfound
      obtain ⟨r, st₁, hrun, hsearch⟩ := allocateUnreservedLease4_run
      obtain ⟨_, _, hrun', -, hiff⟩ := allocateUnreservedLease4_found
      rw [hrun] at hrun'
      cases hrun'
      rcases hsearch with ⟨hnew, hsame⟩ | ⟨n, -, u, hnew, -, -, -, -, -, hplaced⟩
      · rw [hnew] at hiff
        refine .inr ⟨fun h => by simpa using hiff.mpr h, ?_⟩
        dsimp only
        rw [run_bind_ok hrun, removePrevious_none _ hnew]
        exact keepsLease_of_leases (hsame.leases ▸ hl) hnew
      · rw [hnew] at hiff
        obtain ⟨r', st', hremove, hnew', -, hremoved⟩ := removePrevious_run (some l) hnew st₁
        exact .inl ⟨hiff.mp rfl, r', st', n, (run_bind_ok hrun _).trans hremove, hnew',
          hplaced.state_eq hreal, hremoved.not_mem⟩

theorem requestLease4_takes_or_keeps (hl : l ∈ st.leases) (hactive : l.expired env.now = false)
    (hreal : ctx.fakeAllocation = false) (hstate : l.state ≠ .default) :
    (TakesFound env ctx st s l ∧ Lost l (requestLease4 env ctx s st)) ∨
      (¬TakesFound env ctx st s l ∧ KeepsLease l (requestLease4 env ctx s st)) := by
  by_cases hfound : (findClientLease st.leases ctx s).1 = some l
  · exact requestLease4_of_found hl hactive hreal hstate hfound
  · exact .inr ⟨fun h => hfound h.found,
      (requestLease4_outcome env s hreal st).keeps_active hreal hl hactive hfound⟩

/-! ## Whole messages -/

variable {x : Exchange4}

section Assign

variable {fake : Bool} {lease : Lease4}

theorem createNameChangeRequests_run :
    ∃ ncrs, createNameChangeRequests env lease old st = .ok () { st with ncrs := ncrs } := by
  unfold createNameChangeRequests
  cases old with
  | none => exact ⟨_, queueNCR_run env .add lease⟩
  | some o =>
    dsimp only
    split
    · exact ⟨st.ncrs, rfl⟩
    · exact ⟨_, rfl⟩

/-- The name was settled: in a real allocation the lease may have been given another one. -/
def NameSettled (fake : Bool) (lease : Lease4) (st st' : Server4) : Prop :=
  st'.leases = st.leases ∨
    (fake = false ∧ ∃ name, st'.leases = st.leases.replace { lease with hostname := name })

theorem settleName_real {name : String} {old : Lease4} {s : Option (SubnetPtr 32)}
    (hname : x.finalName env false s lease = some name)
    (hget : st.leases.getLease4 lease.addr = some old) :
    settleName env x false s lease st = .ok ({ lease with hostname := name }, x.name.rename name)
      { st with leases := st.leases.replace { lease with hostname := name } } := by
  have hupdate : updateLease4 { lease with hostname := name } st =
      .ok () { st with leases := st.leases.replace { lease with hostname := name } } :=
    updateLease4_run hget
  simp [settleName, hname, run_tryCatch, run_map, hupdate]

theorem settleName_run {s : Option (SubnetPtr 32)} :
    ∃ lease' name st', settleName env x fake s lease st = .ok (lease', name) st' ∧
      lease'.addr = lease.addr ∧ NameSettled fake lease st st' := by
  cases hname : x.finalName env fake s lease with
  | none => exact ⟨lease, x.name, st, by simp [settleName, hname], rfl, .inl rfl⟩
  | some name =>
    cases fake with
    | true =>
      refine ⟨{ lease with hostname := name }, x.name.rename name, st, ?_, rfl, .inl rfl⟩
      simp [settleName, hname, run_tryCatch]
    | false =>
      cases hget : st.leases.getLease4 lease.addr with
      | none =>
        refine ⟨{ lease with hostname := name }, x.name, st, ?_, rfl, .inl rfl⟩
        simp [settleName, hname, run_tryCatch, run_map, run_bind, updateLease4,
          Lease4Storage.updateLease4, hget]
      | some old => exact ⟨_, _, _, settleName_real hname hget, rfl, .inr ⟨rfl, name, rfl⟩⟩

theorem respond_run (env : Env) (fake : Bool) (x : Exchange4) (r : Allocation4) (st : Server4) :
    match r.newLease with
    | none => respond env fake x r st = .ok (some { type := .nak, yiaddr := 0, name := .absent }) st
    | some lease => ∃ name st', respond env fake x r st =
        .ok (some { type := if fake then .offer else .ack, yiaddr := lease.addr, name := name }) st' ∧
        NameSettled fake lease st st' := by
  unfold respond
  cases r.newLease with
  | none => rfl
  | some lease =>
    obtain ⟨lease', name, st', hsettle, haddr, hsettled⟩ :=
      settleName_run
    obtain ⟨ncrs, hncr⟩ := createNameChangeRequests_run
    dsimp only
    rw [run_bind_ok hsettle, ← haddr]
    split
    · rw [run_bind_ok hncr]
      exact ⟨name, _, rfl, hsettled⟩
    · exact ⟨name, st', rfl, hsettled⟩

theorem assignLease_of_check (env : Env) {s₀ : SubnetPtr 32} (hsubnet : x.subnet = some s₀)
    (hcheck : x.check fake st.leases s₀ = .proceed) :
    assignLease env fake x st =
      (allocateLease4 env (x.context fake) >>= respond env fake x) st := by
  unfold assignLease
  rw [hsubnet]
  dsimp only
  rw [run_bind_ok (run_get st), hcheck]

theorem assignLease_of_not_check
    (h : ∀ s₀, x.subnet = some s₀ → x.check fake st.leases s₀ ≠ .proceed) :
    ∃ response, assignLease env fake x st = .ok response st ∧
      ∀ r, response = some r → r.type = .nak := by
  unfold assignLease
  cases hsubnet : x.subnet with
  | none => exact ⟨_, rfl, by simp⟩
  | some s₀ =>
    have hnot := h s₀ hsubnet
    dsimp only
    rw [run_bind_ok (run_get st)]
    cases hcheck : x.check fake st.leases s₀ with
    | ignore | refuse => exact ⟨_, rfl, by simp⟩
    | proceed => exact absurd hcheck hnot

end Assign

/-! ## The quarantine -/

/-- The message leaves the lease as it is, and the response does not give its address. -/
structure Quarantined (env : Env) (msg : Message4) (l : Lease4) (st : Server4) : Prop where
  kept : l ∈ (after (handle4 env msg) st).leases
  notGiven : ∀ r st', handle4 env msg st = .ok (some r) st' → r.type ≠ .nak → r.yiaddr ≠ l.addr

theorem quarantined_iff {msg : Message4} :
    Quarantined env msg l st ↔ Post (handle4 env msg) st
      (fun response st' => l ∈ st'.leases ∧
        ∀ r, response = some r → r.type ≠ .nak → r.yiaddr ≠ l.addr)
      fun _ st' => l ∈ st'.leases := by
  refine ⟨fun h => ?_, fun h => ⟨(h.imp fun _ _ h => h.1).after, ?_⟩⟩
  · have hkept : EndsIn (handle4 env msg) st (l ∈ ·.leases) := Post.iff_after.mpr h.kept
    refine .intro (fun _ st' hrun => ⟨hkept.ok hrun, fun r hr => ?_⟩) fun _ _ => hkept.error
    exact h.notGiven r st' (hr ▸ hrun)
  · exact fun r st' hrun => (h.ok hrun).2 r rfl

/--
The message gets at the lease. The sender of a release or a decline names its address and is taken
for its owner; a client that it is found for is offered it, renews it or gets another for it.
-/
def Exposes (env : Env) (st : Server4) (l : Lease4) : Message4 → Prop
  | .discover x => x.sane ∧ l.addr ≠ 0 ∧ x.hwaddr.isSome ∧
      ∃ s, startSubnet (x.context true) = some s ∧ OffersFound env (x.context true) st.leases s l
  | .request x => x.hwaddr.isSome ∧
      (∃ s₀, x.subnet = some s₀ ∧ x.check false st.leases s₀ = .proceed) ∧
      ∃ s, startSubnet (x.context false) = some s ∧ TakesFound env (x.context false) st s l
  | .release m => m.addr = l.addr ∧ l.belongsToClient m.hwaddr m.clientId
  | .decline period m => m.addr = l.addr ∧ l.belongsToClient m.hwaddr m.clientId ∧
      l.decline env.now period ≠ l

variable {m : ClientMessage4}

theorem ownLease_eq_iff (hl : l ∈ st.leases) :
    m.ownLease st.leases = some l ↔ m.addr = l.addr ∧ l.belongsToClient m.hwaddr m.clientId := by
  rw [ClientMessage4.ownLease, filter_eq_some_iff]
  refine and_congr_left fun _ => ⟨fun h => (Lease4Storage.mem_of_getLease4 h).2.symm, fun h => ?_⟩
  rw [h]
  exact Lease4Storage.getLease4_of_mem hl

theorem release_quarantine_iff (hl : l ∈ st.leases) :
    Quarantined env (.release m) l st ↔ ¬Exposes env st l (.release m) := by
  rw [Exposes, ← ownLease_eq_iff hl]
  cases hown : m.ownLease st.leases with
  | none =>
    have hrun : handle4 env (.release m) st = .ok none st := run_bind_ok (processRelease_none hown) _
    simp [quarantined_iff, Post, hrun, hl]
  | some l' =>
    have hrun : handle4 env (.release m) st = .ok none _ := run_bind_ok (processRelease_some hown) _
    rw [quarantined_iff, Post, hrun]
    constructor
    · rintro ⟨hkept, -⟩ ⟨⟩
      exact (mem_erase.mp hkept).2 rfl
    · intro hne
      refine ⟨mem_erase.mpr ⟨hl, fun haddr => hne ?_⟩, by simp⟩
      rw [eq_of_key_eq hl (ownLease_spec hown).1 haddr]

theorem decline_quarantine_iff (hl : l ∈ st.leases) {period : Nat} :
    Quarantined env (.decline period m) l st ↔ ¬Exposes env st l (.decline period m) := by
  rw [Exposes, ← and_assoc, ← ownLease_eq_iff hl]
  cases hown : m.ownLease st.leases with
  | none =>
    have hrun : handle4 env (.decline period m) st = .ok none st :=
      run_bind_ok (processDecline_none hown) _
    simp [quarantined_iff, Post, hrun, hl]
  | some l' =>
    have hl' := (ownLease_spec hown).1
    have hrun : handle4 env (.decline period m) st = .ok none _ :=
      run_bind_ok (processDecline_some hown) _
    have hfind : st.leases.find (lease4Spec.key (l'.decline env.now period)) = some l' :=
      find_eq_some_iff.mpr ⟨hl', rfl⟩
    rw [quarantined_iff, Post, hrun]
    constructor
    · rintro ⟨hkept, -⟩ ⟨⟨⟩, hchanged⟩
      rcases (mem_replace hfind).mp hkept with heq | ⟨-, hne⟩
      · exact hchanged heq.symm
      · exact hne rfl
    · intro hnot
      refine ⟨(mem_replace hfind).mpr ?_, by simp⟩
      by_cases haddr : l.addr = l'.addr
      · obtain rfl := eq_of_key_eq hl hl' haddr
        exact .inl (by_contra fun hne => hnot ⟨rfl, fun h => hne h.symm⟩)
      · exact .inr ⟨hl, haddr⟩

/-! ### Discoveries -/

theorem discover_check (x : Exchange4) (db : Lease4Storage) (s : SubnetPtr 32) :
    x.check true db s = .proceed := rfl

/-- A discovery does not change the database, and its response gives exactly the engine's address. -/
theorem discover_post (addr : Address 32) : Post (handle4 env (.discover x)) st
    (fun response st' => st'.leases = st.leases ∧
      ((∃ r, response = some r ∧ r.type ≠ .nak ∧ r.yiaddr = addr) ↔
        x.sane ∧ addr ≠ 0 ∧ LeasesAddr addr (allocateLease4 env (x.context true) st)))
    fun _ st' => st'.leases = st.leases ∧
      ¬LeasesAddr addr (allocateLease4 env (x.context true) st) := by
  show Post (processDiscover env x) st _ _
  unfold processDiscover
  by_cases hsane : x.sane
  · simp only [hsane, Bool.not_true, Bool.false_eq_true, if_false, true_and]
    cases hsubnet : x.subnet with
    | none =>
      have hstart : startSubnet (x.context true) = none := by
        simp [startSubnet, Exchange4.context, hsubnet]
      have hassign : assignLease env true x st =
          .ok (some { type := .nak, yiaddr := 0, name := x.name }) st := by
        simp [assignLease, hsubnet]
      rw [allocateLease4_no_subnet hstart]
      refine .step hassign (.pure ⟨rfl, ?_⟩)
      simp [Returns4, noLease4]
    | some s₀ =>
      have hassign := assignLease_of_check env hsubnet (discover_check x st.leases s₀)
      have hfake : (x.context true).fakeAllocation = true := rfl
      have hsame := unchanged_of_fake env hfake st
      refine .bind ?_
      rw [Post, hassign, run_bind]
      rw [after] at hsame
      cases hrun : allocateLease4 env (x.context true) st with
      | error e st₁ =>
        rw [hrun] at hsame
        exact ⟨hsame.leases, by simp [Returns4]⟩
      | ok r st₁ =>
        rw [hrun] at hsame
        have hrespond := respond_run env true x r st₁
        cases hnew : r.newLease with
        | none =>
          rw [hnew] at hrespond
          simp only [hrespond]
          refine .pure ⟨hsame.leases, ?_⟩
          simp [Returns4, hnew]
        | some lease =>
          rw [hnew] at hrespond
          obtain ⟨name, st', hr, hleases | ⟨hreal, -⟩⟩ := hrespond
          · simp only [hr, returns4_ok_iff hnew]
            refine .pure ⟨hleases.trans hsame.leases, ?_⟩
            constructor
            · rintro ⟨r', hfilter, -, hyiaddr⟩
              obtain ⟨hsome, hzero⟩ := filter_eq_some_iff.mp hfilter
              obtain rfl := some.inj hsome
              exact ⟨hyiaddr ▸ by simpa using hzero, hyiaddr⟩
            · rintro ⟨hzero, rfl⟩
              exact ⟨_, filter_eq_some_iff.mpr ⟨rfl, by simpa using hzero⟩, by simp, rfl⟩
          · cases hreal
  · simp only [hsane]
    exact .pure ⟨rfl, by simp⟩

section

variable (hl : l ∈ st.leases) (hactive : l.expired env.now = false)
include hl hactive

theorem discover_quarantine_iff :
    Quarantined env (.discover x) l st ↔ ¬Exposes env st l (.discover x) := by
  have hfake : (x.context true).fakeAllocation = true := rfl
  have hexposes : Exposes env st l (.discover x) ↔ x.sane ∧ l.addr ≠ 0 ∧
      LeasesAddr l.addr (allocateLease4 env (x.context true) st) := by
    rw [LeasesAddr, returns4_allocateLease4_iff]
    simp only [hfake, if_true, leasesAddr_discoverLease4_iff hl hactive hfake]
    rfl
  rw [quarantined_iff, hexposes]
  have hpost : Post (handle4 env (.discover x)) st _ _ := discover_post l.addr
  cases hrun : handle4 env (.discover x) st with
  | error e st' =>
    obtain ⟨hleases, hnot⟩ := hpost.error hrun
    exact iff_of_true (.of_error hrun (hleases ▸ hl)) fun h => hnot h.2.2
  | ok response st' =>
    obtain ⟨hleases, hgives⟩ := hpost.ok hrun
    rw [← hgives, Post, hrun]
    simp [hleases, hl]

/-! ### Requests -/

/-- The allocation takes the lease, or leaves it and gives another address. -/
theorem allocateLease4_takes_or_keeps
    (hreal : ctx.fakeAllocation = false) (hstate : l.state ≠ .default) :
    ((ctx.hwaddr.isSome ∧ ∃ s, startSubnet ctx = some s ∧ TakesFound env ctx st s l) ∧
        Lost l (allocateLease4 env ctx st)) ∨
      (¬(ctx.hwaddr.isSome ∧ ∃ s, startSubnet ctx = some s ∧ TakesFound env ctx st s l) ∧
        KeepsLease l (allocateLease4 env ctx st)) := by
  unfold allocateLease4
  cases hstart : startSubnet ctx with
  | none => exact .inr ⟨by simp, keepsLease_of_leases hl rfl⟩
  | some s =>
    cases hhw : ctx.hwaddr with
    | none => exact .inr ⟨by simp, keepsLease_of_leases hl rfl⟩
    | some hw =>
      simp only [hreal, Bool.false_eq_true, if_false, isSome_some, some.injEq, true_and,
        exists_eq_left']
      refine (requestLease4_takes_or_keeps hl hactive hreal hstate).imp (And.imp_right ?_)
        (And.imp_right ?_)
      · rintro ⟨r, st', n, hrun, hnew, hn, hgone⟩
        exact ⟨r, st', n, by rw [run_tryCatch, hrun], hnew, hn, hgone⟩
      refine fun hkeep => keepsLease_iff.mpr (.tryCatch ((keepsLease_iff.mp hkeep).mono
        (fun _ _ h => h) fun e st' hkept => ?_))
      split
      · exact .of_error (run_throw e st') hkept
      · exact .pure ⟨hkept, by simp [noLease4]⟩

omit hactive in
/-- A request leaves a lease alone if the allocation does. -/
theorem request_quarantined
    (hkeep : (∃ s₀, x.subnet = some s₀ ∧ x.check false st.leases s₀ = .proceed) →
      KeepsLease l (allocateLease4 env (x.context false) st)) :
    Quarantined env (.request x) l st := by
  rw [quarantined_iff]
  show Post (assignLease env false x) st _ _
  by_cases hcheck : ∃ s₀, x.subnet = some s₀ ∧ x.check false st.leases s₀ = .proceed
  · have hkeep := keepsLease_iff.mp (hkeep hcheck)
    obtain ⟨s₀, hsubnet, hproceed⟩ := hcheck
    rw [Post, assignLease_of_check env hsubnet hproceed]
    refine Post.seq hkeep ?_
    rintro r st₁ ⟨hmem, hne⟩
    have hrespond := respond_run env false x r st₁
    cases hnew : r.newLease with
    | none =>
      rw [hnew] at hrespond
      exact .of_ok hrespond ⟨hmem, by simp⟩
    | some lease =>
      rw [hnew] at hrespond
      have hne := hne lease hnew
      obtain ⟨name, st', hr, hsettled⟩ := hrespond
      refine .of_ok hr ⟨?_, ?_⟩
      · rcases hsettled with hleases | ⟨-, hostname, hleases⟩
        · exact hleases ▸ hmem
        rw [hleases]
        exact mem_replace_of_ne hmem hne.symm
      · rintro _ ⟨⟩ -
        exact hne
  · obtain ⟨response, hrun, hnak⟩ := assignLease_of_not_check
      fun s₀ hsubnet hproceed => hcheck ⟨s₀, hsubnet, hproceed⟩
    exact .of_ok hrun ⟨hl, fun r hr htype => absurd (hnak r hr) htype⟩

theorem request_quarantine_iff (hstate : l.state ≠ .default) :
    Quarantined env (.request x) l st ↔ ¬Exposes env st l (.request x) := by
  have hhandle : handle4 env (.request x) = assignLease env false x := rfl
  by_cases hcheck : ∃ s₀, x.subnet = some s₀ ∧ x.check false st.leases s₀ = .proceed
  · obtain ⟨s₀, hsubnet, hproceed⟩ := hcheck
    have hassign := assignLease_of_check env hsubnet hproceed
    have hexposes : Exposes env st l (.request x) ↔ ((x.context false).hwaddr.isSome ∧
        ∃ s, startSubnet (x.context false) = some s ∧ TakesFound env (x.context false) st s l) :=
      ⟨fun h => ⟨h.1, h.2.2⟩, fun h => ⟨h.1, ⟨s₀, hsubnet, hproceed⟩, h.2⟩⟩
    rw [hexposes]
    have hreal : (x.context false).fakeAllocation = false := rfl
    rcases allocateLease4_takes_or_keeps hl hactive hreal hstate with
      ⟨htakes, r, st₁, n, hrun, hnew, hn, hgone⟩ | ⟨hnot, hkeep⟩
    · refine iff_of_false ?_ (not_not.mpr htakes)
      rintro ⟨hkept, -⟩
      have hrespond := respond_run env false x r st₁
      rw [hnew] at hrespond
      obtain ⟨name, st', hr, hsettled⟩ := hrespond
      rw [hhandle, after, hassign, run_bind_ok hrun, hr] at hkept
      rcases hsettled with hleases | ⟨-, hostname, hleases⟩
      · exact hgone (hleases ▸ hkept)
      -- The lease with the settled name is in use, so it is not the declined one.
      rcases mem_of_mem_replace (hleases ▸ hkept) with heq | hmem
      · exact hstate (heq ▸ hn)
      · exact hgone hmem
    · exact iff_of_true (request_quarantined hl fun _ => hkeep) hnot
  · refine iff_of_true (request_quarantined hl fun h => absurd h hcheck) fun h => hcheck h.2.1

end

/-! ### All messages -/

/--
**When the quarantine of a declined address holds.** A message leaves a declined lease alone until
its probation ends, exactly if it does not come from a client that the blank identifiers of the
lease are taken for.
-/
theorem handle4_quarantine_iff (env : Env) (msg : Message4) (st : Server4) (l : Lease4)
    (hl : l ∈ st.leases) (hdeclined : l.state = .declined) (hactive : l.expired env.now = false) :
    Quarantined env msg l st ↔ ¬Exposes env st l msg := by
  have hstate : l.state ≠ .default := by simp [hdeclined]
  cases msg with
  | discover x => exact discover_quarantine_iff hl hactive
  | request x => exact request_quarantine_iff hl hactive hstate
  | release m => exact release_quarantine_iff hl
  | decline period m => exact decline_quarantine_iff hl

namespace Sample

/-- A query without options, from the network of subnet 1. -/
def query (hwaddr : HWAddr) (clientId : Option ClientId) (requested : Option (Address 32)) :
    Exchange4 :=
  { subnet := some (alone .all), hwaddr := some hwaddr, clientId := clientId, ciaddr := 0
    requestedAddress := requested, serverId := true, classes := [], hosts := []
    hostIdentifiers := [], name := .absent }

/-- The address that client 1 has declined, for 100 seconds. -/
def declinedLease : Lease4 := (lease 1 1 0xC000020A#32).decline 0 100

end Sample

open Sample in
/-- A client with a hardware address asks for the declined address and does not get it. -/
theorem quarantine_sample :
    Quarantined (envAt 50 noHosts) (.request (query (mac 2) none (some 0xC000020A#32))) declinedLease
      (serverWith [declinedLease]) := by
  refine (handle4_quarantine_iff _ _ _ _ (by decide) rfl (by decide)).mpr ?_
  rintro ⟨-, -, s, hs, htakes⟩
  have hfound := htakes.found
  obtain rfl : alone .all = s := some.inj hs
  revert hfound
  decide

open Sample in
/--
The sender of a packet with a blank hardware address is taken for the owner of every declined lease:
its release removes the lease, and its request is acknowledged with the address.
-/
theorem blank_client_takes_declined_address :
    ¬Quarantined (envAt 50 noHosts)
        (.release { addr := 0xC000020A#32, hwaddr := some empty, clientId := none })
        declinedLease (serverWith [declinedLease]) ∧
      ¬Quarantined (envAt 50 noHosts) (.request (query empty none none)) declinedLease
        (serverWith [declinedLease]) := by
  refine ⟨fun h => ?_, fun h => ?_⟩
  · have hgone : declinedLease ∉ (after (handle4 (envAt 50 noHosts) (.release
        { addr := 0xC000020A#32, hwaddr := some empty, clientId := none }))
        (serverWith [declinedLease])).leases := by decide
    exact hgone h.kept
  · have hgone : declinedLease ∉ (after (handle4 (envAt 50 noHosts)
        (.request (query empty none none))) (serverWith [declinedLease])).leases := by decide
    exact hgone h.kept

/-! ## The leases of others -/

/-- The identifiers of the client that sends a message. -/
def Message4.sender : Message4 → Option HWAddr × Option ClientId
  | .discover x | .request x => (x.hwaddr, x.clientId)
  | .release m | .decline _ m => (m.hwaddr, m.clientId)

/-- The lease is active and not the sender's, also where a subnet ignores client identifiers. -/
abbrev Foreign (l : Lease4) (m : Env × Message4) : Prop :=
  l.expired m.1.now = false ∧ ¬l.belongsToClient m.2.sender.1 m.2.sender.2 ∧
    ¬l.belongsToClient m.2.sender.1 none

theorem foreign_not_found {x : Exchange4} (h : Foreign l (env, .request x)) (fake : Bool) :
    (findClientLease st.leases (x.context fake) s).1 ≠ some l := by
  intro hfound
  have hown := (findClientLease_some hfound).2.2.2
  rw [ClientContext4.clientIdFor] at hown
  split at hown
  · exact h.2.1 hown
  · exact h.2.2 hown

theorem foreign_quarantined (hl : l ∈ st.leases) {m : Env × Message4} (h : Foreign l m) :
    Quarantined m.1 m.2 l st := by
  obtain ⟨env, msg⟩ := m
  cases msg with
  | discover x =>
    refine (discover_quarantine_iff hl h.1).mpr ?_
    rintro ⟨-, -, -, s, -, hfound, -⟩
    exact foreign_not_found h true hfound
  | request x =>
    refine request_quarantined hl fun _ => ?_
    cases hstart : startSubnet (x.context false) with
    | none =>
      rw [allocateLease4_no_subnet hstart]
      exact keepsLease_of_leases hl rfl
    | some s =>
      exact (allocateLease4_outcome env rfl hstart st).keeps_active rfl hl h.1
        (foreign_not_found h false)
  | release m => exact (release_quarantine_iff hl).mpr fun hown => h.2.1 hown.2
  | decline period m => exact (decline_quarantine_iff hl).mpr fun hown => h.2.1 hown.2.1

/--
**Nobody takes a lease away from its owner.** The messages of other clients, in any order and at any
times before the lease expires, leave it as it is, and none of them is given its address.
-/
theorem lease_safe_from_others (l : Lease4) (hl : l ∈ st.leases)
    (hreach : Reaches (fun m => after (handle4 m.1 m.2)) (fun m _ => Foreign l m) st st') :
    l ∈ st'.leases ∧ ∀ m, Foreign l m → Quarantined m.1 m.2 l st' := by
  have hkept : l ∈ st'.leases :=
    hreach.inv (I := fun st => l ∈ st.leases) hl fun m st hl hm => (foreign_quarantined hl hm).kept
  exact ⟨hkept, fun m hm => foreign_quarantined hkept hm⟩

open Sample in
/--
A client asks for the address of another one, then declines and releases it; the lease is still
there, and the client is not given the address when it asks again.
-/
theorem safe_from_others_sample :
    let own := lease 2 1 0xC000020A#32
    let asks := Message4.request (query (mac 1) none (some own.addr))
    let refuses : ClientMessage4 := { addr := own.addr, hwaddr := some (mac 1), clientId := none }
    let asked := after (handle4 (envAt 50 noHosts) asks) (serverWith [own])
    let declined := after (handle4 (envAt 60 noHosts) (.decline 100 refuses)) asked
    let st := after (handle4 (envAt 70 noHosts) (.release refuses)) declined
    own ∈ st.leases ∧ Quarantined (envAt 80 noHosts) asks own st := by
  intro own asks refuses asked declined st
  have hrun : Reaches (fun m => after (handle4 m.1 m.2)) (fun m _ => Foreign own m)
      (serverWith [own]) st :=
    .next (envAt 70 noHosts, .release refuses) (.next (envAt 60 noHosts, .decline 100 refuses)
      (.next (envAt 50 noHosts, asks) .start (by decide)) (by decide)) (by decide)
  obtain ⟨hkept, hsafe⟩ := lease_safe_from_others own (by decide) hrun
  exact ⟨hkept, hsafe (envAt 80 noHosts, asks) (by decide)⟩

end Dhcp
