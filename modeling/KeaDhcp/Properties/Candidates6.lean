import KeaDhcp.Properties.Effects6

/-!
# Where the search for an unreserved DHCPv6 lease ends

`allocateUnreservedLeases6` tries the first hint in every subnet of the network, then the candidates
of the allocator, which depend on its cursors only.
-/

namespace Dhcp

open Infra ServerM6 Engine6 Option List Lease6Storage SubnetPtr

variable {env : Env} {ctx : ClientContext6} {s t : SubnetPtr 128} {db : Lease6Storage}
  {st : Server6} {sn sn' : Session6}

/-! ## Addresses that can be used -/

/-- The address has no lease of the IA's type, or an expired one. -/
def vacant6 (env : Env) (ctx : ClientContext6) (db : Lease6Storage) (addr : Address 128) : Bool :=
  match db.getLease6 ctx.type addr with
  | none => true
  | some l => l.expired env.now

/-- The hint can be used in the subnet. -/
def hintUsable6 (env : Env) (ctx : ClientContext6) (db : Lease6Storage) (hint : Address 128)
    (s : SubnetPtr 128) : Bool :=
  s.clientSupported ctx.classes && (s.subnet.getPool ctx.type ctx.classes hint).isSome &&
    !hintReserved env s hint && vacant6 env ctx db hint

/-- The candidate of the allocator can be used. Reservations count in one mode only. -/
def candidateUsable6 (env : Env) (ctx : ClientContext6) (db : Lease6Storage)
    (c : SubnetPtr 128 × Address 128) : Bool :=
  !(c.1.mode = .all && (env.hostMgr.get6Address c.1.getID c.2).isSome) && vacant6 env ctx db c.2

/--
The result of a search whose first usable address is `found`: a lease that was placed there, or none,
with the session as `idle` says.
-/
def EndsAt6 (env : Env) (ctx : ClientContext6) (found : Option (SubnetPtr 128 × Address 128))
    (idle : Session6 → Prop) (st : Server6) : Option Lease6 → Session6 → Prop
  | none, sn' => found = none ∧ idle sn'
  | some lease, sn' =>
    ∃ t x, found = some (t, x) ∧ sn'.subnet = t ∧ Placed6 env ctx t x st sn'.server lease

/-- A search does not depend on the subnet and the cursors that the session has at its start. -/
theorem EndsAt6.of_unchanged {st₀ : Server6} {found : Option (SubnetPtr 128 × Address 128)}
    {idle : Session6 → Prop} {r : Option Lease6} (h : EndsAt6 env ctx found idle st r sn')
    (hsame : Unchanged6 st₀ st) : EndsAt6 env ctx found idle st₀ r sn' := by
  cases r with
  | none => exact h
  | some lease =>
    obtain ⟨t, x, hfound, hsubnet, hplaced⟩ := h
    exact ⟨t, x, hfound, hsubnet, hplaced.of_unchanged hsame⟩

/-! ## The hint -/

variable {hint x : Address 128} {a : AllocatorState 128}

theorem tryHint6_ends (hs : s.clientSupported ctx.classes) :
    Yields (tryHint6 env ctx hint s) sn (EndsAt6 env ctx
      (if hintUsable6 env ctx sn.server.leases hint s then some (s, hint) else none)
      (· = { sn with subnet := s }) sn.server) := by
  refine .step run_modify ?_
  simp only [hintUsable6, vacant6, hs, Bool.true_and]
  cases hpool : s.subnet.getPool ctx.type ctx.classes hint with
  | none => exact .pure ⟨by simp, rfl⟩
  | some pool =>
    refine .step lift_getLease6_run ?_
    cases hget : sn.server.leases.getLease6 ctx.type hint with
    | none =>
      cases hintReserved env s hint with
      | true => exact .pure ⟨by simp, rfl⟩
      | false =>
        have hfree : ({ sn with subnet := s } : Session6).server.leases.getLease6 ctx.type hint = none :=
          hget
        refine (createLease6_post hfree).imp ?_
        rintro _ sn' ⟨lease, rfl, hsubnet, hplaced⟩
        exact ⟨s, hint, by simp, hsubnet, hplaced⟩
    | some l =>
      dsimp only
      split
      · rename_i hexp
        rw [Bool.and_eq_true] at hexp
        refine .step run_modify (.bind ?_)
        refine .imp (reuseExpiredLease6_post hexp.1 hget) ?_
        rintro lease sn' ⟨hsubnet, hplaced⟩
        exact .pure ⟨s, hint, by simpa using hexp.symm, hsubnet, hplaced⟩
      · rename_i hexp
        exact .pure ⟨by simpa [and_comm] using hexp, rfl⟩

theorem tryHints6_ends (env : Env) (ctx : ClientContext6) (hint : Address 128)
    (subnets : List (SubnetPtr 128)) (sn : Session6) :
    Yields (tryHints6 env ctx hint subnets) sn (EndsAt6 env ctx
      ((subnets.find? (hintUsable6 env ctx sn.server.leases hint)).map (·, hint))
      (fun sn' => ∃ t, sn' = { sn with subnet := t }) sn.server) := by
  induction subnets generalizing sn with
  | nil => exact .pure ⟨rfl, sn.subnet, rfl⟩
  | cons s ss ih =>
    rw [tryHints6, find?_cons]
    by_cases hs : s.clientSupported ctx.classes
    · rw [if_pos hs]
      refine .seq (tryHint6_ends hs) ?_
      cases husable : hintUsable6 env ctx sn.server.leases hint s with
      | false =>
        rintro (_ | lease) sn₁ hr
        · obtain ⟨-, rfl⟩ := hr
          exact ih { sn with subnet := s }
        · obtain ⟨t, x, hfound, -⟩ := hr
          cases hfound
      | true =>
        rintro (_ | lease) sn₁ hr
        · cases hr.1
        · exact .pure hr
    · have husable : hintUsable6 env ctx sn.server.leases hint s = false := by simp [hintUsable6, hs]
      rw [if_neg hs, husable]
      exact ih sn

/-! ## Candidates -/

/-- The addresses of `n` picks in a row, and the cursors after them. -/
def picks6 (env : Env) (ctx : ClientContext6) (s : SubnetPtr 128) :
    Nat → AllocatorState 128 → List (Address 128) × AllocatorState 128
  | 0, a => ([], a)
  | n + 1, a =>
    match pickAddress env.clock ctx.type s.subnet ctx.classes a with
    | none => ([], a)
    | some (x, a') => (x :: (picks6 env ctx s n a').1, (picks6 env ctx s n a').2)

/-- The candidates of one subnet after the other. -/
def candidates6 (env : Env) (ctx : ClientContext6) :
    List (SubnetPtr 128) → AllocatorState 128 → List (SubnetPtr 128 × Address 128)
  | [], _ => []
  | t :: ts, a =>
    if t.clientSupported ctx.classes then
      let picked := picks6 env ctx t (maxAttempts env ctx.type t.subnet ctx.classes) a
      picked.1.map (t, ·) ++ candidates6 env ctx ts picked.2
    else candidates6 env ctx ts a

theorem tryCandidate6_ends (env : Env) (ctx : ClientContext6) (s : SubnetPtr 128) (x : Address 128)
    (sn : Session6) :
    Yields (tryCandidate6 env ctx s x) sn (EndsAt6 env ctx
      (if candidateUsable6 env ctx sn.server.leases (s, x) then some (s, x) else none) (· = sn)
      sn.server) := by
  unfold tryCandidate6 candidateUsable6
  dsimp only
  split
  · rename_i hres
    exact .pure ⟨by simp [hres], rfl⟩
  rename_i hres
  simp only [hres, vacant6]
  refine .step lift_getLease6_run ?_
  cases hget : sn.server.leases.getLease6 ctx.type x with
  | none =>
    refine .step run_modify (.bind ?_)
    refine .imp (createLease6_post hget) ?_
    rintro _ sn' ⟨lease, rfl, hsubnet, hplaced⟩
    exact .step run_modify (.pure ⟨s, x, by simp, hsubnet, hplaced⟩)
  | some l =>
    dsimp only
    split
    · rename_i hexp
      refine .step run_modify (.bind ?_)
      refine .imp (reuseExpiredLease6_post hexp hget) ?_
      rintro lease sn' ⟨hsubnet, hplaced⟩
      exact .pure ⟨s, x, by simpa using hexp, hsubnet, hplaced⟩
    · rename_i hexp
      exact .pure ⟨by simpa using hexp, rfl⟩

/-- The session with other cursors. -/
def Session6.withCursors (sn : Session6) (a : AllocatorState 128) : Session6 :=
  { sn with server := { sn.server with allocator := a } }

theorem tryCandidates6_ends (env : Env) (ctx : ClientContext6) (s : SubnetPtr 128) (n : Nat)
    (hn : n ≠ 0 → s.subnet.getPoolCapacity ctx.type ctx.classes ≠ 0) (sn : Session6) :
    Yields (tryCandidates6 env ctx s n) sn (EndsAt6 env ctx
      (((picks6 env ctx s n sn.server.allocator).1.map (s, ·)).find?
        (candidateUsable6 env ctx sn.server.leases))
      (· = sn.withCursors (picks6 env ctx s n sn.server.allocator).2) sn.server) := by
  induction n generalizing sn with
  | zero => exact .pure ⟨rfl, rfl⟩
  | succ n ih =>
    have hcap := hn (Nat.succ_ne_zero n)
    obtain ⟨⟨x, a⟩, hpick⟩ :=
      isSome_iff_exists.mp (pickAddress_isSome hcap env.clock sn.server.allocator)
    have hrun : (pickAddress6 env ctx s : Engine6 _) sn = .ok x (sn.withCursors a) := by
      have hserver : pickAddress6 env ctx s sn.server = .ok x { sn.server with allocator := a } := by
        simp [pickAddress6, run_bind, run_map, hpick]
      rw [lift_run, hserver]
      rfl
    have hmoved : Unchanged6 sn.server (sn.withCursors a).server := ⟨rfl, rfl⟩
    simp only [picks6, hpick, map_cons, find?_cons]
    refine .step hrun (.seq (tryCandidate6_ends env ctx s x (sn.withCursors a)) ?_)
    rw [show (sn.withCursors a).server.leases = sn.server.leases from rfl]
    cases candidateUsable6 env ctx sn.server.leases (s, x) with
    | false =>
      rintro (_ | lease) sn₁ hr
      · obtain ⟨-, rfl⟩ := hr
        exact .imp (ih (fun _ => hcap) (sn.withCursors a)) fun _ _ h => h.of_unchanged hmoved
      · obtain ⟨t, x, hfound, -⟩ := hr
        cases hfound
    | true =>
      rintro (_ | lease) sn₁ hr
      · cases hr.1
      · exact .pure (hr.of_unchanged hmoved)

theorem trySubnets6_ends (env : Env) (ctx : ClientContext6) (subnets : List (SubnetPtr 128))
    (sn : Session6) :
    Yields (trySubnets6 env ctx subnets) sn (EndsAt6 env ctx
      ((candidates6 env ctx subnets sn.server.allocator).find?
        (candidateUsable6 env ctx sn.server.leases))
      (fun sn' => ∃ a, sn' = sn.withCursors a) sn.server) := by
  induction subnets generalizing sn with
  | nil => exact .pure ⟨rfl, sn.server.allocator, rfl⟩
  | cons s ss ih =>
    unfold trySubnets6 candidates6
    by_cases hs : s.clientSupported ctx.classes
    · rw [if_pos hs, if_pos hs, find?_append]
      refine .seq (tryCandidates6_ends env ctx s _ maxAttempts_ne_zero sn) ?_
      intro r sn₁ hr
      cases r with
      | some lease =>
        obtain ⟨t, x, hfound, hplaced⟩ := hr
        exact .pure ⟨t, x, or_eq_some_iff.mpr (.inl hfound), hplaced⟩
      | none =>
        obtain ⟨hnone, rfl⟩ := hr
        rw [hnone]
        exact .imp (ih (sn.withCursors _)) fun _ _ h => h.of_unchanged ⟨rfl, rfl⟩
    · rw [if_neg hs, if_neg hs]
      exact ih sn

/-! ## The search as a whole -/

/-- Where a search from the subnet on ends: at the IA's first hint, or else at a candidate. -/
def searchEnd6 (env : Env) (ctx : ClientContext6) (s : SubnetPtr 128) (db : Lease6Storage)
    (a : AllocatorState 128) : Option (SubnetPtr 128 × Address 128) :=
  let hint := (ctx.hints.head?.map Prod.fst).getD 0
  ((s.walk.find? (hintUsable6 env ctx db hint)).map (·, hint)).or
    ((candidates6 env ctx (getPreferredSubnet a ctx.type s).walk a).find? (candidateUsable6 env ctx db))

/-- Where a search ends depends on which leases the database has, not on their order. -/
theorem searchEnd6_congr {db' : Lease6Storage} (h : ∀ m, m ∈ db ↔ m ∈ db') :
    searchEnd6 env ctx s db a = searchEnd6 env ctx s db' a := by
  have hvacant : vacant6 env ctx db = vacant6 env ctx db' := by
    funext addr
    have hget : db.getLease6 ctx.type addr = db'.getLease6 ctx.type addr := by
      refine Option.ext fun l => ?_
      rw [getLease6_eq_some, getLease6_eq_some, h]
    rw [vacant6, vacant6, hget]
  have hhint : hintUsable6 env ctx db = hintUsable6 env ctx db' := by
    funext hint t
    rw [hintUsable6, hintUsable6, hvacant]
  have hcandidate : candidateUsable6 env ctx db = candidateUsable6 env ctx db' := by
    funext c
    rw [candidateUsable6, candidateUsable6, hvacant]
  rw [searchEnd6, searchEnd6, hhint, hcandidate]

/-- What `allocateUnreservedLeases6` does: one lease, where the search ends, or nothing. -/
theorem allocateUnreservedLeases6_ends :
    Yields (allocateUnreservedLeases6 env ctx) sn
      fun leases sn' => ∃ r : Option Lease6, leases = r.toList ∧
        EndsAt6 env ctx (searchEnd6 env ctx sn.subnet sn.server.leases sn.server.allocator)
          (fun sn' => Unchanged6 sn.server sn'.server) sn.server r sn' := by
  refine .step (run_get sn) (.bind ?_)
  refine .imp (tryHints6_ends env ctx _ sn.subnet.walk sn) ?_
  intro r sn₁ hr
  unfold searchEnd6
  cases r with
  | some lease =>
    obtain ⟨t, x, hfound, hplaced⟩ := hr
    exact .pure ⟨some lease, rfl, t, x, or_eq_some_iff.mpr (.inl hfound), hplaced⟩
  | none =>
    obtain ⟨hnone, t, rfl⟩ := hr
    simp only [hnone, none_or]
    refine .step (run_get _) (.step run_modify (.bind ?_))
    refine .imp (trySubnets6_ends env ctx _ _) ?_
    intro r sn₂ hr₂
    refine .pure ⟨r, rfl, ?_⟩
    cases r with
    | some lease => exact hr₂
    | none =>
      obtain ⟨hfound, a, rfl⟩ := hr₂
      exact ⟨hfound, rfl, rfl⟩

/-! ## What can be said of the address -/

theorem mem_picks6 {n : Nat} (h : x ∈ (picks6 env ctx s n a).1) :
    s.subnet.inPoolFor ctx.type x ctx.classes := by
  induction n generalizing a with
  | zero => cases h
  | succ n ih =>
    unfold picks6 at h
    split at h
    · cases h
    rename_i hpick
    rcases mem_cons.mp h with rfl | h
    · exact pickAddress_inPoolFor hpick
    · exact ih h

theorem mem_candidates6 {subnets : List (SubnetPtr 128)} (h : (t, x) ∈ candidates6 env ctx subnets a) :
    t ∈ subnets ∧ t.clientSupported ctx.classes ∧ t.subnet.inPoolFor ctx.type x ctx.classes := by
  induction subnets generalizing a with
  | nil => cases h
  | cons u us ih =>
    unfold candidates6 at h
    split at h
    · rename_i hu
      rcases mem_append.mp h with h | h
      · obtain ⟨y, hy, heq⟩ := mem_map.mp h
        cases heq
        exact ⟨mem_cons_self, hu, mem_picks6 hy⟩
      · exact (ih h).imp_left (mem_cons_of_mem u)
    · exact (ih h).imp_left (mem_cons_of_mem u)

/--
A lease was placed in a subnet of the list that the client may use, in one of its pools, and not
reserved there where reservations count.
-/
structure Picked6 (env : Env) (ctx : ClientContext6) (subnets : List (SubnetPtr 128)) (st : Server6)
    (lease : Lease6) (sn' : Session6) : Prop where
  mem : sn'.subnet ∈ subnets
  supported : sn'.subnet.clientSupported ctx.classes
  pooled : sn'.subnet.subnet.inPoolFor ctx.type lease.addr ctx.classes
  unreserved : sn'.subnet.mode = .all → env.hostMgr.get6Address sn'.subnet.getID lease.addr = none
  placed : Placed6 env ctx sn'.subnet lease.addr st sn'.server lease

/-- What a search returns: no lease, with nothing changed, or a lease in one of the subnets. -/
def Searched6 (env : Env) (ctx : ClientContext6) (subnets : List (SubnetPtr 128)) (st : Server6) :
    Option Lease6 → Session6 → Prop
  | none, sn' => Unchanged6 st sn'.server
  | some lease, sn' => Picked6 env ctx subnets st lease sn'

/-- The client may use the address at which a search ends. -/
theorem searchEnd6_spec (h : searchEnd6 env ctx s db a = some (t, x)) :
    t ∈ s.siblings ∧ t.clientSupported ctx.classes ∧ t.subnet.inPoolFor ctx.type x ctx.classes ∧
      (t.mode = .all → env.hostMgr.get6Address t.getID x = none) := by
  rcases or_eq_some_iff.mp h with hhint | ⟨-, hcandidate⟩
  · obtain ⟨u, hfind, heq⟩ := map_eq_some_iff.mp hhint
    cases heq
    have husable := find?_some hfind
    simp only [hintUsable6, Bool.and_eq_true, Bool.not_eq_true'] at husable
    obtain ⟨⟨⟨hsupported, hpool⟩, hres⟩, -⟩ := husable
    obtain ⟨pool, hpool⟩ := isSome_iff_exists.mp hpool
    obtain ⟨hmem, hin, hclass⟩ := Subnet.getPool_some hpool
    refine ⟨mem_walk.mp (mem_of_find?_eq_some hfind), hsupported,
      Subnet.inPoolFor_of_pool hmem hclass hin, fun hmode => ?_⟩
    simpa [hintReserved, hmode] using hres
  · obtain ⟨ht, hsupported, hpool⟩ := mem_candidates6 (mem_of_find?_eq_some hcandidate)
    have husable := find?_some hcandidate
    simp only [candidateUsable6, Bool.and_eq_true] at husable
    refine ⟨sibling_trans (getPreferredSubnet_spec a ctx.type s).1 (mem_walk.mp ht), hsupported, hpool,
      fun hmode => ?_⟩
    simpa [hmode] using husable.1

/-- The result of `allocateUnreservedLeases6`: nothing, with nothing changed, or one lease. -/
theorem allocateUnreservedLeases6_post :
    Yields (allocateUnreservedLeases6 env ctx) sn
      fun leases sn' => ∃ r : Option Lease6, leases = r.toList ∧
        Searched6 env ctx sn.subnet.siblings sn.server r sn' := by
  refine .imp allocateUnreservedLeases6_ends ?_
  rintro _ sn' ⟨r, rfl, hends⟩
  refine ⟨r, rfl, ?_⟩
  cases r with
  | none => exact hends.2
  | some lease =>
    obtain ⟨t, x, hfound, rfl, hplaced⟩ := hends
    obtain ⟨ht, hsupported, hpool, hres⟩ := searchEnd6_spec hfound
    obtain rfl := hplaced.addr_eq
    exact ⟨ht, hsupported, hpool, hres, hplaced⟩

end Dhcp
