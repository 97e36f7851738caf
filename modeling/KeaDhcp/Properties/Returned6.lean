import KeaDhcp.Properties.Allocate6
import KeaDhcp.Properties.Staying6

/-!
# The leases that a DHCPv6 call returns

A lease that the server hands out should be in the database, for the client's IA, in the default
state and not expired (`Recorded6`). A lease that a search places is, unless a lease of another type
has its address: the database has one lease per address, but is asked by type. Of the client's
leases, `allocateLeases6` updates the state only if the client has no reservations, and
`renewLeases6` returns also those that it removes.
-/

namespace Dhcp

open Infra ServerM6 Engine6 Sample MultiIndex Lease6Storage List Except Picked6 SubnetPtr Lease

variable {env : Env} {ctx : ClientContext6} {s : SubnetPtr 128} {st st' : Server6}
  {sn sn' : Session6} {db : Lease6Storage} {l : Lease6} {leases ls : List Lease6}

/-- The lease is in the database, for the client's IA, in the default state and not expired. -/
structure Recorded6 (env : Env) (ctx : ClientContext6) (db : Lease6Storage) (l : Lease6) : Prop where
  stored : l ∈ db
  own : l.duid = ctx.duid ∧ l.iaid = ctx.iaid ∧ l.type = ctx.type
  state : l.state = .default
  unexpired : l.expired env.now = false

instance (env : Env) (ctx : ClientContext6) (db : Lease6Storage) (l : Lease6) :
    Decidable (Recorded6 env ctx db l) :=
  decidable_of_iff (l ∈ db ∧ (l.duid = ctx.duid ∧ l.iaid = ctx.iaid ∧ l.type = ctx.type) ∧
      l.state = .default ∧ l.expired env.now = false)
    ⟨fun ⟨h₁, h₂, h₃, h₄⟩ => ⟨h₁, h₂, h₃, h₄⟩, fun ⟨h₁, h₂, h₃, h₄⟩ => ⟨h₁, h₂, h₃, h₄⟩⟩

theorem expired_of_cltt (h : l.cltt = env.now) : l.expired env.now = false := by
  simp only [expired, getExpirationTime, h, decide_eq_false_iff_not]
  exact Int.not_lt.mpr (Int.le_add_of_nonneg_right (Int.natCast_nonneg _))

/-! ## Leases that a search places -/

variable {addr : Address 128} {hostname : String} {len : Nat}

theorem newLease6_recorded_iff (hfree : db.getLease6 ctx.type addr = none) :
    Recorded6 env ctx (db.insert (newLease6 env ctx s hostname addr len))
      (newLease6 env ctx s hostname addr len) ↔ NoClash6 ctx db addr := by
  have hstored : newLease6 env ctx s hostname addr len ∈ db.insert _ ↔ NoClash6 ctx db addr :=
    mem_insert_iff_noClash rfl hfree
  exact ⟨fun h => hstored.mp h.stored,
    fun h => ⟨hstored.mpr h, ⟨rfl, rfl, rfl⟩, rfl, expired_of_cltt rfl⟩⟩

theorem reusedLease6_recorded (hexist : db.getLease6 ctx.type addr = some l) :
    Recorded6 env ctx (db.replace (reusedLease6 env ctx s hostname l len))
      (reusedLease6 env ctx s hostname l len) := by
  obtain ⟨hl, -, htype⟩ := getLease6_eq_some.mp hexist
  have hfind : db.find (lease6Spec.key (reusedLease6 env ctx s hostname l len)) = some l :=
    find_eq_some_iff.mpr ⟨hl, rfl⟩
  exact ⟨(mem_replace hfind).mpr (.inl rfl), ⟨rfl, rfl, htype⟩, rfl, expired_of_cltt rfl⟩

theorem Placed6.own (hreal : ctx.fakeAllocation = false) (h : Placed6 env ctx s addr st st' l) :
    l.duid = ctx.duid ∧ l.iaid = ctx.iaid ∧ l.type = ctx.type := by
  cases h with
  | created => exact ⟨rfl, rfl, rfl⟩
  | reused _ hexist => exact ⟨rfl, rfl, (getLease6_eq_some.mp hexist).2.2⟩
  | offered hfake => simp [hreal] at hfake

theorem Placed6.inUse (hreal : ctx.fakeAllocation = false) (h : Placed6 env ctx s addr st st' l) :
    ∃ m ∈ st'.leases, m.addr = l.addr := by
  cases h with
  | created _ _ hleases =>
    rw [hleases]
    exact exists_key_insert
  | reused _ hexist _ hleases =>
    rw [hleases]
    exact exists_key_replace (getLease6_eq_some.mp hexist).1
  | offered hfake => simp [hreal] at hfake

theorem Placed6.origin (h : Placed6 env ctx s addr st st' l) {m : Lease6} (hm : m ∈ st'.leases) :
    m ∈ st.leases ∨ m = l := by
  cases h with
  | created _ _ hleases =>
    rw [hleases] at hm
    exact (mem_of_mem_insert hm).symm
  | reused _ _ _ hleases =>
    rw [hleases] at hm
    exact (mem_of_mem_replace hm).symm
  | offered _ _ _ hsame => exact .inl (hsame.leases ▸ hm)

section

variable (hreal : ctx.fakeAllocation = false)
include hreal

/-- A lease that was placed is recorded, unless one of another type has the address. -/
theorem Placed6.recorded_iff (h : Placed6 env ctx s addr st st' l) :
    Recorded6 env ctx st'.leases l ↔ NoClash6 ctx st.leases addr := by
  cases h with
  | created _ hfree hleases =>
    rw [hleases]
    exact newLease6_recorded_iff hfree
  | reused _ hexist _ hleases =>
    rw [hleases]
    obtain ⟨he, rfl, htype⟩ := getLease6_eq_some.mp hexist
    exact iff_of_true (reusedLease6_recorded hexist) (noClash_of_mem he htype)
  | offered hfake => simp [hreal] at hfake

section

variable (h : Picked6 env ctx s.siblings st l sn')

include h

theorem Picked6.carried (hdb : ∀ m ∈ st.leases, m ∈ db) :
    Carried6 ctx s db [l] sn' where
  subnet := h.mem
  nodup := nodup_singleton _
  own := by simpa using h.placed.own hreal
  network := by simpa using ⟨sn'.subnet, h.mem, h.placed.subnetId_eq⟩
  inUse := by simpa using fun _ => h.placed.inUse hreal
  origin := fun _ m hm => (h.placed.origin hm).imp (hdb m) mem_singleton.mpr

theorem Picked6.stays : leavesSubnet ctx (subnetOfLease s l) l = false := by
  rw [subnetOfLease_eq s.self_mem_siblings h.mem h.placed.subnetId_eq]
  obtain ⟨hrange, -⟩ := Subnet.inPoolFor_iff.mp h.pooled
  rw [← (h.placed.own hreal).2.2] at hrange
  simp only [leavesSubnet, h.supported, Bool.not_true, Bool.or_false, Bool.and_eq_false_iff,
    decide_eq_false_iff_not, not_not, Bool.not_eq_false']
  exact hrange

end

end

/-! ## Leases that the client had -/

/--
A real `allocateLeases6` can hand out what the checks leave of the client's leases. Without
reservations they are updated, which keeps only the state of a declined lease. With reservations
they are returned as they are, or added at an address that has no lease of another type. Where
nothing is left, no lease of another type is at the address that a search finds, with the cursors
before the call and without the removed leases.
-/
structure SettlesWell6 (env : Env) (ctx : ClientContext6) (sn : Session6) (leases : List Lease6) :
    Prop where
  unreserved : ctx.hosts = [] → ∀ t l, Remains6 env ctx sn leases t l → l.state ≠ .declined
  reserved : ctx.hosts ≠ [] → ∀ t l, Remains6 env ctx sn leases t l → l.state = .default ∧
    (l.expired env.now = false ∨ findReservedLease ctx leases = .ok (some l)) ∧
    NoClash6 ctx sn.server.leases l.addr
  vacant : ∀ t ms, Emptied6 env ctx sn leases t ms → ∀ u addr,
    searchEnd6 env ctx t (eraseAll ms sn.server.leases) sn.server.allocator = some (u, addr) →
      NoClash6 ctx (eraseAll ms sn.server.leases) addr

theorem updatedLease6_recorded_iff (hreal : ctx.fakeAllocation = false)
    (hstored : updatedLease6 env ctx hostname l ∈ db)
    (hown : l.duid = ctx.duid ∧ l.iaid = ctx.iaid ∧ l.type = ctx.type) :
    Recorded6 env ctx db (updatedLease6 env ctx hostname l) ↔ l.state ≠ .declined := by
  have heq : updatedLease6 env ctx hostname l = conditionalExtendLifetime env
      { l with
        fqdnFwd := ctx.fwdDnsUpdate
        fqdnRev := ctx.revDnsUpdate
        hostname := hostname
        state := if l.stateExpiredReclaimed then .default else l.state } := by
    simp [updatedLease6, hreal]
  have hstate : (updatedLease6 env ctx hostname l).state = .default ↔ l.state ≠ .declined := by
    rw [heq]
    cases hs : l.state <;> simp [conditionalExtendLifetime, stateExpiredReclaimed, hs]
  constructor
  · exact fun h => hstate.mp h.state
  refine fun h => ⟨hstored, ?_, hstate.mpr h, expired_of_cltt (by rw [heq]; rfl)⟩
  rw [heq]
  exact hown

theorem prolonged6_expired (hreal : ctx.fakeAllocation = false) :
    (prolonged6 env ctx leases l).expired env.now = false ↔
      l.expired env.now = false ∨ findReservedLease ctx leases = .ok (some l) := by
  unfold prolonged6
  split
  · rename_i h
    exact iff_of_true (expired_of_cltt rfl) (.inr h.2)
  · rename_i h
    exact (or_iff_left fun hfound => h ⟨hreal, hfound⟩).symm

theorem prolonged6_state : (prolonged6 env ctx leases l).state = l.state := by
  unfold prolonged6
  split <;> rfl

variable {duid : DUID} {kept : List Lease6}

section

variable (hreal : ctx.fakeAllocation = false) (hkept : settled6 env ctx sn leases = .ok kept)
include hreal hkept

/-- Leases that are updated. -/
theorem Settled6.recorded_iff_unreserved (hhosts : ctx.hosts = [])
    (hmem : ∀ l ∈ leases, l ∈ sn.server.leases ∧ l.type = ctx.type)
    (h : Settled6 ctx s sn.server.leases (kept.map (updatedLease6 env ctx sn.hostname)) sn') :
    (∀ l ∈ kept.map (updatedLease6 env ctx sn.hostname), Recorded6 env ctx sn'.server.leases l) ↔
      ∀ t l, Remains6 env ctx sn leases t l → l.state ≠ .declined := by
  rw [settled6_of_no_hosts hhosts, ok.injEq] at hkept
  subst hkept
  have hone : ∀ l ∈ leases.filter (lets (mayKeep6 env ctx sn.subnet)),
      (Recorded6 env ctx sn'.server.leases (updatedLease6 env ctx sn.hostname l) ↔
        l.state ≠ .declined) := by
    intro l hl
    have hin := mem_map_of_mem (f := updatedLease6 env ctx sn.hostname) hl
    obtain ⟨hdb, htype⟩ := hmem l (List.mem_filter.mp hl).1
    obtain ⟨hduid, hiaid, htype'⟩ := updatedLease6_own
    have hown := h.own _ hin
    rw [hduid, hiaid, htype'] at hown
    refine updatedLease6_recorded_iff hreal ((h.stored hreal _ hin).mpr ?_) hown
    rw [updatedLease6_addr]
    exact noClash_of_mem hdb htype
  rw [forall_mem_map]
  constructor
  · intro hall t l hremains
    cases hremains with
    | pooled _ hl hkeep =>
      have hin := List.mem_filter.mpr ⟨hl, lets_iff.mpr hkeep⟩
      exact (hone l hin).mp (hall l hin)
    | reserved hne | checked hne => exact absurd hhosts hne
  · intro hwell l hl
    obtain ⟨hin, hlets⟩ := List.mem_filter.mp hl
    exact (hone l hl).mpr (hwell _ l (.pooled hhosts hin (lets_iff.mp hlets)))

/-- Leases that are returned as they are. -/
theorem Settled6.recorded_iff_reserved (h : Settled6 ctx s sn.server.leases kept sn') :
    (∀ l ∈ kept, Recorded6 env ctx sn'.server.leases l) ↔
      ∀ t l, Remains6 env ctx sn leases t l → l.state = .default ∧
        (l.expired env.now = false ∨ findReservedLease ctx leases = .ok (some l)) ∧
        NoClash6 ctx sn.server.leases l.addr := by
  constructor
  · intro hall t l hremains
    obtain ⟨kept', hkept', hl⟩ := mem_settled6_iff.mpr ⟨t, l, hremains, rfl⟩
    rw [hkept, ok.injEq] at hkept'
    subst hkept'
    have hrec := hall _ hl
    have hclash := (h.stored hreal _ hl).mp hrec.stored
    rw [prolonged6_addr] at hclash
    exact ⟨prolonged6_state.symm.trans hrec.state, (prolonged6_expired hreal).mp hrec.unexpired, hclash⟩
  · intro hwell k hk
    obtain ⟨t, l, hremains, rfl⟩ := mem_settled6_iff.mp ⟨kept, hkept, hk⟩
    obtain ⟨hstate, hexp, hclash⟩ := hwell t l hremains
    refine ⟨(h.stored hreal _ hk).mpr ?_, h.own _ hk, prolonged6_state.trans hstate,
      (prolonged6_expired hreal).mpr hexp⟩
    rwa [prolonged6_addr]

/-- What the checks lead to is recorded exactly under the condition. -/
theorem Settled6.recorded_iff (hsome : kept ≠ [])
    (hmem : ∀ l ∈ leases, l ∈ sn.server.leases ∧ l.type = ctx.type)
    (hls : ls = if ctx.hosts.isEmpty then kept.map (updatedLease6 env ctx sn.hostname) else kept)
    (h : Settled6 ctx s sn.server.leases ls sn') :
    (∀ l ∈ ls, Recorded6 env ctx sn'.server.leases l) ↔ SettlesWell6 env ctx sn leases := by
  have hvacant : ∀ t ms, ¬Emptied6 env ctx sn leases t ms := by
    intro t ms hempty
    rw [settled6_nil_iff.mpr ⟨t, ms, hempty⟩, ok.injEq] at hkept
    exact hsome hkept.symm
  by_cases hhosts : ctx.hosts = []
  · obtain rfl : ls = kept.map (updatedLease6 env ctx sn.hostname) := by simpa [hhosts] using hls
    rw [h.recorded_iff_unreserved hreal hkept hhosts hmem]
    exact ⟨fun hall => ⟨fun _ => hall, fun hne => absurd hhosts hne, fun t ms he => absurd he (hvacant t ms)⟩,
      fun hwell => hwell.unreserved hhosts⟩
  · obtain rfl : ls = kept := by simpa [hhosts] using hls
    rw [h.recorded_iff_reserved hreal hkept]
    exact ⟨fun hall => ⟨fun h' => absurd h' hhosts, fun _ => hall, fun t ms he => absurd he (hvacant t ms)⟩,
      fun hwell => hwell.reserved hhosts⟩

end

/-- Where the checks leave nothing, the address that the search finds decides. -/
theorem Emptied6.settlesWell6_iff {t : SubnetPtr 128} {ms : List Lease6}
    (h : Emptied6 env ctx sn leases t ms) :
    SettlesWell6 env ctx sn leases ↔ ∀ u addr,
      searchEnd6 env ctx t (eraseAll ms sn.server.leases) sn.server.allocator = some (u, addr) →
        NoClash6 ctx (eraseAll ms sn.server.leases) addr := by
  refine ⟨fun hwell => hwell.vacant t ms h, fun hvacant => ⟨?_, ?_, ?_⟩⟩
  · exact fun _ _ _ hremains => absurd hremains h.not_remains
  · exact fun _ _ _ hremains => absurd hremains h.not_remains
  · intro t' ms' h'
    obtain ⟨rfl, rfl⟩ := h.unique h'
    exact hvacant

theorem allocateIA6_recorded (hreal : ctx.fakeAllocation = false) (hduid : ctx.duid = some duid) :
    let leases := clientLeases6 ctx duid sn.server.leases sn.subnet
    Post (allocateIA6 env ctx duid) sn
      (fun ls sn' => (∀ l ∈ ls, Recorded6 env ctx sn'.server.leases l) ↔
        SettlesWell6 env ctx sn leases)
      fun e _ => e = .badValue ∧ SettlesWell6 env ctx sn leases := by
  intro leases
  have hcarried := clientLeases6_carried hduid sn
  have hmem : ∀ l ∈ leases, l ∈ sn.server.leases ∧ l.type = ctx.type :=
    fun l hl => ⟨(mem_clientLeases6.mp hl).1, (hcarried.own l hl).2.2⟩
  refine .step (run_get sn) ?_
  by_cases hempty : ∃ t ms, Emptied6 env ctx sn leases t ms
  · obtain ⟨t, ms, hempty⟩ := hempty
    rw [hempty.settlesWell6_iff]
    refine Yields.seq (hempty.run hcarried.nodup hmem) ?_
    rintro _ sn₁ ⟨rfl, hleft⟩
    refine Yields.imp allocateUnreservedLeases6_ends ?_
    rintro _ sn' ⟨r, rfl, hends⟩
    rw [hleft.subnet, hleft.allocator, searchEnd6_congr hleft.leases] at hends
    cases r with
    | none => exact iff_of_true (by simp) (by simp [hends.1])
    | some lease =>
      obtain ⟨u, addr, hfound, -, hplaced⟩ := hends
      have hclash : NoClash6 ctx sn₁.server.leases addr ↔
          NoClash6 ctx (eraseAll ms sn.server.leases) addr :=
        forall_congr' fun m => by rw [hleft.leases]
      simp only [Option.mem_toList, Option.some.injEq, forall_eq', hplaced.recorded_iff hreal, hclash,
        hfound]
      constructor
      · rintro h _ _ ⟨⟩
        exact h
      · exact fun h => h u addr rfl
  · refine .bind (.mono (settleLeases6_post env hcarried fun l hl => (hmem l hl).1) ?_ ?_)
    · rintro ls sn₁ ⟨⟨kept, hkept, hls⟩, hsettled⟩
      have hsome : kept ≠ [] := by
        rintro rfl
        exact hempty (settled6_nil_iff.mp hkept)
      have hiff := hsettled.recorded_iff hreal hkept hsome hmem hls
      have hne : ls ≠ [] := by
        rw [hls]
        split <;> simpa using hsome
      rw [orUnreserved6, if_neg (by simpa using hne)]
      exact .pure hiff
    · rintro e sn' ⟨hbad, herr⟩
      have hnone : ∀ t l, ¬Remains6 env ctx sn leases t l := by
        intro t l hremains
        obtain ⟨kept, hkept, -⟩ := mem_settled6_iff.mpr ⟨t, l, hremains, rfl⟩
        rw [herr] at hkept
        cases hkept
      exact ⟨hbad, fun _ t l h => absurd h (hnone t l), fun _ t l h => absurd h (hnone t l),
        fun t ms h => absurd ⟨t, ms, h⟩ hempty⟩

/-! ## Leases that are renewed -/

/-- The leases that `renewLeases6` goes on with still belong to their subnets. -/
def RenewsWell6 (env : Env) (ctx : ClientContext6) (sn : Session6) (leases : List Lease6) : Prop :=
  ∀ l, RemainsRenewed6 env ctx sn leases l → leavesSubnet ctx (subnetOfLease sn.subnet l) l = false

theorem leavesSubnet_prolonged :
    leavesSubnet ctx (subnetOfLease s (prolonged6 env ctx leases l)) (prolonged6 env ctx leases l) =
      leavesSubnet ctx (subnetOfLease s l) l := by
  unfold prolonged6
  split <;> rfl

theorem renewsWell6_iff (hkept : settledRenewed6 env ctx sn leases = .ok kept) :
    RenewsWell6 env ctx sn leases ↔
      ∀ l ∈ kept, leavesSubnet ctx (subnetOfLease sn.subnet l) l = false := by
  constructor
  · intro hwell k hk
    obtain ⟨l, hremains, rfl⟩ := mem_settledRenewed6_iff.mp ⟨kept, hkept, hk⟩
    exact leavesSubnet_prolonged.trans (hwell l hremains)
  · intro hall l hremains
    obtain ⟨kept', hkept', hl⟩ := mem_settledRenewed6_iff.mpr ⟨l, hremains, rfl⟩
    rw [hkept, ok.injEq] at hkept'
    subst hkept'
    exact leavesSubnet_prolonged.symm.trans (hall _ hl)

theorem Outcome6.recorded_iff {r : Lease6} (h : Outcome6 env ctx s db l r)
    (hown : l.duid = ctx.duid ∧ l.iaid = ctx.iaid ∧ l.type = ctx.type) :
    Recorded6 env ctx db r ↔ leavesSubnet ctx (subnetOfLease s l) l = false := by
  cases h with
  | removed hleaves hgone =>
    refine iff_of_false (fun h => hgone l h.stored rfl) ?_
    simp [hleaves]
  | renewed hstays hmem => exact iff_of_true ⟨hmem, hown, rfl, expired_of_cltt rfl⟩ hstays

theorem extendLeases6_recorded (hreal : ctx.fakeAllocation = false) (h : Carried6 ctx s db ls sn) :
    Yields (extendLeases6 env ctx ls) sn
      fun rs sn' => (∀ r ∈ rs, Recorded6 env ctx sn'.server.leases r) ↔
        ∀ l ∈ ls, leavesSubnet ctx (subnetOfLease s l) l = false := by
  refine .imp (h.extended env hreal) ?_
  intro rs sn' hout
  have hown := h.own
  clear h
  induction hout with
  | nil => simp
  | @cons l r ls rs hlr _ ih =>
    rw [forall_mem_cons] at hown
    rw [forall_mem_cons, forall_mem_cons]
    exact and_congr (hlr.recorded_iff hown.1) (ih hown.2)

theorem renewIA6_recorded {env : Env} (hreal : ctx.fakeAllocation = false)
    (hduid : ctx.duid = some duid) {sn : Session6} :
    let leases := clientLeases6 ctx duid sn.server.leases sn.subnet
    Post (renewIA6 env ctx duid) sn
      (fun ls sn' => (∀ l ∈ ls, Recorded6 env ctx sn'.server.leases l) ↔ RenewsWell6 env ctx sn leases)
      fun e _ => e = .badValue ∧ RenewsWell6 env ctx sn leases := by
  intro leases
  have hcarried := clientLeases6_carried hduid sn
  refine .step (run_get sn) (.bind ?_)
  refine .mono (settleRenewed6_post hcarried fun l hl => (mem_clientLeases6.mp hl).1) ?_ ?_
  · rintro ls sn₁ ⟨hkept, hls, -⟩
    rw [renewsWell6_iff hkept]
    cases ls with
    | nil =>
      refine Yields.seq allocateUnreservedLeases6_post ?_
      rintro _ sn₂ ⟨r, rfl, hsearch⟩
      cases r with
      | none => exact .pure (by simp)
      | some lease =>
        have hcarried := carried hreal hsearch fun m hm => hm
        refine Yields.imp (extendLeases6_recorded hreal hcarried) ?_
        rintro rs sn' hiff
        refine iff_of_true (hiff.mpr ?_) (by simp)
        simpa using stays hreal hsearch
    | cons l ls =>
      refine .bind (.pure ?_)
      exact Yields.imp (extendLeases6_recorded hreal hls) fun _ _ h => h
  · rintro e sn' ⟨hbad, herr⟩
    refine ⟨hbad, fun l hremains => ?_⟩
    obtain ⟨kept, hkept, -⟩ := mem_settledRenewed6_iff.mpr ⟨l, hremains, rfl⟩
    rw [herr] at hkept
    cases hkept

/-! ## Whole calls -/

/--
**When the returned leases are recorded.** No pointer of a returned collection is null. The leases
of `allocateLeases6` are recorded exactly if those that remain can be handed out as they are, or if
the address that is found has no lease of another type; those of `renewLeases6`, if those that
remain still belong to their subnets.
-/
theorem returned_recorded6_iff (env : Env) (hreal : ctx.fakeAllocation = false) (st : Server6) :
    (∃ r st', allocateLeases6 env ctx st = .ok r st' ∧
      ((∀ l ∈ r.leases, Recorded6 env ctx st'.leases l) ↔ ForCall6 ctx st (SettlesWell6 env ctx))) ∧
    ∃ r st', renewLeases6 env ctx st = .ok r st' ∧
      ((∀ l ∈ r.leases, Recorded6 env ctx st'.leases l) ↔ ForCall6 ctx st (RenewsWell6 env ctx)) := by
  constructor
  · refine runIA6_forCall (R := fun ls st' p => (∀ l ∈ ls, Recorded6 env ctx st'.leases l) ↔ p)
      (by simp) fun s duid hs hduid => ?_
    refine .mono (allocateIA6_recorded hreal hduid) (fun _ _ h => h) ?_
    rintro e sn' ⟨rfl, hwell⟩
    exact ⟨by simp, iff_of_true (by simp) hwell⟩
  · refine runIA6_forCall (R := fun ls st' p => (∀ l ∈ ls, Recorded6 env ctx st'.leases l) ↔ p)
      (by simp) fun s duid hs hduid => ?_
    refine .mono (renewIA6_recorded hreal hduid) (fun _ _ h => h) ?_
    rintro e sn' ⟨rfl, hwell⟩
    exact ⟨by simp, iff_of_true (by simp) hwell⟩

/-- A client with a lease in the pool and no reservations gets it, recorded, by either call. -/
theorem returned_recorded_sample6 :
    let env := envAt 10 noHosts
    let ctx := client6 1 false []
    let st := serverWith6 [lease6 1 1 0x20010db8000100000000000000000010#128 .default]
    (∃ r st', allocateLeases6 env ctx st = .ok r st' ∧
      ∀ l ∈ r.leases, Recorded6 env ctx st'.leases l) ∧
    ∃ r st', renewLeases6 env ctx st = .ok r st' ∧
      ∀ l ∈ r.leases, Recorded6 env ctx st'.leases l := by
  intro env ctx st
  have hleases : ∀ l ∈ clientLeases6 ctx (duid 1) st.leases ptr61, l.state ≠ .declined ∧
      leavesSubnet ctx (subnetOfLease ptr61 l) l = false ∧ mayKeep6 env ctx ptr61 l ≠ .ok false := by
    decide
  have hsome : clientLeases6 ctx (duid 1) st.leases ptr61 ≠ [] := by decide
  obtain ⟨⟨r, st', hrun, hiff⟩, r', st'', hrun', hiff'⟩ := returned_recorded6_iff env (show ctx.fakeAllocation = false from rfl) st
  refine ⟨⟨r, st', hrun, hiff.mpr ?_⟩, r', st'', hrun', hiff'.mpr ?_⟩
  · rintro s duid ⟨⟩ ⟨⟩
    refine ⟨?_, fun h => absurd rfl h, ?_⟩
    · rintro - t l (⟨-, hl, -⟩ | ⟨h⟩ | ⟨h⟩)
      · exact (hleases l hl).1
      · exact absurd rfl h
      · exact absurd rfl h
    · rintro t ms (⟨-, hgo⟩ | ⟨h⟩ | ⟨h⟩)
      · obtain ⟨l, hl⟩ := exists_mem_of_ne_nil _ hsome
        exact absurd (hgo l hl) (hleases l hl).2.2
      · exact absurd rfl h
      · exact absurd rfl h
  · rintro s duid ⟨⟩ ⟨⟩ l (⟨-, hl, -⟩ | ⟨h⟩)
    · exact (hleases l hl).2.1
    · exact absurd rfl h

/-- A reclaimed lease that is reserved for the client is handed out as it is, still reclaimed. -/
theorem reserved_lease_returned_reclaimed :
    let addr : Address 128 := 0x20010db8000100000000000000000010#128
    let host := host6 1 1 addr
    let env := envAt 200 (hostsOf host)
    let ctx := client6 1 false [(1, host)]
    let st := serverWith6 [lease6 1 1 addr .expiredReclaimed]
    (returned6 (allocateLeases6 env ctx) st).map (fun l => (l.addr, l.state)) =
        [(addr, .expiredReclaimed)] ∧
      ¬∀ l ∈ returned6 (allocateLeases6 env ctx) st,
        Recorded6 env ctx (after (allocateLeases6 env ctx) st).leases l := by
  decide

end Dhcp
