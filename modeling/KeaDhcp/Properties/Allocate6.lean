import KeaDhcp.Properties.Candidates6
import KeaDhcp.Properties.Allocate4

/-!
# What a call of the DHCPv6 engine leaves behind
-/

namespace Dhcp

open Infra ServerM6 Engine6 Sample

variable {env : Env} {ctx : ClientContext6} {s : SubnetPtr 128} {st st' : Server6}
  {sn sn' : Session6}

/-! ## A network for concrete runs -/

namespace Sample

/-- 2001:db8:1::/64 with the pool 2001:db8:1::10 to 2001:db8:1::19. -/
def subnet61 : Subnet 128 :=
  onePool 1 0x20010db8000100000000000000000000#128 64 (poolOf .na 1
    0x20010db8000100000000000000000010#128 0x20010db8000100000000000000000019#128 (by decide))
    Nat.one_pos

/-- 2001:db8:2::/64 with the pool 2001:db8:2::10 to 2001:db8:2::19. -/
def subnet62 : Subnet 128 :=
  onePool 2 0x20010db8000200000000000000000000#128 64 (poolOf .na 2
    0x20010db8000200000000000000000010#128 0x20010db8000200000000000000000019#128 (by decide))
    Nat.two_pos

/-- Both subnets on one link. -/
def shared6 : SharedNetwork 128 :=
  { clientClass := "", subnets := [subnet61, subnet62], ids_nodup := by decide }

def ptr61 : SubnetPtr 128 := { subnet := subnet61, network := some shared6, mem := by decide }

def duid (n : UInt8) : DUID := { duid := [n], min_len := by simp }

variable (n : UInt8) (subnet : SubnetID) (addr : Address 128)

/-- The context of a client of subnet 1 with an IA_NA. -/
def client6 (fake : Bool) (hosts : List (SubnetID × Host)) : ClientContext6 :=
  { subnet := some ptr61, hostSubnet := none, duid := some (duid n), hwaddr := none
    fwdDnsUpdate := false, revDnsUpdate := false, hostname := "", fakeAllocation := fake
    classes := [], hasFqdn := false, hosts := hosts, hostIdentifiers := [(.duid, [n])]
    allocatedResources := [], iaid := 1, type := .na, hints := [], type_ne_v4 := by decide }

/-- A lease of this client, given out at time 0 for 100 seconds. -/
def lease6 (state : LeaseState) : Lease6 :=
  { addr := addr, t1 := 10, t2 := 20, validLft := 100, cltt := 0, subnetId := subnet, hostname := ""
    fqdnFwd := false, fqdnRev := false, hwaddr := none, state := state, type := .na, prefixlen := 128
    iaid := 1, duid := some (duid n), preferredLft := 50 }

def serverWith6 (leases : List Lease6) : Server6 :=
  { leases := leases.foldl (fun db l => db.insert l) MultiIndex.empty
    stats := fun _ => 0
    allocator :=
      { poolLast := fun _ => (0, true), subnetLast := fun _ _ => 0, subnetTime := fun _ _ => none }
    ncrs := [] }

/-- A reservation of an address for the client with this DUID. -/
def host6 (h : validResrv .na addr 128 := by decide) : Host :=
  { identifierType := .duid, identifier := [n], ipv4SubnetId := subnetIdUnused
    ipv6SubnetId := subnet, ipv4Reservation := 0
    ipv6Reservations := [{ type := .na, addr := addr, len := 128, valid := h }], hostname := "" }

end Sample

/-! ## Calls -/

/-- The leases that a call returns. -/
def returned6 (call : ServerM6 Allocation6) (st : Server6) : List Lease6 :=
  match call st with
  | .ok r _ => r.leases
  | .error _ _ => []

variable {duid : DUID} {leases : List Lease6} {body : DUID → Engine6 (List Lease6)}

theorem after_runIA6 (hs : ctx.subnet = some s) (hduid : ctx.duid = some duid) :
    after (runIA6 ctx body) st = (after (body duid) (ctx.session s st)).server := by
  unfold after runIA6
  rw [hs, hduid]
  dsimp only
  cases body duid (ctx.session s st) with
  | ok leases sn => rfl
  | error e sn =>
    dsimp only
    split <;> rfl

theorem after_runIA6_none (h : ctx.subnet = none ∨ ctx.duid = none) :
    after (runIA6 ctx body) st = st := by
  unfold after runIA6
  rcases h with h | h
  · rw [h]
    rfl
  · rw [h]
    cases ctx.subnet <;> rfl

theorem runIA6_post (hs : ctx.subnet = some s) (hduid : ctx.duid = some duid)
    {Q : List Lease6 → Session6 → Prop} {E : EngineError → Session6 → Prop}
    (h : Post (body duid) (ctx.session s st) Q E) (hnull : ∀ sn', ¬E .nullPointer sn') :
    ∃ ls sn', runIA6 ctx body st = .ok (Session6.allocation sn' ctx ls) sn'.server ∧
      (Q ls sn' ∨ (ls = [] ∧ ∃ e, E e sn')) := by
  unfold runIA6
  rw [hs, hduid]
  dsimp only
  cases hbody : body duid (ctx.session s st) with
  | ok leases sn' => exact ⟨leases, sn', rfl, .inl (h.ok hbody)⟩
  | error e sn' =>
    have he := h.error hbody
    have hne : e ≠ .nullPointer := fun heq => hnull sn' (heq ▸ he)
    exact ⟨[], sn', by simp [hne], .inr ⟨rfl, e, he⟩⟩

theorem runIA6_none (h : ctx.subnet = none ∨ ctx.duid = none) :
    ∃ r, runIA6 ctx body st = .ok r st ∧ r.leases = [] := by
  unfold runIA6
  rcases h with h | h
  · rw [h]
    exact ⟨_, rfl, rfl⟩
  · rw [h]
    cases ctx.subnet <;> exact ⟨_, rfl, rfl⟩

/-- What a property of the session and of the client's leases for the IA says about a call. -/
def ForCall6 (ctx : ClientContext6) (st : Server6) (P : Session6 → List Lease6 → Prop) : Prop :=
  ∀ s duid, ctx.subnet = some s → ctx.duid = some duid →
    P (ctx.session s st) (clientLeases6 ctx duid st.leases s)

variable {P : Session6 → List Lease6 → Prop}

theorem forCall6_iff (hs : ctx.subnet = some s) (hduid : ctx.duid = some duid) :
    ForCall6 ctx st P ↔ P (ctx.session s st) (clientLeases6 ctx duid st.leases s) := by
  refine ⟨fun h => h s duid hs hduid, fun h s' duid' hs' hduid' => ?_⟩
  rw [hs, Option.some.injEq] at hs'
  rw [hduid, Option.some.injEq] at hduid'
  subst hs' hduid'
  exact h

/-- From the body of a call to the call: nothing is required where the body does not run. -/
theorem runIA6_forCall {R : List Lease6 → Server6 → Prop → Prop} (hnone : R [] st True)
    (h : ∀ s duid, ctx.subnet = some s → ctx.duid = some duid →
      Post (body duid) (ctx.session s st)
        (fun ls sn' => R ls sn'.server (P (ctx.session s st) (clientLeases6 ctx duid st.leases s)))
        fun e sn' => e ≠ .nullPointer ∧
          R [] sn'.server (P (ctx.session s st) (clientLeases6 ctx duid st.leases s))) :
    ∃ r st', runIA6 ctx body st = .ok r st' ∧ R r.leases st' (ForCall6 ctx st P) := by
  have hidle : (ctx.subnet = none ∨ ctx.duid = none) →
      ∃ r st', runIA6 ctx body st = .ok r st' ∧ R r.leases st' (ForCall6 ctx st P) := by
    intro hidle
    have htrue : ForCall6 ctx st P = True := by
      refine eq_true fun s duid hs hduid => ?_
      simp [hs, hduid] at hidle
    obtain ⟨r, hrun, hleases⟩ := runIA6_none hidle
    exact ⟨r, st, hrun, by rw [hleases, htrue]; exact hnone⟩
  cases hs : ctx.subnet with
  | none => exact hidle (.inl hs)
  | some s =>
    cases hduid : ctx.duid with
    | none => exact hidle (.inr hduid)
    | some duid =>
      obtain ⟨ls, sn', hrun, hpost⟩ := runIA6_post hs hduid (h s duid hs hduid) fun sn' h => h.1 rfl
      refine ⟨_, sn'.server, hrun, ?_⟩
      rw [propext (forCall6_iff hs hduid)]
      rcases hpost with hR | ⟨rfl, _, -, hR⟩
      · exact hR
      · exact hR

/-! ## Solicits -/

theorem Removed6.unchanged_iff {removed : List Lease6} (h : Removed6 ctx removed st st') :
    Unchanged6 st st' ↔ removed = [] := by
  constructor
  · intro hsame
    cases removed with
    | nil => rfl
    | cons l ls =>
      have hstat := congrFun (h.stats.symm.trans hsame.stats) (.subnet l.subnetId ctx.statName)
      rw [uncountAll_apply] at hstat
      simp at hstat
      omega
  · rintro rfl
    exact ⟨h.leases, h.stats⟩

/--
The conflict check of the subnet keeps all leases, and all are reserved for the client. Either check
ends early at a lease whose address or length `IPv6Resrv` rejects.
-/
def KeepsAll6 (env : Env) (ctx : ClientContext6) (s : SubnetPtr 128) (leases : List Lease6) : Prop :=
  leases.allM (mayKeep6 env ctx s) ≠ .ok false ∧
    (leases.allM (mayKeep6 env ctx s) = .ok true → leases.allM (isReserved6 ctx) ≠ .ok false)

/--
No lease of the client is removed while a Solicit is answered. Without reservations the conflict
check keeps all. With reservations both checks do, with the lease of a free reservation and in its
subnet.
-/
structure SolicitKeeps6 (env : Env) (ctx : ClientContext6) (sn : Session6) (leases : List Lease6) :
    Prop where
  unreserved : ctx.hosts = [] → leases.allM (mayKeep6 env ctx sn.subnet) ≠ .ok false
  reserved : leases ≠ [] → ctx.hosts ≠ [] → ∀ t ls, planned6 env ctx sn leases = .ok (t, ls) →
    KeepsAll6 env ctx t ls

/-- Leases were removed, or none exactly under the condition. -/
def Shrunk6 (env : Env) (ctx : ClientContext6) (sn : Session6) (leases : List Lease6)
    (st' : Server6) : Prop :=
  ∃ removed, Removed6 ctx removed sn.server st' ∧ (removed = [] ↔ SolicitKeeps6 env ctx sn leases)

/-- The two removal passes of a client with reservations remove nothing exactly if both keep all. -/
theorem removalPasses_post (env : Env) (ctx : ClientContext6) (sn : Session6)
    (hnodup : (leases.map (·.addr)).Nodup) :
    let Shrunk := fun (sn' : Session6) => ∃ removed, Removed6 ctx removed sn.server sn'.server ∧
      (removed = [] ↔ KeepsAll6 env ctx sn.subnet leases)
    EndsIn (removeNonmatchingReservedLeases6 env ctx leases >>= removeNonreservedLeases6 env ctx) sn
      Shrunk := by
  -- What the second pass removes counts only if the first removes nothing.
  have hpasses : ∀ kept, (sift (mayKeep6 env ctx sn.subnet) none leases).kept = .ok kept →
      ((sift (mayKeep6 env ctx sn.subnet) none leases).removed ++
          (sift (isReserved6 ctx) (some kept.length) kept).removed = [] ↔
        KeepsAll6 env ctx sn.subnet leases) := by
    intro kept hkept
    rw [List.append_eq_nil_iff, sift_removed_eq_nil, sift_removed_eq_nil]
    refine and_congr_right fun hall => ?_
    rw [sift_of_allM hall] at hkept
    cases hverdict : leases.allM (mayKeep6 env ctx sn.subnet) with
    | error e => simp [hverdict, Except.map] at hkept
    | ok verdict =>
      simp only [hverdict, Except.map, Except.ok.injEq] at hkept
      subst hkept
      cases verdict with
      | true => exact ⟨fun h _ => h, fun h => h rfl⟩
      | false => exact absurd hverdict hall
  refine .bind (.mono (removeNonmatching_post hnodup) ?_ ?_)
  · rintro kept sn₁ ⟨hkept, hdrop⟩
    refine .mono (removeNonreserved_post env ctx kept sn₁) ?_ ?_
    all_goals
      rintro _ sn' ⟨-, hdrop'⟩
      exact ⟨_, hdrop.toRemoved6.append hdrop'.toRemoved6, hpasses kept hkept⟩
  · rintro e sn' ⟨hkept, hdrop⟩
    refine ⟨_, hdrop.toRemoved6, ?_⟩
    rw [sift_removed_eq_nil]
    refine ⟨fun hall => ⟨hall, fun htrue => ?_⟩, And.left⟩
    rw [sift_of_allM hall, htrue] at hkept
    cases hkept

theorem settleLeases6_fake (env : Env) (hfake : ctx.fakeAllocation = true) (sn : Session6)
    (hmem : ∀ l ∈ leases, l ∈ sn.server.leases ∧ l.type = ctx.type)
    (hnodup : (leases.map (·.addr)).Nodup) :
    EndsIn (settleLeases6 env ctx leases) sn fun sn' => Shrunk6 env ctx sn leases sn'.server := by
  have hplan := allocateReserved_post env ctx fun l hl => (hmem l hl).1
  unfold settleLeases6
  cases hempty : leases.isEmpty with
  | true =>
    -- Nothing can be removed from a client without leases.
    obtain rfl := List.isEmpty_iff.mp hempty
    have hkeeps : SolicitKeeps6 env ctx sn [] :=
      ⟨fun _ => by simp [pure, Except.pure], fun h => absurd rfl h⟩
    have hnone : ∀ st', Unchanged6 sn.server st' → Shrunk6 env ctx sn [] st' :=
      fun st' h => ⟨[], .of_unchanged ctx h, iff_of_true rfl hkeeps⟩
    cases hhosts : ctx.hosts.isEmpty with
    | true => exact .pure (hnone _ (.refl _))
    | false =>
      refine .mono hplan ?_ ?_
      · exact fun _ sn' h => hnone _ (h.2.1.unchanged_of_fake hfake)
      · rintro e sn' ⟨-, -, rfl⟩
        exact hnone _ (.refl _)
  | false =>
    have hne : leases ≠ [] := by simpa using hempty
    cases hhosts : ctx.hosts.isEmpty with
    | true =>
      have hnohosts := List.isEmpty_iff.mp hhosts
      have hiff : (sift (mayKeep6 env ctx sn.subnet) none leases).removed = [] ↔
          SolicitKeeps6 env ctx sn leases := by
        rw [sift_removed_eq_nil]
        exact ⟨fun h => ⟨fun _ => h, fun _ h' => absurd hnohosts h'⟩, fun h => h.unreserved hnohosts⟩
      refine .bind (.mono (removeNonmatching_post hnodup) ?_ ?_)
      · rintro kept sn₁ ⟨-, hdrop⟩
        exact .of_ok (updateLeaseData_fake hfake) ⟨_, hdrop.toRemoved6, hiff⟩
      · rintro e sn' ⟨-, hdrop⟩
        exact ⟨_, hdrop.toRemoved6, hiff⟩
    | false =>
      have hhosts' : ctx.hosts ≠ [] := by simpa using hhosts
      refine .bind (.mono hplan ?_ ?_)
      · rintro ls sn₁ ⟨hplanned, heffect, -⟩
        have hsame := heffect.unchanged_of_fake hfake
        have hpass := removalPasses_post env ctx sn₁ (heffect.nodup hmem hnodup)
        have hshrunk : ∀ st', (∃ removed, Removed6 ctx removed sn₁.server st' ∧
            (removed = [] ↔ KeepsAll6 env ctx sn₁.subnet ls)) →
            Shrunk6 env ctx sn leases st' := by
          rintro st' ⟨removed, hrem, hiff⟩
          refine ⟨removed, (Removed6.of_unchanged ctx hsame).append hrem, hiff.trans ⟨?_, ?_⟩⟩
          · intro h
            refine ⟨fun h' => absurd h' hhosts', fun _ _ t ls' heq => ?_⟩
            rw [hplanned, Except.ok.injEq] at heq
            obtain ⟨rfl, rfl⟩ := heq
            exact h
          · exact fun h => h.reserved hne hhosts' _ _ hplanned
        exact .mono hpass (fun _ sn' h => hshrunk _ h) fun _ sn' h => hshrunk _ h
      · rintro e sn' ⟨herr, -, rfl⟩
        refine ⟨[], .of_unchanged ctx (.refl _), iff_of_true rfl ?_⟩
        refine ⟨fun h' => absurd h' hhosts', fun _ _ t ls heq => ?_⟩
        rw [herr] at heq
        cases heq

theorem Searched6.unchanged_of_fake {subnets : List (SubnetPtr 128)} {r : Option Lease6}
    (hfake : ctx.fakeAllocation = true) (h : Searched6 env ctx subnets st r sn') :
    Unchanged6 st sn'.server := by
  cases r with
  | none => exact h
  | some lease => exact h.placed.unchanged_of_fake hfake

theorem orUnreserved6_fake (hfake : ctx.fakeAllocation = true) :
    Yields (orUnreserved6 env ctx leases) sn fun _ sn' => Unchanged6 sn.server sn'.server := by
  unfold orUnreserved6
  split
  · refine .imp allocateUnreservedLeases6_post ?_
    rintro _ sn' ⟨r, -, hsearch⟩
    exact hsearch.unchanged_of_fake hfake
  · exact .pure (.refl _)

/--
**A Solicit leaves the database and the statistics alone exactly if no lease of the client fails
the checks.** The checks remove leases without asking whether the allocation is real.
-/
theorem allocateLeases6_fake_unchanged_iff (hfake : ctx.fakeAllocation = true) (st : Server6) :
    Unchanged6 st (after (allocateLeases6 env ctx) st) ↔
      ForCall6 ctx st (SolicitKeeps6 env ctx) := by
  cases hs : ctx.subnet with
  | none =>
    rw [allocateLeases6, after_runIA6_none (.inl hs)]
    exact iff_of_true (.refl st) fun s _ h => by simp [hs] at h
  | some s =>
    cases hduid : ctx.duid with
    | none =>
      rw [allocateLeases6, after_runIA6_none (.inr hduid)]
      exact iff_of_true (.refl st) fun _ d _ h => by simp [hduid] at h
    | some duid =>
      have hmem : ∀ l ∈ clientLeases6 ctx duid st.leases s, l ∈ st.leases ∧ l.type = ctx.type :=
        fun l hl => ⟨(mem_clientLeases6.mp hl).1, (mem_clientLeases6.mp hl).2.2.2.1⟩
      have hsettle := settleLeases6_fake env hfake (ctx.session s st) hmem
        clientLeases6_nodup
      have hcall : Shrunk6 env ctx (ctx.session s st) (clientLeases6 ctx duid st.leases s)
          (after (allocateIA6 env ctx duid) (ctx.session s st)).server := by
        refine Post.after (P := fun sn' : Session6 => Shrunk6 env ctx (ctx.session s st)
          (clientLeases6 ctx duid st.leases s) sn'.server) ?_
        refine .step (run_get _) (.seq hsettle ?_)
        rintro leases sn₁ ⟨removed, hrem, hiff⟩
        refine Yields.imp (orUnreserved6_fake hfake) ?_
        intro _ sn' hsame
        refine ⟨removed, ?_, hiff⟩
        simpa using hrem.append (.of_unchanged ctx hsame)
      obtain ⟨removed, hrem, hiff⟩ := hcall
      rw [allocateLeases6, after_runIA6 hs hduid]
      exact hrem.unchanged_iff.trans (hiff.trans (forCall6_iff hs hduid).symm)

/-- A client with a lease in the pool asks again: nothing changes. -/
theorem fake_unchanged_sample6 :
    let st := serverWith6 [lease6 1 1 0x20010db8000100000000000000000010#128 .default]
    Unchanged6 st
      (after (allocateLeases6 (envAt 10 noHosts) (client6 1 true [])) st) := by
  intro st
  refine (allocateLeases6_fake_unchanged_iff rfl st).mpr ?_
  rintro s duid ⟨⟩ ⟨⟩
  exact ⟨fun _ => by decide, fun _ h => absurd rfl h⟩

/--
A client's lease is outside of the pools. The Solicit deletes it and lowers the statistic, and
another address is offered.
-/
theorem solicit_deletes_lease :
    let st := serverWith6 [lease6 1 1 0x20010db8000100000000000000000099#128 .default]
    let st' := after (allocateLeases6 (envAt 10 noHosts) (client6 1 true [])) st
    st.leases.rows.length = 1 ∧ st'.leases.rows.length = 0 ∧
      st'.stats (.subnet 1 .assignedNas) = -1 := by
  decide

end Dhcp
