import KeaDhcp.Properties.Allocate6
import KeaDhcp.Properties.Staying6

/-!
# DHCPv6 leases and the reservations of others

The conflict check of the engine looks up the reservations of the current subnet. A lease of the
client in another subnet of the shared network is compared with the wrong reservations.
-/

namespace Dhcp

open Infra ServerM6 Engine6 Sample List SubnetPtr Except

variable {env : Env} {ctx : ClientContext6} {s t : SubnetPtr 128} {st st' : Server6}
  {sn sn' : Session6} {l : Lease6} {leases ls kept : List Lease6}

/-- A source has this reservation for the host. -/
def HostMgr.Holds6 (m : HostMgr) (r : IPv6Resrv) (h : Host) : Prop := ∃ c ∈ m.sources, (r, h) ∈ c.hosts6

/--
The address or prefix is reserved, in the subnet of the lease, for a host that is not one of the
hosts found for the client.
-/
def ReservedForOther6 (env : Env) (ctx : ClientContext6) (l : Lease6) : Prop :=
  ∃ r h, env.hostMgr.Holds6 r h ∧ h.ipv6SubnetId = l.subnetId ∧ r.addr = l.addr ∧
    h ∉ ctx.hosts.map Prod.snd

theorem reservedForOther6_congr {k : Lease6} (haddr : k.addr = l.addr)
    (hsubnet : k.subnetId = l.subnetId) :
    ReservedForOther6 env ctx k ↔ ReservedForOther6 env ctx l := by
  unfold ReservedForOther6
  rw [haddr, hsubnet]

theorem not_reserved_of_get6Address (hsubnet : l.subnetId = t.getID)
    (hget : env.hostMgr.get6Address t.getID l.addr = none) : ¬ReservedForOther6 env ctx l := by
  rintro ⟨r, h, ⟨c, hc, hmem⟩, hid, haddr, -⟩
  have hnone := findSome?_eq_none_iff.mp hget c hc
  have hcontra := find?_eq_none.mp (Option.map_eq_none_iff.mp hnone) (r, h) hmem
  simp [hid, hsubnet, haddr] at hcontra

/--
The check of `t` does not tell whether the lease is reserved for another host: it is of another
subnet, or the client's host there reserves the address, which ends the check.
-/
def Unchecked6 (ctx : ClientContext6) (t : SubnetPtr 128) (l : Lease6) : Prop :=
  l.subnetId ≠ t.getID ∨
    ∃ h r, ctx.findHost l.subnetId = some h ∧ r ∈ h.ipv6Reservations ∧ r.addr = l.addr

theorem own_of_hasReservation {type : ResrvType} {len : Nat}
    (h : ctx.hasReservation l type len = .ok true) :
    ∃ h r, ctx.findHost l.subnetId = some h ∧ r ∈ h.ipv6Reservations ∧ r.addr = l.addr := by
  unfold ClientContext6.hasReservation at h
  split at h
  · cases h
  rename_i host hfind
  unfold IPv6Resrv.make at h
  split at h
  · rename_i r hmake
    split at hmake
    · cases hmake
      simp only [ok.injEq, Host.hasReservation, Host.getIPv6Reservations,
        contains_eq_mem, mem_filter, decide_eq_true_eq] at h
      exact ⟨host, _, hfind, h.1, rfl⟩
    · cases hmake
  · cases h

theorem not_reserved_of_mayKeep6 (hmode : t.mode = .all) (hkeep : mayKeep6 env ctx t l = .ok true)
    (hchecked : ¬Unchecked6 ctx t l) : ¬ReservedForOther6 env ctx l := by
  rw [Unchecked6, not_or, not_not] at hchecked
  obtain ⟨hsubnet, hown⟩ := hchecked
  refine not_reserved_of_get6Address hsubnet ?_
  rw [mayKeep6, if_neg (by simp [hmode]), keepsReserved] at hkeep
  split at hkeep
  · cases hkeep
  · rename_i hres
    exact absurd (own_of_hasReservation hres) hown
  · simp only [ok.injEq, Bool.and_eq_true, Option.isNone_iff_eq_none] at hkeep
    exact hkeep.1

/-! ## Where the leases come from -/

/-- The lease was checked in the subnet, or stands for a reservation of the client. -/
def Vetted6 (env : Env) (ctx : ClientContext6) (t : SubnetPtr 128) (l : Lease6) : Prop :=
  mayKeep6 env ctx t l = .ok true ∨ Unchecked6 ctx t l

theorem Vetted6.not_reserved (hmode : t.mode = .all) (h : Vetted6 env ctx t l)
    (hunchecked : Unchecked6 ctx t l → ¬ReservedForOther6 env ctx l) :
    ¬ReservedForOther6 env ctx l := by
  by_cases hun : Unchecked6 ctx t l
  · exact hunchecked hun
  · exact not_reserved_of_mayKeep6 hmode (h.resolve_right hun) hun

theorem unchecked_of_free {h : Host} {r : IPv6Resrv} (hhost : ctx.findHost t.getID = some h)
    (hr : r ∈ h.getIPv6Reservations ctx.resrvType) {u : SubnetPtr 128} :
    Unchecked6 ctx u (reservedLease6 env ctx sn t h r) :=
  .inr ⟨h, r, hhost, (mem_filter.mp hr).1, rfl⟩

theorem not_reserved_prolonged :
    ReservedForOther6 env ctx (prolonged6 env ctx leases l) ↔ ReservedForOther6 env ctx l := by
  unfold prolonged6
  split
  · exact reservedForOther6_congr rfl rfl
  · exact Iff.rfl

/-- What the cases 1 to 3 of `allocateLeases6` leave was vetted in a subnet of the network. -/
theorem Remains6.vetted (h : Remains6 env ctx sn leases t l) :
    t ∈ sn.subnet.siblings ∧ Vetted6 env ctx t l := by
  cases h with
  | pooled _ _ hkeep => exact ⟨sn.subnet.self_mem_siblings, .inl hkeep⟩
  | reserved _ _ hfree =>
    obtain ⟨ht, -, hhost, hr, -⟩ := findFreeReservation_some hfree
    exact ⟨ht, .inr (unchecked_of_free hhost hr)⟩
  | checked _ _ hlist hstays =>
    refine ⟨checklist6_subnet_mem hlist, .inl ?_⟩
    exact lets_iff.mp (mem_filter.mp hstays.2.mem).2

/-- What `renewLeases6` goes on with was vetted in the subnet that it began with. -/
theorem RemainsRenewed6.vetted (h : RemainsRenewed6 env ctx sn leases l) :
    Vetted6 env ctx sn.subnet l := by
  cases h with
  | pooled _ _ hkeep => exact .inl hkeep
  | checked _ _ hlist hkept =>
    rcases mem_checklist6 hlist hkept.mem with hl | ⟨host, r, hfree, rfl⟩
    · exact .inl (lets_iff.mp (mem_filter.mp hl).2)
    · obtain ⟨-, -, hhost, hr, -⟩ := findFreeReservation_some hfree
      exact .inr (unchecked_of_free hhost hr)

variable {duid : DUID} {subnets : List (SubnetPtr 128)}

theorem Picked6.not_reserved (hmode : ∀ t ∈ subnets, t.mode = .all)
    (h : Picked6 env ctx subnets st l sn') : ¬ReservedForOther6 env ctx l :=
  not_reserved_of_get6Address h.placed.subnetId_eq (h.unreserved (hmode _ h.mem))

theorem Searched6.not_reserved {r : Option Lease6} (hmode : ∀ t ∈ subnets, t.mode = .all)
    (h : Searched6 env ctx subnets st r sn') : ∀ l ∈ r.toList, ¬ReservedForOther6 env ctx l := by
  cases r with
  | none => simp
  | some lease => simpa using Picked6.not_reserved hmode h

theorem not_reserved_of_outcomes {db : Lease6Storage} {rs : List Lease6}
    (h : ls.Forall₂ (Outcome6 env ctx s db) rs) :
    (∀ r ∈ rs, ¬ReservedForOther6 env ctx r) ↔ ∀ l ∈ ls, ¬ReservedForOther6 env ctx l := by
  induction h with
  | nil => exact Iff.rfl
  | @cons l r _ _ hone _ ih =>
    have hsame : ReservedForOther6 env ctx r ↔ ReservedForOther6 env ctx l := by
      cases hone <;> exact reservedForOther6_congr rfl rfl
    rw [forall_mem_cons, forall_mem_cons, hsame]
    exact and_congr_right fun _ => ih

/-! ## Calls -/

/--
No lease that remains for `allocateLeases6` is reserved for another host behind the back of the
check.
-/
def AllocatesChecked6 (env : Env) (ctx : ClientContext6) (sn : Session6) (leases : List Lease6) : Prop :=
  ∀ t l, Remains6 env ctx sn leases t l → Unchecked6 ctx t l → ¬ReservedForOther6 env ctx l

/--
The same for `renewLeases6`, which checks in the subnet that it begins with. A fake allocation does
not store the lease of a free reservation, so that extending it ends the call.
-/
def RenewsChecked6 (env : Env) (ctx : ClientContext6) (sn : Session6) (leases : List Lease6) : Prop :=
  (∀ l, RemainsRenewed6 env ctx sn leases l → Unchecked6 ctx sn.subnet l →
      ¬ReservedForOther6 env ctx l) ∨
    (ctx.fakeAllocation = true ∧ ∃ l, RemainsRenewed6 env ctx sn leases l ∧
      Missing6 ctx sn.subnet (purged6 env ctx sn leases).server.leases l)

/-- What the checks lead to is not reserved for others, exactly under the condition. -/
theorem allocatesChecked6_iff (hmode : ∀ t ∈ sn.subnet.siblings, t.mode = .all)
    (hkept : settled6 env ctx sn leases = .ok kept) :
    (∀ l ∈ kept, ¬ReservedForOther6 env ctx l) ↔ AllocatesChecked6 env ctx sn leases := by
  constructor
  · intro hall t l hremains _
    obtain ⟨kept', hkept', hl⟩ := mem_settled6_iff.mpr ⟨t, l, hremains, rfl⟩
    rw [hkept, ok.injEq] at hkept'
    subst hkept'
    exact mt not_reserved_prolonged.mpr (hall _ hl)
  · intro hchecked k hk
    obtain ⟨t, l, hremains, rfl⟩ := mem_settled6_iff.mp ⟨kept, hkept, hk⟩
    obtain ⟨ht, hvetted⟩ := hremains.vetted
    rw [not_reserved_prolonged]
    exact hvetted.not_reserved (hmode t ht) (hchecked t l hremains)

theorem allocateIA6_not_reserved {env : Env} (hduid : ctx.duid = some duid)
    (hmode : ∀ t ∈ sn.subnet.siblings, t.mode = .all) :
    let leases := clientLeases6 ctx duid sn.server.leases sn.subnet
    Post (allocateIA6 env ctx duid) sn
      (fun ls _ => (∀ l ∈ ls, ¬ReservedForOther6 env ctx l) ↔ AllocatesChecked6 env ctx sn leases)
      fun e _ => e = .badValue ∧ AllocatesChecked6 env ctx sn leases := by
  intro leases
  have hcarried := clientLeases6_carried hduid sn
  refine .step (run_get sn) (.bind ?_)
  refine .mono (settleLeases6_post env hcarried fun l hl => (mem_clientLeases6.mp hl).1) ?_ ?_
  · rintro ls sn₁ ⟨⟨kept, hkept, hls⟩, hsettled⟩
    have hiff : (∀ l ∈ ls, ¬ReservedForOther6 env ctx l) ↔ AllocatesChecked6 env ctx sn leases := by
      rw [← allocatesChecked6_iff hmode hkept, hls]
      split
      · rw [forall_mem_map]
        refine forall₂_congr fun l _ => not_congr ?_
        exact reservedForOther6_congr (updatedLease6_addr ..) (updatedLease6_subnetId ..)
      · exact Iff.rfl
    cases ls with
    | nil =>
      refine Yields.imp allocateUnreservedLeases6_post ?_
      rintro _ sn' ⟨r, rfl, hsearch⟩
      rw [siblings_of_sibling hsettled.subnet] at hsearch
      exact iff_of_true (hsearch.not_reserved hmode) (hiff.mp fun l hl => by cases hl)
    | cons l ls => exact .pure hiff
  · rintro e sn' ⟨hbad, herr⟩
    refine ⟨hbad, fun t l hremains => ?_⟩
    obtain ⟨kept, hkept, -⟩ := mem_settled6_iff.mpr ⟨t, l, hremains, rfl⟩
    rw [herr] at hkept
    cases hkept

/-- The same for what `renewLeases6` goes on with. -/
theorem renewsChecked6_iff (hmode : sn.subnet.mode = .all)
    (hkept : settledRenewed6 env ctx sn leases = .ok kept) :
    (∀ l ∈ kept, ¬ReservedForOther6 env ctx l) ↔
      ∀ l, RemainsRenewed6 env ctx sn leases l → Unchecked6 ctx sn.subnet l →
        ¬ReservedForOther6 env ctx l := by
  constructor
  · intro hall l hremains _
    obtain ⟨kept', hkept', hl⟩ := mem_settledRenewed6_iff.mpr ⟨l, hremains, rfl⟩
    rw [hkept, ok.injEq] at hkept'
    subst hkept'
    exact mt not_reserved_prolonged.mpr (hall _ hl)
  · intro hchecked k hk
    obtain ⟨l, hremains, rfl⟩ := mem_settledRenewed6_iff.mp ⟨kept, hkept, hk⟩
    rw [not_reserved_prolonged]
    exact hremains.vetted.not_reserved hmode (hchecked l hremains)

/-- A lease that cannot be extended in the end could not be before the call. -/
theorem missing_iff_purged {db : Lease6Storage} (hkept : settledRenewed6 env ctx sn leases = .ok kept)
    (hdb : ∀ l ∈ kept, ∀ m : Lease6, m.addr = l.addr → (m ∈ db ↔
      m ∈ eraseAll (sift (mayKeep6 env ctx sn.subnet) none leases).removed sn.server.leases)) :
    (∃ l ∈ kept, Missing6 ctx sn.subnet db l) ↔ ∃ l, RemainsRenewed6 env ctx sn leases l ∧
      Missing6 ctx sn.subnet (purged6 env ctx sn leases).server.leases l := by
  rw [sift_none_eq (decides_of_settledRenewed6 hkept)] at hdb
  have hprolonged : ∀ {db : Lease6Storage} {l : Lease6},
      Missing6 ctx sn.subnet db (prolonged6 env ctx (passing6 env ctx sn leases) l) ↔
        Missing6 ctx sn.subnet db l := by
    intro db l
    unfold prolonged6
    split <;> exact Iff.rfl
  constructor
  · rintro ⟨k, hk, hmissing⟩
    have hpurged := hmissing.frame fun m haddr => (hdb k hk m haddr).symm
    obtain ⟨l, hremains, rfl⟩ := mem_settledRenewed6_iff.mp ⟨kept, hkept, hk⟩
    exact ⟨l, hremains, hprolonged.mp hpurged⟩
  · rintro ⟨l, hremains, hmissing⟩
    obtain ⟨kept', hkept', hl⟩ := mem_settledRenewed6_iff.mpr ⟨l, hremains, rfl⟩
    rw [hkept, ok.injEq] at hkept'
    subst hkept'
    exact ⟨_, hl, (hprolonged.mpr hmissing).frame fun m haddr => hdb _ hl m haddr⟩

theorem renewIA6_not_reserved {env : Env} (hduid : ctx.duid = some duid)
    (hmode : ∀ t ∈ sn.subnet.siblings, t.mode = .all) :
    let leases := clientLeases6 ctx duid sn.server.leases sn.subnet
    Post (renewIA6 env ctx duid) sn
      (fun ls _ => (∀ l ∈ ls, ¬ReservedForOther6 env ctx l) ↔ RenewsChecked6 env ctx sn leases)
      fun e _ => e ≠ .nullPointer ∧ RenewsChecked6 env ctx sn leases := by
  intro leases
  have hcarried := clientLeases6_carried hduid sn
  refine .step (run_get sn) (.bind ?_)
  refine .mono (settleRenewed6_post hcarried fun l hl => (mem_clientLeases6.mp hl).1) ?_ ?_
  · rintro ls sn₁ ⟨hkept, hls, hfake⟩
    have hiff := renewsChecked6_iff (hmode _ sn.subnet.self_mem_siblings) hkept
    cases ls with
    | nil =>
      have hchecked : RenewsChecked6 env ctx sn leases := .inl (hiff.mp fun l hl => by cases hl)
      refine Yields.seq allocateUnreservedLeases6_post ?_
      rintro _ sn₂ ⟨r, rfl, hsearch⟩
      rw [siblings_of_sibling hls.subnet] at hsearch
      cases r with
      | none => exact .pure (iff_of_true (by simp) hchecked)
      | some lease =>
        refine .mono (extendLeases6_post (s := sn.subnet) hsearch.mem (nodup_singleton _) ?_) ?_ ?_
        · simpa using ⟨sn₂.subnet, hsearch.mem, hsearch.placed.subnetId_eq⟩
        · rintro rs sn' ⟨hout, -⟩
          exact iff_of_true ((not_reserved_of_outcomes hout).mpr (hsearch.not_reserved hmode)) hchecked
        · rintro e sn' ⟨rfl, -⟩
          exact ⟨by simp, hchecked⟩
    | cons l ls =>
      refine .bind (.pure (.mono (extendLeases6_post hls.subnet hls.nodup hls.network) ?_ ?_))
      · rintro rs sn' ⟨hout, -, hfound⟩
        rw [not_reserved_of_outcomes hout, hiff, RenewsChecked6, or_iff_left]
        rintro ⟨htrue, hmissing⟩
        obtain ⟨k, hk, hmissing⟩ := (missing_iff_purged hkept (hfake htrue)).mpr hmissing
        exact hfound k hk hmissing
      · rintro e sn' ⟨rfl, k, hk, hmissing⟩
        refine ⟨by simp, .inr ?_⟩
        -- In a real allocation there is a lease to extend at each address.
        cases hctx : ctx.fakeAllocation with
        | false =>
          obtain ⟨m, hm, haddr⟩ := hls.inUse hctx k hk
          exact absurd haddr (hmissing.2 m hm)
        | true => exact ⟨rfl, (missing_iff_purged hkept (hfake hctx)).mp ⟨k, hk, hmissing⟩⟩
  · rintro e sn' ⟨rfl, herr⟩
    refine ⟨by simp, .inl fun l hremains => ?_⟩
    obtain ⟨kept, hkept, -⟩ := mem_settledRenewed6_iff.mpr ⟨l, hremains, rfl⟩
    rw [herr] at hkept
    cases hkept

/--
**When no returned lease is reserved for another host.** In a network whose subnets honour all
reservations, exactly if no lease of the client is reserved for another host although the check does
not tell: because it was made in another subnet, or because a host of the client reserves the same
address. A renewal that is not real is also safe if it cannot extend a lease.
-/
theorem returned_unreserved6_iff (env : Env) (ctx : ClientContext6) (st : Server6)
    (hmode : ∀ s, ctx.subnet = some s → ∀ t ∈ s.siblings, t.mode = .all) :
    (∃ r st', allocateLeases6 env ctx st = .ok r st' ∧
      ((∀ l ∈ r.leases, ¬ReservedForOther6 env ctx l) ↔ ForCall6 ctx st (AllocatesChecked6 env ctx))) ∧
    ∃ r st', renewLeases6 env ctx st = .ok r st' ∧
      ((∀ l ∈ r.leases, ¬ReservedForOther6 env ctx l) ↔ ForCall6 ctx st (RenewsChecked6 env ctx)) := by
  constructor
  · refine runIA6_forCall (R := fun ls _ p => (∀ l ∈ ls, ¬ReservedForOther6 env ctx l) ↔ p)
      (by simp) fun s duid hs hduid => ?_
    refine .mono (allocateIA6_not_reserved hduid (hmode s hs)) (fun _ _ h => h) ?_
    rintro e sn' ⟨rfl, hchecked⟩
    exact ⟨by simp, iff_of_true (by simp) hchecked⟩
  · refine runIA6_forCall (R := fun ls _ p => (∀ l ∈ ls, ¬ReservedForOther6 env ctx l) ↔ p)
      (by simp) fun s duid hs hduid => ?_
    refine .mono (renewIA6_not_reserved hduid (hmode s hs)) (fun _ _ h => h) ?_
    rintro e sn' ⟨hnull, hchecked⟩
    exact ⟨hnull, iff_of_true (by simp) hchecked⟩

/-- A client whose lease in the current subnet is reserved for another client loses it. -/
theorem returned_unreserved_sample6 :
    let env := envAt 10 (hostsOf (host6 2 1 0x20010db8000100000000000000000012#128))
    let ctx := client6 1 false []
    let st := serverWith6 [lease6 1 1 0x20010db8000100000000000000000012#128 .default]
    (∃ r st', allocateLeases6 env ctx st = .ok r st' ∧
      ∀ l ∈ r.leases, ¬ReservedForOther6 env ctx l) ∧
    ∃ r st', renewLeases6 env ctx st = .ok r st' ∧ ∀ l ∈ r.leases, ¬ReservedForOther6 env ctx l := by
  intro env ctx st
  have hmode : ∀ s, ctx.subnet = some s → ∀ t ∈ s.siblings, t.mode = .all := by
    decide
  have hgo : ∀ l ∈ clientLeases6 ctx (duid 1) st.leases ptr61,
      mayKeep6 env ctx ptr61 l ≠ .ok true := by decide
  obtain ⟨⟨r, st', hrun, hiff⟩, r', st'', hrun', hiff'⟩ := returned_unreserved6_iff env ctx st hmode
  refine ⟨⟨r, st', hrun, hiff.mpr ?_⟩, r', st'', hrun', hiff'.mpr ?_⟩
  · rintro s duid ⟨⟩ ⟨⟩ t l hremains
    cases hremains with
    | pooled _ hl hkeep => exact absurd hkeep (hgo l hl)
    | reserved h | checked h => exact absurd rfl h
  · rintro s duid ⟨⟩ ⟨⟩
    refine .inl fun l hremains => ?_
    cases hremains with
    | pooled _ hl hkeep => exact absurd hkeep (hgo l hl)
    | checked h => exact absurd rfl h

/--
A client of subnet 1 has a lease in subnet 2, for an address that is reserved there for another
client. The check looks up the address in subnet 1, and the client is given it again.
-/
theorem lease_of_other_subnet_returned :
    let addr : Address 128 := 0x20010db8000200000000000000000012#128
    let env := envAt 10 (hostsOf (host6 2 2 addr))
    let ctx := client6 1 false []
    let st := serverWith6 [lease6 1 2 addr .default]
    findReservation6 env ctx = .ok ctx.hosts ∧ (∀ t ∈ ptr61.siblings, t.mode = .all) ∧
      (returned6 (allocateLeases6 env ctx) st).map (fun l => (l.addr, l.subnetId)) = [(addr, 2)] ∧
      ¬∀ l ∈ returned6 (allocateLeases6 env ctx) st, ¬ReservedForOther6 env ctx l := by
  intro addr env ctx st
  have hlease : updatedLease6 env ctx "" (lease6 1 2 addr .default) ∈
      returned6 (allocateLeases6 env ctx) st := by decide
  refine ⟨by decide, by decide, by decide, fun h => h _ hlease ?_⟩
  refine ⟨_, host6 2 2 addr, ⟨_, mem_cons_self, mem_cons_self⟩, rfl, rfl, ?_⟩
  simp [ctx, client6]

end Dhcp
