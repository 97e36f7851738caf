import KeaDhcp.Infra.Sweep
import KeaDhcp.Properties.Candidates4
import KeaDhcp.Properties.PickOrder

/-!
# Which addresses the engine overlooks

`allocateUnreservedLease4` tries as many candidates as the client's pools have addresses. What it
finds depends on where the allocator's queue stands.
-/

namespace Dhcp

open Infra AllocatorState List SubnetPtr Pool Subnet BitVec

variable {w : Nat} {type : LeaseType} {classes : ClientClasses}

section Candidates

variable {env : Env} {ctx : ClientContext4} {s : SubnetPtr 32} {st : Server4}

/-! ## As many candidates as the pools have addresses -/

/-- The pools of a DHCPv4 subnet: different objects, with the capacity that `Pool4` computes. -/
structure IsPools4 (s : Subnet 32) : Prop where
  ids : ((s.getPools .v4).map (·.id)).Nodup
  capacity : ∀ p ∈ s.getPools .v4, p.capacity = addrsInRange p.first p.last

variable {ps : List (Pool w)} {a : AllocatorState 32}

/-- Disjoint pools have no more addresses together than the address space behind `lo`. -/
theorem addrs_length_le {lo : Nat} (hlo : lo ≤ 2 ^ w)
    (hsorted : ps.Pairwise fun p q => p.last < q.first) (hfirst : ∀ p ∈ ps, lo ≤ p.first.toNat) :
    (ps.flatMap addrs).length + lo ≤ 2 ^ w := by
  induction ps generalizing lo with
  | nil => simpa using hlo
  | cons p ps ih =>
    rw [pairwise_cons] at hsorted
    have hle := le_def.mp p.first_le_last
    have hp := hfirst p mem_cons_self
    have htail : (ps.flatMap addrs).length + (p.last.toNat + 1) ≤ 2 ^ w :=
      ih (by omega) hsorted.2 fun q hq => lt_def.mp (hsorted.1 q hq)
    rw [flatMap_cons, length_append, length_addrs]
    omega

theorem sumPoolCapacity_eq (hcapacity : ∀ p ∈ ps, p.capacity = p.addrs.length) (sum : Nat)
    (hmax : sum + (ps.flatMap addrs).length ≤ maxUint64) :
    sumPoolCapacity ps sum = sum + (ps.flatMap addrs).length := by
  induction ps generalizing sum with
  | nil => rfl
  | cons p ps ih =>
    have hp := hcapacity p mem_cons_self
    rw [flatMap_cons, length_append] at hmax ⊢
    rw [sumPoolCapacity, if_neg (by omega),
      ih (fun q hq => hcapacity q (mem_cons_of_mem p hq)) _ (by omega)]
    omega

theorem getPoolCapacity_eq {s : Subnet 32} (hpools : IsPools4 s) :
    s.getPoolCapacity .v4 classes = (s.allAddrs .v4 classes).length := by
  have hle := addrs_length_le (Nat.zero_le _) (s.allowedPools_sorted .v4 classes)
    fun p _ => Nat.zero_le _
  have hcapacity : ∀ p ∈ s.allowedPools .v4 classes, p.capacity = p.addrs.length := by
    intro p hp
    have hfirst := le_def.mp p.first_le_last
    rw [hpools.capacity p (mem_filter.mp hp).1, addrsInRange, maxUint64, length_addrs,
      Nat.min_eq_min]
    omega
  have hsum := sumPoolCapacity_eq hcapacity 0 (by rw [maxUint64]; omega)
  rw [Nat.zero_add] at hsum
  exact hsum

/-! ## One round -/

theorem picks_eq_sweep (hids : ((s.subnet.getPools .v4).map (·.id)).Nodup)
    (hallowed : s.subnet.allowedPools .v4 classes ≠ []) {clock : Time} {n : Nat}
    (hkept : a.KeptIn (s.subnet.getPools .v4)) :
    (picks clock s classes n a).1 =
      sweep (s.subnet.allAddrs .v4 classes) (s.subnet.pending .v4 classes a) n := by
  induction n generalizing a with
  | zero => rfl
  | succ n ih =>
    obtain ⟨x, a', hpick, hkept', htakes⟩ := pickAddress_takes hids (by decide) hkept hallowed
    rw [picks_succ hpick, sweep_succ htakes, ih hkept']

/--
**No address is overlooked for good.** Wherever other clients have left the cursors, the picks for a
client take what lies ahead of them, and then all addresses of its pools in their order.
-/
theorem picks_cover (classes : ClientClasses) (fresh : AllocatorState 32) (hpools : IsPools4 s.subnet)
    (hallowed : s.subnet.allowedPools .v4 classes ≠ []) (hfresh : IsFresh s.subnet .v4 fresh)
    (hreach : PicksReach s.subnet .v4 fresh a) (clock : Time) :
    let ahead := s.subnet.pending .v4 classes a
    let all := s.subnet.allAddrs .v4 classes
    (picks clock s classes (ahead.length + all.length) a).1 = ahead ++ all := by
  intro ahead all
  have hkept := hreach.kept hfresh hpools.ids (by decide)
  rw [picks_eq_sweep hpools.ids hallowed hkept, sweep_eq_take (Nat.le_refl _), ← length_append,
    take_length]

theorem candidatesFrom_alone (hnetwork : s.network = none) :
    candidatesFrom env classes s a =
      (picks env.clock s classes (maxAttempts env .v4 s.subnet classes) a).1.map (s, ·) := by
  have hpreferred : getPreferredSubnet a .v4 s = s := by simp [getPreferredSubnet, hnetwork]
  have hwalk : s.walkFor classes = [s] := by
    have hlen := (s.walk_perm).length_eq
    rw [walk_eq_cons, siblings, hnetwork] at hlen
    rw [walkFor_eq, length_eq_zero_iff.mp (Nat.succ.inj hlen), filter_nil]
  rw [candidatesFrom, hpreferred, hwalk, candidates4, candidates4, append_nil]

/-- A lease is found exactly if one of as many candidates as the client has addresses is usable. -/
theorem leaseFound_iff (hnetwork : s.network = none) (hpools : IsPools4 s.subnet)
    (hkept : st.allocator.KeptIn (s.subnet.getPools .v4)) (hattempts : env.attempts = 0) :
    LeaseFound env ctx s st ↔ ∃ x ∈ sweep (s.subnet.allAddrs .v4 ctx.classes)
      (s.subnet.pending .v4 ctx.classes st.allocator) (s.subnet.allAddrs .v4 ctx.classes).length,
        Usable env ctx s st.leases x := by
  have hmax : maxAttempts env .v4 s.subnet ctx.classes =
      (s.subnet.allAddrs .v4 ctx.classes).length := by
    rw [maxAttempts, getPoolCapacity_eq hpools]
    split <;> simp_all
  rw [leaseFound_iff_candidates, candidatesFrom_alone hnetwork, hmax]
  by_cases hallowed : s.subnet.allowedPools .v4 ctx.classes = []
  · have hnone : s.subnet.allAddrs .v4 ctx.classes = [] := by
      rw [allAddrs, hallowed]
      rfl
    simp [hnone, picks, sweep]
  · rw [picks_eq_sweep hpools.ids hallowed hkept]
    simp only [mem_map, exists_exists_and_eq_and]

/-- Some address of the pools of the client is free, or its lease has expired, and is not reserved. -/
def HasUsable (env : Env) (ctx : ClientContext4) (s : SubnetPtr 32) (db : Lease4Storage) : Prop :=
  ∃ p ∈ s.subnet.getPools .v4, p.clientSupported ctx.classes ∧
    ∃ x, p.inRange x ∧ Usable env ctx s db x

/--
Such an address comes early enough: it lies ahead of the cursors, or among the first addresses of
the client's pools, as many as are needed for one candidate per address.
-/
def UsableInTime (env : Env) (ctx : ClientContext4) (s : SubnetPtr 32) (st : Server4) : Prop :=
  ∃ x ∈ (s.subnet.pending .v4 ctx.classes st.allocator ++ s.subnet.allAddrs .v4 ctx.classes).take
    (s.subnet.allAddrs .v4 ctx.classes).length, Usable env ctx s st.leases x

/--
A usable address leads to a lease exactly if one comes in time. The cursors were left where they
are by clients with other classes, and may lie behind pools that hold a usable address.
-/
theorem usable_address_found_iff (fresh : AllocatorState 32) (hnetwork : s.network = none)
    (hpools : IsPools4 s.subnet) (hfresh : IsFresh s.subnet .v4 fresh)
    (hreach : PicksReach s.subnet .v4 fresh st.allocator) (hattempts : env.attempts = 0) :
    (HasUsable env ctx s st.leases → LeaseFound env ctx s st) ↔
      (HasUsable env ctx s st.leases → UsableInTime env ctx s st) := by
  have hkept := hreach.kept hfresh hpools.ids (by decide)
  rw [leaseFound_iff hnetwork hpools hkept hattempts, sweep_eq_take (Nat.le_add_left _ _)]
  rfl

end Candidates

/-! ### Two pools for two classes -/

namespace Sample

/-- The cursors as the configuration leaves them. -/
def freshCursors : AllocatorState 32 :=
  { poolLast := fun id => if id = 1 then (0xC000020A#32, false) else (0xC0000214#32, false)
    subnetLast := fun _ _ => 0xC00002FF#32
    subnetTime := fun _ _ => none }

/-- A blue client has picked an address, and then a red one. -/
def usedCursors : AllocatorState 32 :=
  pickStep colours.subnet .v4 (0, ["red"]) (pickStep colours.subnet .v4 (0, ["blue"]) freshCursors)

/-- All addresses but the first blue one are leased. -/
def oneFree (a : AllocatorState 32) : Server4 :=
  { serverWith [lease 1 1 0xC000020A#32, lease 2 1 0xC000020B#32, lease 3 1 0xC0000215#32] with
    allocator := a }

/-- A client with these classes. -/
def coloured (n : UInt8) (classes : ClientClasses) : ClientContext4 :=
  { client n 0 false [] with subnet := some colours, classes := classes }

theorem colours_pools : IsPools4 colours.subnet := ⟨by decide, by decide⟩

theorem freshCursors_fresh : IsFresh colours.subnet .v4 freshCursors := ⟨by decide, by decide⟩

theorem usedCursors_reached : PicksReach colours.subnet .v4 freshCursors usedCursors :=
  .next (0, ["red"]) (.next (0, ["blue"]) .start trivial) trivial

end Sample

open Sample in
/-- The client comes to the first blue address in the second round. -/
theorem picks_cover_sample : ∃ n, 0xC0000214#32 ∈ (picks 0 colours ["red", "blue"] n usedCursors).1 := by
  have hpicks := picks_cover ["red", "blue"] freshCursors colours_pools (by decide) freshCursors_fresh
    usedCursors_reached 0
  exact ⟨_, (congrArg (0xC0000214#32 ∈ ·) hpicks).mpr (by decide)⟩

open Sample in
/-- With the cursors at the beginning, the free blue address is found. -/
theorem usable_address_found_sample :
    LeaseFound (envAt 10 noHosts) (coloured 9 ["red", "blue"]) colours (oneFree freshCursors) :=
  have hreach : PicksReach colours.subnet .v4 freshCursors (oneFree freshCursors).allocator := .start
  (usable_address_found_iff freshCursors rfl colours_pools freshCursors_fresh hreach rfl).mpr
    (fun _ => ⟨0xC0000214#32, by decide, by decide⟩)
    ⟨_, mem_cons_of_mem _ mem_cons_self, by decide, 0xC0000214#32, by decide, by decide⟩

open Sample in
/--
Four candidates for a client of both classes: the second red address, the second blue one, and
then both red ones from the beginning. The first blue address is free and not tried.
-/
theorem free_address_overlooked :
    PicksReach colours.subnet .v4 freshCursors usedCursors ∧
      HasUsable (envAt 10 noHosts) (coloured 9 ["red", "blue"]) colours
        (oneFree usedCursors).leases ∧
      ¬LeaseFound (envAt 10 noHosts) (coloured 9 ["red", "blue"]) colours (oneFree usedCursors) := by
  refine ⟨usedCursors_reached, ?_, ?_⟩
  · exact ⟨_, mem_cons_of_mem _ mem_cons_self, by decide, 0xC0000214#32, by decide,
      by decide⟩
  rintro ⟨r, st', hrun, hfound⟩
  have hnone : (allocateUnreservedLease4 (envAt 10 noHosts) (coloured 9 ["red", "blue"]) colours
      |>.run' (oneFree usedCursors)).all (·.newLease.isNone) = true := by decide
  delta EStateM.run' EStateM.run at hnone
  rw [hrun] at hnone
  simp [Option.isNone_iff_eq_none.mp hnone] at hfound

end Dhcp
