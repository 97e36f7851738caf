import KeaDhcp.Infra.Ring
import KeaDhcp.Dhcpsrv.Lease

/-!
# Pools, subnets and shared networks

`src/lib/dhcpsrv/pool.cc`, `network.h`, `subnet.cc` and `shared_network.cc`. The values are the
configuration; the allocation hints that the source stores in pools and subnets are part of the
allocator's state.

A subnet keeps what `Subnet::addPool` enforces: address pools lie in its range, and the pools of one
kind are sorted by their first address.
-/

namespace Dhcp

open List Infra Bool

abbrev ClientClass := String

/-- The classes that a query belongs to. -/
abbrev ClientClasses := List ClientClass

/-- `client_class_.empty() || classes.contains(client_class_)`. -/
def classAllowed (clientClass : ClientClass) (classes : ClientClasses) : Bool :=
  clientClass == "" || classes.contains clientClass

/-! ## Address ranges -/

variable {w : Nat}

/-- The bits of the network part of a prefix of length `len`. -/
def netmask (w len : Nat) : BitVec w := BitVec.allOnes w <<< (w - len)

def firstAddrInPrefix (p : Address w) (len : Nat) : Address w := p &&& netmask w len

def lastAddrInPrefix (p : Address w) (len : Nat) : Address w := p ||| ~~~netmask w len

/-- The largest value of `uint64_t`. -/
def maxUint64 : Nat := 2 ^ 64 - 1

/-- The number of addresses from `min` to `max`, cut off at the largest 64-bit value. -/
def addrsInRange (min max : Address w) : Nat := Nat.min (max.toNat - min.toNat + 1) maxUint64

/-! ## Pools -/

structure Pool (w : Nat) where
  id : Nat
  type : LeaseType
  first : Address w
  last : Address w
  /-- `Pool6::prefix_len_`: the length of the delegated prefixes. -/
  length : Nat
  capacity : Nat
  clientClass : ClientClass
  first_le_last : first ≤ last
  deriving DecidableEq

namespace Pool

def inRange (p : Pool w) (addr : Address w) : Bool := p.first ≤ addr && addr ≤ p.last

def clientSupported (p : Pool w) (classes : ClientClasses) : Bool :=
  classAllowed p.clientClass classes

theorem inRange_first (p : Pool w) : p.inRange p.first := by
  simp [inRange, p.first_le_last]

end Pool

/-! ## Subnets -/

inductive HRMode where
  | disabled | outOfPool | global | all
  deriving DecidableEq

/--
The parameters of `Network` that allocation reads, with those of its DHCPv4 and DHCPv6
subclasses: `matchClientId` belongs to `Network4`, `preferred` to `Network6`.
-/
structure Network where
  clientClass : ClientClass
  t1 : Nat
  t2 : Nat
  valid : Nat
  preferred : Nat
  hostReservationMode : HRMode
  matchClientId : Bool
  deriving DecidableEq

def inPrefix (p : Address w) (len : Nat) (addr : Address w) : Bool :=
  firstAddrInPrefix p len ≤ addr && addr ≤ lastAddrInPrefix p len

structure Subnet (w : Nat) extends Network where
  id : SubnetID
  subnetPrefix : Address w
  prefixLen : Nat
  pools : List (Pool w)
  poolsTa : List (Pool w)
  poolsPd : List (Pool w)
  id_pos : 0 < id
  pools_sorted : pools.Pairwise fun p q => p.last < q.first
  poolsTa_sorted : poolsTa.Pairwise fun p q => p.last < q.first
  poolsPd_sorted : poolsPd.Pairwise fun p q => p.last < q.first
  pools_inRange : ∀ p ∈ pools ++ poolsTa,
    inPrefix subnetPrefix prefixLen p.first ∧ inPrefix subnetPrefix prefixLen p.last
  deriving DecidableEq

namespace Subnet

variable {p : Pool w} {addr : Address w} (s : Subnet w) {type : LeaseType} {classes : ClientClasses}

def inRange (addr : Address w) : Bool := inPrefix s.subnetPrefix s.prefixLen addr

def getPools (s : Subnet w) : LeaseType → List (Pool w)
  | .v4 | .na => s.pools
  | .ta => s.poolsTa
  | .pd => s.poolsPd

def inPool (type : LeaseType) (addr : Address w) : Bool :=
  (type = .pd || s.inRange addr) && (s.getPools type).any (·.inRange addr)

/-- `Subnet::inPool(type, addr, client_classes)`. -/
def inPoolFor (type : LeaseType) (addr : Address w) (classes : ClientClasses) : Bool :=
  (type = .pd || s.inRange addr) &&
    (s.getPools type).any fun p => p.clientSupported classes && p.inRange addr

/-- The last pool that does not begin behind `hint`, if it contains `hint` and allows the client. -/
def getPool (type : LeaseType) (classes : ClientClasses) (hint : Address w) : Option (Pool w) :=
  ((s.getPools type).takeWhile (·.first ≤ hint)).getLast?.filter fun p =>
    p.inRange hint && p.clientSupported classes

/-- `Subnet::sumPoolCapacity`, cut off at the largest 64-bit value. -/
def sumPoolCapacity : List (Pool w) → Nat → Nat
  | [], sum => sum
  | p :: ps, sum =>
    if p.capacity > maxUint64 - sum then maxUint64 else sumPoolCapacity ps (sum + p.capacity)

def getPoolCapacity (type : LeaseType) (classes : ClientClasses) : Nat :=
  sumPoolCapacity ((s.getPools type).filter (·.clientSupported classes)) 0

/-- A pool that the client may use has the address. -/
theorem inPoolFor_iff {s : Subnet w} :
    s.inPoolFor type addr classes ↔ (type = .pd ∨ s.inRange addr) ∧
      ∃ p ∈ s.getPools type, p.clientSupported classes ∧ p.inRange addr := by
  simp [inPoolFor]

theorem inPool_of_inPoolFor {s : Subnet w} (h : s.inPoolFor type addr classes) :
    s.inPool type addr := by
  obtain ⟨hrange, p, hp, -, hin⟩ := inPoolFor_iff.mp h
  simp only [inPool, and_eq_true, or_eq_true, decide_eq_true_eq, any_eq_true]
  exact ⟨hrange, p, hp, hin⟩

theorem inRange_of_pool {s : Subnet w} (hp : p ∈ s.getPools type) (hin : p.inRange addr) :
    type = .pd ∨ s.inRange addr := by
  have hmem : type = .pd ∨ p ∈ s.pools ++ s.poolsTa := by
    cases type <;> simp_all [getPools]
  refine hmem.imp_right fun h => ?_
  obtain ⟨hfirst, hlast⟩ := s.pools_inRange p h
  simp only [inRange, inPrefix, Pool.inRange, and_eq_true, decide_eq_true_eq] at *
  exact ⟨BitVec.le_trans hfirst.1 hin.1, BitVec.le_trans hin.2 hlast.2⟩

theorem inPoolFor_of_pool {s : Subnet w} (hp : p ∈ s.getPools type) (hc : p.clientSupported classes)
    (hin : p.inRange addr) : s.inPoolFor type addr classes :=
  inPoolFor_iff.mpr ⟨inRange_of_pool hp hin, p, hp, hc, hin⟩

theorem getPool_some {s : Subnet w} {hint : Address w} (h : s.getPool type classes hint = some p) :
    p ∈ s.getPools type ∧ p.inRange hint ∧ p.clientSupported classes := by
  obtain ⟨hlast, hp⟩ := Option.filter_eq_some_iff.mp h
  simp only [and_eq_true] at hp
  exact ⟨(takeWhile_sublist _).mem (mem_of_getLast? hlast), hp⟩

end Subnet

/-! ## Shared networks -/

/-- `SharedNetwork::add` rejects a subnet whose identifier is in the network already. -/
structure SharedNetwork (w : Nat) where
  clientClass : ClientClass
  subnets : List (Subnet w)
  ids_nodup : (subnets.map Subnet.id).Nodup
  deriving DecidableEq

/--
What a `SubnetPtr` of the source gives access to: the subnet, and through it the shared
network it belongs to.
-/
structure SubnetPtr (w : Nat) where
  subnet : Subnet w
  network : Option (SharedNetwork w)
  mem : ∀ n ∈ network, subnet ∈ n.subnets
  deriving DecidableEq

namespace SubnetPtr

def getID (s : SubnetPtr w) : SubnetID := s.subnet.id

def mode (s : SubnetPtr w) : HRMode := s.subnet.hostReservationMode

/-- The subnets of the shared network, in its order; a subnet outside is alone. -/
def siblings (s : SubnetPtr w) : List (SubnetPtr w) :=
  match s.network with
  | none => [s]
  | some n => n.subnets.attach.map fun t =>
      { subnet := t.1, network := some n, mem := by rintro _ ⟨⟩; exact t.2 }

/-- `Subnet4::clientSupported`, `Subnet6::clientSupported`. -/
def clientSupported (s : SubnetPtr w) (classes : ClientClasses) : Bool :=
  s.network.all (fun n => classAllowed n.clientClass classes) &&
    classAllowed s.subnet.clientClass classes

variable {u : SubnetPtr w} (classes : ClientClasses) (first : SubnetPtr w) {t s : SubnetPtr w}

/-- `getNextSubnet(first_subnet)`: the next subnet of the shared network, before `first` again. -/
def getNextSubnet (s : SubnetPtr w) : Option (SubnetPtr w) :=
  if s.network.isNone then none
  else ringNext getID s.siblings first.getID s.getID

/-- The subnets of the loop that starts at `s` and moves on by `getNextSubnet(first)`. -/
def walkFrom (s : SubnetPtr w) : List (SubnetPtr w) :=
  visit (getNextSubnet first) s.siblings.length s

/-- `getNextSubnet(first_subnet, client_classes)`: passes over subnets the client may not use. -/
def getNextSubnetFor (s : SubnetPtr w) : Option (SubnetPtr w) :=
  (walkFrom first s).tail.find? (·.clientSupported classes)

/-- The subnets of the loop that starts at `s` and moves on by `getNextSubnet(s)`. -/
def walk (s : SubnetPtr w) : List (SubnetPtr w) := walkFrom s s

/-- The subnets of the loop that starts at `s` and moves on by `getNextSubnet(s, classes)`. -/
def walkFor (s : SubnetPtr w) : List (SubnetPtr w) :=
  visit (getNextSubnetFor classes s) s.siblings.length s

/-! ### What the walks visit -/

theorem self_mem_siblings (s : SubnetPtr w) : s ∈ s.siblings := by
  obtain ⟨subnet, network, hmem⟩ := s
  cases network with
  | none => exact mem_singleton.mpr rfl
  | some n =>
    refine mem_map.mpr ⟨⟨subnet, hmem n rfl⟩, mem_attach _ _, rfl⟩

theorem network_of_sibling (h : t ∈ s.siblings) : t.network = s.network := by
  unfold siblings at h
  split at h
  · rw [mem_singleton.mp h]
  rename_i n hn
  obtain ⟨u, -, rfl⟩ := mem_map.mp h
  exact hn.symm

/-- All subnets of a network have the same siblings. -/
theorem siblings_of_sibling (h : t ∈ s.siblings) : t.siblings = s.siblings := by
  have hnet := network_of_sibling h
  cases hs : s.network with
  | none =>
    have ht : t = s := by simpa [siblings, hs] using h
    rw [ht]
  | some n => simp only [siblings, hnet, hs]

theorem sibling_trans (ht : t ∈ s.siblings) (hu : u ∈ t.siblings) : u ∈ s.siblings :=
  siblings_of_sibling ht ▸ hu

theorem siblings_ids_nodup : (s.siblings.map getID).Nodup := by
  cases hs : s.network with
  | none => simp [siblings, hs]
  | some n =>
    have hids : s.siblings.map getID = n.subnets.map Subnet.id := by
      simp only [siblings, hs, map_map]
      exact attach_map_val (f := Subnet.id)
    rw [hids]
    exact n.ids_nodup

/-- The subnets of a network have different identifiers. -/
theorem eq_of_getID_eq (ht : t ∈ s.siblings) (hu : u ∈ s.siblings) (h : t.getID = u.getID) :
    t = u :=
  inj_on_of_nodup_map siblings_ids_nodup ht hu h

theorem getNextSubnet_eq (ht : t ∈ s.siblings) :
    getNextSubnet s t = ringNext getID s.siblings s.getID t.getID := by
  unfold getNextSubnet
  cases hs : s.network with
  | none =>
    have hts : t = s := by simpa [siblings, hs] using ht
    simp [hts, hs, siblings, ringNext, Option.filter]
  | some n => simp [network_of_sibling ht, hs, siblings_of_sibling ht]

theorem walkFrom_eq (ht : t ∈ s.siblings) : walkFrom s t = ringWalk getID s.siblings s.getID t := by
  unfold walkFrom ringWalk
  rw [siblings_of_sibling ht]
  refine visit_congr (q := fun u => u ∈ s.siblings) (fun u hu => getNextSubnet_eq hu) ?_ ht
  intro u v _ hv
  exact (ringNext_mem hv).1

/-- The walk visits every subnet once. -/
theorem walk_perm (s : SubnetPtr w) : s.walk.Perm s.siblings := by
  rw [walk, walkFrom_eq (self_mem_siblings s)]
  exact ringWalk_perm siblings_ids_nodup (self_mem_siblings s)

theorem mem_walk : t ∈ s.walk ↔ t ∈ s.siblings := (walk_perm s).mem_iff

theorem walk_ids_nodup : (s.walk.map getID).Nodup :=
  ((walk_perm s).map getID).nodup_iff.mpr siblings_ids_nodup

theorem walk_eq_cons : s.walk = s :: s.walk.tail := visit_eq_cons

theorem walkFor_eq : s.walkFor classes = s :: s.walk.tail.filter (·.clientSupported classes) := by
  have hself := self_mem_siblings s
  have hloop : s.walkFor classes =
      ringWalkWhere (·.clientSupported classes) getID s.siblings s.getID s := by
    refine visit_congr (q := fun u => u ∈ s.siblings) ?_ ?_ hself
    · intro u hu
      simp only [getNextSubnetFor, ringNextWhere, walkFrom_eq hu]
    · intro u v _ hv
      exact mem_tail_ringWalk (mem_of_find?_eq_some hv)
  rw [hloop, ringWalkWhere_eq_filter siblings_ids_nodup hself, walk, walkFrom_eq hself]

/-- The subnets that the client may use, and the first one. -/
theorem mem_walkFor {classes : ClientClasses} :
    t ∈ s.walkFor classes ↔ t = s ∨ (t ∈ s.siblings ∧ t.clientSupported classes) := by
  rw [walkFor_eq, mem_cons, mem_filter, ← mem_walk (s := s), walk_eq_cons]
  constructor
  · rintro (rfl | ⟨ht, hc⟩)
    · exact .inl rfl
    · exact .inr ⟨mem_cons_of_mem s ht, hc⟩
  · rintro (rfl | ⟨ht, hc⟩)
    · exact .inl rfl
    rcases mem_cons.mp ht with rfl | ht
    · exact .inl rfl
    · exact .inr ⟨ht, hc⟩

/--
**The walk over a shared network is complete.** It ends from every subnet. From `s` on it comes to
each of the other subnets that the client may use, once, and to nothing else.
-/
theorem walk_complete (classes : ClientClasses) (s : SubnetPtr w) :
    (∀ t ∈ s.siblings, ∃ passed, Visits (getNextSubnet s) t passed ∧
        getNextSubnetFor classes s t = passed.find? (·.clientSupported classes)) ∧
      ∃ visited, Visits (getNextSubnetFor classes s) s visited ∧ visited.Nodup ∧
        ∀ t, t ∈ visited ↔ t ∈ s.siblings ∧ t ≠ s ∧ t.clientSupported classes := by
  refine ⟨fun t ht => ⟨(walkFrom s t).tail, visits_of_length_le ?_, rfl⟩, (s.walkFor classes).tail,
    visits_of_length_le ?_, ?_⟩
  · show (walkFrom s t).length ≤ _
    rw [walkFrom_eq ht, siblings_of_sibling ht]
    exact length_ringWalk_le siblings_ids_nodup (self_mem_siblings s) ht
  · have hlength := congrArg length (walk_eq_cons (s := s))
    rw [(walk_perm s).length_eq, length_cons] at hlength
    show (s.walkFor classes).length ≤ _
    rw [walkFor_eq, length_cons, hlength]
    exact Nat.succ_le_succ (length_filter_le ..)
  · have hmem : ∀ t, t ∈ s :: s.walk.tail ↔ t ∈ s.siblings := fun t => by
      rw [← walk_eq_cons, mem_walk]
    have hnodup : (s :: s.walk.tail).Nodup := by
      rw [← walk_eq_cons]
      exact walk_ids_nodup.of_map getID
    obtain ⟨hself, htail⟩ := nodup_cons.mp hnodup
    rw [walkFor_eq, tail_cons]
    refine ⟨htail.filter _, fun t => mem_filter.trans ⟨?_, ?_⟩⟩
    · rintro ⟨ht, hc⟩
      exact ⟨(hmem t).mp (mem_cons_of_mem s ht), ne_of_mem_of_not_mem ht hself, hc⟩
    · rintro ⟨ht, hne, hc⟩
      exact ⟨(mem_cons.mp ((hmem t).mpr ht)).resolve_left hne, hc⟩

theorem sibling_of_mem_walkFor {classes : ClientClasses} (h : t ∈ s.walkFor classes) :
    t ∈ s.siblings := by
  rcases mem_walkFor.mp h with rfl | ⟨ht, -⟩
  · exact self_mem_siblings t
  · exact ht

theorem mem_walkFor_of_supported {classes : ClientClasses} (hs : s.clientSupported classes) :
    t ∈ s.walkFor classes ↔ t ∈ s.siblings ∧ t.clientSupported classes := by
  rw [mem_walkFor]
  refine ⟨?_, .inr⟩
  rintro (rfl | h)
  · exact ⟨self_mem_siblings t, hs⟩
  · exact h

theorem walkFor_trans {classes : ClientClasses} (hs : s.clientSupported classes)
    (ht : t ∈ s.walkFor classes) (hu : u ∈ t.walkFor classes) : u ∈ s.walkFor classes := by
  obtain ⟨ht, hts⟩ := (mem_walkFor_of_supported hs).mp ht
  obtain ⟨hu, hus⟩ := (mem_walkFor_of_supported hts).mp hu
  exact (mem_walkFor_of_supported hs).mpr ⟨sibling_trans ht hu, hus⟩

theorem self_mem_walkFor (s : SubnetPtr w) : s ∈ s.walkFor classes :=
  mem_walkFor.mpr (.inl rfl)

end SubnetPtr

end Dhcp
