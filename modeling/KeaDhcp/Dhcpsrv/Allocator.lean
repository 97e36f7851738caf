import KeaDhcp.Dhcpsrv.Subnet

/-!
# The iterative allocator

`AllocEngine::IterativeAllocator::pickAddress` of `src/lib/dhcpsrv/alloc_engine.cc`, with the
hints that the source stores in pools and subnets as an explicit state.
-/

namespace Dhcp

open List

variable {w : Nat}

/-- The hints of the allocator: per pool, the last address tried and whether it is valid. -/
structure AllocatorState (w : Nat) where
  poolLast : Nat → Address w × Bool
  subnetLast : SubnetID → LeaseType → Address w
  /-- `last_allocated_time_`; `none` is `neg_infin`. -/
  subnetTime : SubnetID → LeaseType → Option Time

namespace AllocatorState

variable (a : AllocatorState w)

/-- `Pool::setLastAllocated`, `Pool::resetLastAllocated`. -/
def setPool (p : Pool w) (last : Address w) (valid : Bool) : AllocatorState w :=
  { a with poolLast := fun id => if id = p.id then (last, valid) else a.poolLast id }

/-- `Subnet::setLastAllocated` with the microsecond clock at `clock`. -/
def setSubnet (clock : Time) (s : Subnet w) (type : LeaseType) (last : Address w) :
    AllocatorState w :=
  { a with
    subnetLast := fun id t => if id = s.id ∧ t = type then last else a.subnetLast id t
    subnetTime := fun id t => if id = s.id ∧ t = type then some clock else a.subnetTime id t }

/-- `getLastAllocatedTime(a) > getLastAllocatedTime(b)`. -/
def usedAfter (type : LeaseType) (s t : Subnet w) : Bool :=
  match a.subnetTime s.id type, a.subnetTime t.id type with
  | none, _ => false
  | some _, none => true
  | some x, some y => y < x

end AllocatorState

variable {clock : Time} {addr : Address w} {a' : AllocatorState w} {classes : ClientClasses}
  (a : AllocatorState w) (type : LeaseType) (s : SubnetPtr w)

/-- `increaseAddress`, `increasePrefix`: the next address, or the next prefix of length `len`. -/
def increaseAddress (len : Nat) (addr : Address w) : Address w :=
  if type = .pd then addr + (1#w <<< (w - len)) else addr + 1

/-- The search for the next address, through the pools from the last used one on. -/
def pickFrom (clock : Time) (type : LeaseType) (s : Subnet w) :
    List (Pool w) → AllocatorState w → Option (Address w) × AllocatorState w
  | [], a => (none, a)
  | p :: ps, a =>
    let last := (a.poolLast p.id).1
    let valid := (a.poolLast p.id).2
    if !valid && last = p.first then
      -- The pool was (re)initialized.
      (some last, (a.setPool p last true).setSubnet clock s type last)
    else if valid && !p.inRange last then
      -- A bogus hint: start the pool over, but go on with the next one.
      pickFrom clock type s ps (a.setPool p p.first true)
    else if valid then
      let next := increaseAddress type p.length last
      if p.inRange next then
        (some next, (a.setPool p next true).setSubnet clock s type next)
      else
        -- The end of the pool.
        pickFrom clock type s ps (a.setPool p last false)
    else pickFrom clock type s ps a

/-- Rewinds every pool to its first address. -/
def rewindPools (pools : List (Pool w)) (a : AllocatorState w) : AllocatorState w :=
  pools.foldl (fun a p => a.setPool p p.first false) a

/--
`IterativeAllocator::pickAddress`. Throws `AllocFailed` without a pool that the client may
use.
-/
def pickAddress (clock : Time) (type : LeaseType) (s : Subnet w) (classes : ClientClasses)
    (a : AllocatorState w) : Option (Address w × AllocatorState w) :=
  match (s.getPools type).filter (·.clientSupported classes) with
  | [] => none
  | first :: rest =>
    let allowed := first :: rest
    let fromLast := allowed.dropWhile fun p => !p.inRange (a.subnetLast s.id type)
    let start := if fromLast.isEmpty then allowed else fromLast
    match pickFrom clock type s start a with
    | (some addr, a') => some (addr, a')
    | (none, a') =>
      some (first.first,
        ((rewindPools allowed a').setPool first first.first true).setSubnet clock s type first.first)

theorem pickFrom_mem {type : LeaseType} {s : Subnet w} {pools : List (Pool w)}
    {a : AllocatorState w} (h : pickFrom clock type s pools a = (some addr, a')) :
    ∃ p ∈ pools, p.inRange addr := by
  fun_induction pickFrom clock type s pools a with
  | case1 => simp at h
  | case2 p ps a last valid hfirst =>
    have hlast : last = p.first := by simpa using (Bool.and_eq_true_iff.mp hfirst).2
    rw [← Option.some.inj (Prod.mk.inj h).1, hlast]
    exact ⟨p, mem_cons_self, p.inRange_first⟩
  | case3 p ps a _ _ _ _ ih | case5 p ps a _ _ _ _ _ _ _ ih | case6 p ps a _ _ _ _ _ ih =>
    obtain ⟨q, hq, hin⟩ := ih h
    exact ⟨q, mem_cons_of_mem p hq, hin⟩
  | case4 p ps a last valid _ _ _ next hin =>
    exact ⟨p, mem_cons_self, Option.some.inj (Prod.mk.inj h).1 ▸ hin⟩

/-- The address picked lies in a pool of the subnet that the client may use. -/
theorem pickAddress_mem {type : LeaseType} {s : Subnet w} {a : AllocatorState w}
    (h : pickAddress clock type s classes a = some (addr, a')) :
    ∃ p ∈ s.getPools type, p.clientSupported classes ∧ p.inRange addr := by
  have hallowed : ∀ p ∈ (s.getPools type).filter (·.clientSupported classes),
      p.inRange addr → ∃ p ∈ s.getPools type, p.clientSupported classes ∧ p.inRange addr := by
    intro p hp hin
    obtain ⟨hmem, hc⟩ := mem_filter.mp hp
    exact ⟨p, hmem, hc, hin⟩
  unfold pickAddress at h
  split at h
  · exact absurd h (by simp)
  rename_i first rest hpools
  rw [hpools] at hallowed
  simp only at h
  split at h
  · rename_i addr' a'' hpick
    simp only [Option.some.injEq, Prod.mk.injEq] at h
    obtain ⟨p, hp, hin⟩ := pickFrom_mem hpick
    rw [h.1] at hin
    refine hallowed p ?_ hin
    split at hp
    · exact hp
    · exact (dropWhile_sublist _).mem hp
  · simp only [Option.some.injEq, Prod.mk.injEq] at h
    exact hallowed first mem_cons_self (h.1 ▸ first.inRange_first)

theorem pickAddress_inPoolFor {type : LeaseType} {s : Subnet w} {a : AllocatorState w}
    (h : pickAddress clock type s classes a = some (addr, a')) : s.inPoolFor type addr classes := by
  obtain ⟨p, hp, hc, hin⟩ := pickAddress_mem h
  exact Subnet.inPoolFor_of_pool hp hc hin

theorem pickAddress_isSome {type : LeaseType} {s : Subnet w}
    (h : s.getPoolCapacity type classes ≠ 0) (clock : Time) (a : AllocatorState w) :
    (pickAddress clock type s classes a).isSome := by
  unfold pickAddress
  split
  · rename_i hnil
    simp [Subnet.getPoolCapacity, hnil, Subnet.sumPoolCapacity] at h
  · simp only
    split <;> rfl

/-! ## The preferred subnet -/

/--
`getPreferredSubnet`: a subnet of the shared network with the class of the selected one and a
more recent allocation. The last such subnet wins, however recent.
-/
def getPreferredSubnet (selected : SubnetPtr w) : SubnetPtr w :=
  if selected.network.isNone then selected
  else selected.siblings.foldl (fun preferred t =>
    if t.subnet.clientClass = selected.subnet.clientClass &&
        a.usedAfter type t.subnet selected.subnet then t
    else preferred) selected

/-- The subnets for the same clients that were used after the selected one. -/
def usedSince (selected : SubnetPtr w) : List (SubnetPtr w) :=
  selected.siblings.filter fun t =>
    t.subnet.clientClass = selected.subnet.clientClass &&
      a.usedAfter type t.subnet selected.subnet

theorem usedAfter_self {s : Subnet w} : a.usedAfter type s s = false := by
  unfold AllocatorState.usedAfter
  cases a.subnetTime s.id type with
  | none => rfl
  | some x => simp

/-- A search that goes on after each success ends with the last one. -/
theorem foldl_if_eq_getLastD {α : Type} {p : α → Bool} {l : List α} {init : α} :
    l.foldl (fun found x => if p x then x else found) init = (l.filter p).getLastD init := by
  induction l generalizing init with
  | nil => rfl
  | cons x l ih =>
    rw [foldl_cons, ih, filter_cons]
    split
    · rw [getLastD_cons]
    · rfl

theorem getPreferredSubnet_eq : getPreferredSubnet a type s = (usedSince a type s).getLastD s := by
  unfold getPreferredSubnet usedSince
  split
  · rename_i hnone
    simp [SubnetPtr.siblings, Option.isNone_iff_eq_none.mp hnone, usedAfter_self]
  · exact foldl_if_eq_getLastD

theorem getPreferredSubnet_mem :
    getPreferredSubnet a type s = s ∨ getPreferredSubnet a type s ∈ usedSince a type s := by
  rw [getPreferredSubnet_eq]
  exact mem_cons.mp getLastD_mem_cons

/-- The preferred subnet is one of the shared network, for the same clients as the selected one. -/
theorem getPreferredSubnet_spec :
    getPreferredSubnet a type s ∈ s.siblings ∧
      (getPreferredSubnet a type s).subnet.clientClass = s.subnet.clientClass := by
  rcases getPreferredSubnet_mem a type s with heq | hmem
  · rw [heq]
    exact ⟨s.self_mem_siblings, rfl⟩
  · obtain ⟨hmem, hused⟩ := mem_filter.mp hmem
    exact ⟨hmem, of_decide_eq_true (Bool.and_eq_true_iff.mp hused).1⟩

theorem getPreferredSubnet_supported :
    (getPreferredSubnet a type s).clientSupported classes = s.clientSupported classes := by
  obtain ⟨hmem, hclass⟩ := getPreferredSubnet_spec a type s
  rw [SubnetPtr.clientSupported, SubnetPtr.clientSupported, hclass, SubnetPtr.network_of_sibling hmem]

end Dhcp
