import Mathlib.Data.List.Sort
import KeaDhcp.Infra.Exec
import KeaDhcp.Infra.UpperBound
import KeaDhcp.Dhcpsrv.Subnet

/-!
# Adding pools to a subnet

The part of `src/lib/dhcpsrv/subnet.cc` that changes and searches the pool collections. A subnet
is being configured here: nothing is assumed of its pools. `std::upper_bound` is the search of
`Infra.upperBound`, and `std::sort` is an insertion sort.
-/

namespace Dhcp

open Infra

variable {w : Nat}

/-- The exceptions of `Subnet::addPool` and of `checkType`. -/
inductive PoolError where
  | invalidType | outOfRange | overlaps
  deriving DecidableEq

structure SubnetPools (w : Nat) where
  /-- The subnet is a `Subnet6`. -/
  isV6 : Bool
  subnetPrefix : Address w
  prefixLen : Nat
  pools : List (Pool w)
  poolsTa : List (Pool w)
  poolsPd : List (Pool w)
  deriving DecidableEq

namespace SubnetPools

/-- A subnet whose pools have not been configured yet. -/
def fresh (isV6 : Bool) (subnetPrefix : Address w) (prefixLen : Nat) : SubnetPools w :=
  { isV6 := isV6, subnetPrefix := subnetPrefix, prefixLen := prefixLen
    pools := [], poolsTa := [], poolsPd := [] }

/-- `Subnet4::checkType`, `Subnet6::checkType`. -/
def checkType (s : SubnetPools w) : LeaseType → Bool
  | .v4 => !s.isV6
  | .na | .ta | .pd => s.isV6

variable (s : SubnetPools w) (type : LeaseType) (pool : Pool w)

def inRange (addr : Address w) : Bool :=
  inPrefix s.subnetPrefix s.prefixLen addr

/-- `getPools`, behind its check of the type. -/
def getPools (s : SubnetPools w) : LeaseType → List (Pool w)
  | .v4 | .na => s.pools
  | .ta => s.poolsTa
  | .pd => s.poolsPd

/-- An assignment through `getPoolsWritable`. -/
def setPools (s : SubnetPools w) (pools : List (Pool w)) : LeaseType → SubnetPools w
  | .v4 | .na => { s with pools := pools }
  | .ta => { s with poolsTa := pools }
  | .pd => { s with poolsPd := pools }

/-- The pool before the first one that begins behind `addr`, and that one. -/
def neighbours (pools : List (Pool w)) (addr : Address w) : Option (Pool w) × Option (Pool w) :=
  let ub := upperBound (fun p => addr < p.first) pools
  (if ub ≠ 0 then pools[ub - 1]? else none, pools[ub]?)

/-- `poolOverlaps`: the pool conflicts with one of its neighbours in the collection. -/
def poolOverlaps : Bool :=
  let (pool1, pool3) := neighbours (s.getPools type) pool.first
  pool1.any (fun p => p.first = pool.first) || pool3.any (fun p => p.first ≤ pool.last) ||
    pool1.any (fun p => pool.first ≤ p.last)

/-- The collections that `addPool` compares a pool with. -/
def overlapsAny : Bool :=
  if pool.type = .v4 then s.poolOverlaps .v4 pool
  else s.poolOverlaps .na pool || s.poolOverlaps .pd pool || s.poolOverlaps .ta pool

/-- Sorts a collection by the first address. -/
def sortPools (pools : List (Pool w)) : List (Pool w) :=
  pools.insertionSort fun p q => p.first ≤ q.first

/-- `addPool`: all checks come before the collection is changed. -/
def addPool : EStateM PoolError (SubnetPools w) Unit := do
  let s ← get
  if !s.checkType pool.type then
    throw .invalidType
  if pool.type ≠ .pd && !(s.inRange pool.first && s.inRange pool.last) then
    throw .outOfRange
  if s.overlapsAny pool then
    throw .overlaps
  modify fun s => s.setPools (s.getPools pool.type ++ [pool]) pool.type
  modify fun s => s.setPools (sortPools (s.getPools pool.type)) pool.type

def delPools : EStateM PoolError (SubnetPools w) Unit := do
  let s ← get
  if !s.checkType type then
    throw .invalidType
  set (s.setPools [] type)

def getPool (classes : ClientClasses) (hint : Address w) : Except PoolError (Option (Pool w)) :=
  if !s.checkType type then .error .invalidType
  else .ok ((neighbours (s.getPools type) hint).1.filter fun p =>
    p.inRange hint && p.clientSupported classes)

/-- `inPool(type, addr, client_classes)`. The range is checked first, the type only after it. -/
def inPool (addr : Address w) (classes : ClientClasses) : Except PoolError Bool :=
  if type ≠ .pd && !s.inRange addr then .ok false
  else if !s.checkType type then .error .invalidType
  else .ok ((s.getPools type).any fun p => p.clientSupported classes && p.inRange addr)

/-! ## Configuring a subnet -/

inductive Change (w : Nat) where
  | add (pool : Pool w)
  | del (type : LeaseType)

/-- The subnet after a change, also after one that throws. -/
def step : Change w → SubnetPools w → SubnetPools w
  | .add pool => after (addPool pool)
  | .del type => after (delPools type)

/-! ### What the changes do -/

@[simp] theorem getPools_setPools {ps : List (Pool w)} {type : LeaseType} :
    (s.setPools ps type).getPools type = ps := by
  cases type <;> rfl

@[simp] theorem setPools_setPools {ps qs : List (Pool w)} {type : LeaseType} :
    (s.setPools ps type).setPools qs type = s.setPools qs type := by
  cases type <;> rfl

/-- The subnet with one pool more, in its place. -/
def withPool : SubnetPools w :=
  s.setPools (sortPools (s.getPools pool.type ++ [pool])) pool.type

/-- The first check of `addPool` that fails. -/
def addPoolError : Option PoolError :=
  if !s.checkType pool.type then some .invalidType
  else if pool.type ≠ .pd && !(s.inRange pool.first && s.inRange pool.last) then some .outOfRange
  else if s.overlapsAny pool then some .overlaps
  else none

theorem addPool_run {s : SubnetPools w} :
    addPool pool s = match s.addPoolError pool with
      | some e => .error e s
      | none => .ok () (s.withPool pool) := by
  unfold addPool addPoolError
  simp only [run_bind, run_get]
  split
  · rfl
  split
  · rfl
  split
  · rfl
  · simp only [run_bind, run_modify, getPools_setPools, setPools_setPools, withPool]

theorem delPools_run {s : SubnetPools w} :
    delPools type s =
      if s.checkType type then .ok () (s.setPools [] type) else .error .invalidType s := by
  unfold delPools
  simp only [run_bind, run_get]
  cases s.checkType type <;> rfl

end SubnetPools

end Dhcp
