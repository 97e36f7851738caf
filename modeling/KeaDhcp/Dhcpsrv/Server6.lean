import KeaDhcp.Dhcpsrv.Engine

/-!
# The state of the DHCPv6 server and the reclamation of expired leases

The singletons that the DHCPv6 code works on are one record, as for DHCPv4. Over it, the DHCPv6
part of lease reclamation in `src/lib/dhcpsrv/alloc_engine.cc`.
-/

namespace Dhcp

open Infra

structure Server6 where
  leases : Lease6Storage
  stats : Stats
  allocator : AllocatorState 128
  ncrs : List (NameChangeRequest 128)

abbrev ServerM6 := EStateM EngineError Server6

/-! ## Primitive effects -/

namespace ServerM6

def addValue (k : StatKey) (v : Int) : ServerM6 Unit :=
  modify fun st => { st with stats := st.stats.addValue k v }

def queueNCR (env : Env) (change : NameChangeType) (l : Lease6) : ServerM6 Unit :=
  modify fun st => { st with ncrs := st.ncrs ++ (queueNCR6 env.d2 change l).toList }

def getLease6 (type : LeaseType) (addr : Address 128) : ServerM6 (Option Lease6) := do
  return (← get).leases.getLease6 type addr

def addLease (l : Lease6) : ServerM6 Bool := do
  let st ← get
  let (status, leases) := st.leases.addLease l
  set { st with leases := leases }
  return status

def updateLease6 (l : Lease6) : ServerM6 Unit := do
  let st ← get
  match st.leases.updateLease6 l with
  | some leases => set { st with leases := leases }
  | none => throw .noSuchLease

def deleteLease (addr : Address 128) : ServerM6 Bool := do
  let st ← get
  let (status, leases) := st.leases.deleteLease addr
  set { st with leases := leases }
  return status

variable {st : Server6}

@[simp] theorem addValue_run (k : StatKey) (v : Int) :
    addValue k v st = .ok () { st with stats := st.stats.addValue k v } := rfl

@[simp] theorem queueNCR_run (env : Env) (change : NameChangeType) (l : Lease6) :
    queueNCR env change l st =
      .ok () { st with ncrs := st.ncrs ++ (queueNCR6 env.d2 change l).toList } := rfl

@[simp] theorem getLease6_run {type : LeaseType} {addr : Address 128} :
    getLease6 type addr st = .ok (st.leases.getLease6 type addr) st := rfl

@[simp] theorem deleteLease_run (addr : Address 128) :
    deleteLease addr st =
      .ok (st.leases.find addr).isSome { st with leases := st.leases.erase addr } := rfl

theorem addLease_run {l : Lease6} (h : st.leases.getLease6 l.type l.addr = none) :
    addLease l st = .ok true { st with leases := st.leases.insert l } := by
  simp [addLease, run_bind, run_map, Lease6Storage.addLease, h]

theorem updateLease6_run {l old : Lease6} (h : st.leases.find l.addr = some old) :
    updateLease6 l st = .ok () { st with leases := st.leases.replace l } := by
  simp [updateLease6, run_bind, Lease6Storage.updateLease6, h]

theorem updateLease6_missing {l : Lease6} (h : st.leases.find l.addr = none) :
    updateLease6 l st = .error .noSuchLease st := by
  simp [updateLease6, run_bind, Lease6Storage.updateLease6, h]

end ServerM6

/-! ## Reclamation -/

open ServerM6

variable (env : Env) (l : Lease6)

/-- `reclaimDeclined` for a lease in the declined state: the decline statistics. -/
def reclaimDeclined6 : ServerM6 Unit := do
  addValue (.subnet l.subnetId .declinedAddresses) (-1)
  addValue (.global .declinedAddresses) (-1)
  addValue (.global .reclaimedDeclinedAddresses) 1
  addValue (.subnet l.subnetId .reclaimedDeclinedAddresses) 1

/-- The lease as reclamation leaves it in the database when it is kept. -/
def Lease6.reclaimed : Lease6 :=
  { l with hostname := "", fqdnFwd := false, fqdnRev := false, state := .expiredReclaimed }

def reclaimLeaseInDatabase6 (removeLease : Bool) : ServerM6 Unit := do
  if removeLease then
    let _ ← deleteLease l.addr
  else
    updateLease6 l.reclaimed

/-- The statistic of assigned leases that reclamation lowers for a lease of this type. -/
def LeaseType.assignedStat : LeaseType → Option StatName
  | .na => some .assignedNas
  | .pd => some .assignedPds
  | .ta | .v4 => none

def reclaimExpiredLease6 (mode : DbReclaimMode) (l : Lease6) : ServerM6 Unit := do
  queueNCR env .remove l
  -- A declined lease has no client any more and is always removed.
  if l.stateDeclined then reclaimDeclined6 l
  if mode ≠ .leaveUnchanged then
    reclaimLeaseInDatabase6 l (l.stateDeclined || mode = .remove)
  match l.type.assignedStat with
  | some name => addValue (.subnet l.subnetId name) (-1)
  | none => pure ()
  addValue (.global .reclaimedLeases) 1
  addValue (.subnet l.subnetId .reclaimedLeases) 1

/-- `reclaimExpiredLease(lease)`, as allocation calls it: nothing happens to a reclaimed lease. -/
def reclaimBeforeUse6 : ServerM6 Unit :=
  if l.stateExpiredReclaimed then pure () else reclaimExpiredLease6 env .leaveUnchanged l

/-- Reclaims leases one by one; a lease whose reclamation throws is passed over. -/
def reclaimEach6 (env : Env) (mode : DbReclaimMode) : List Lease6 → ServerM6 Unit
  | [] => pure ()
  | l :: ls => do
    tryCatch (reclaimExpiredLease6 env mode l) fun _ => pure ()
    reclaimEach6 env mode ls

/--
The leases that one call of `reclaimExpiredLeases6` works through; `inTime` is the number of
leases after which the stop watch reports the timeout, if it does.
-/
def dueLeases6 (db : Lease6Storage) (maxLeases : Nat) (inTime : Option Nat) : List Lease6 :=
  let due :=
    if maxLeases > 0 then (db.getExpiredLeases6 env.now (maxLeases + 1)).take maxLeases
    else db.getExpiredLeases6 env.now maxLeases
  match inTime with
  | none => due
  | some n => due.take (max n 1)

def reclaimExpiredLeases6 (maxLeases : Nat) (inTime : Option Nat) (removeLease : Bool) :
    ServerM6 Unit := do
  reclaimEach6 env (if removeLease then .remove else .update)
    (dueLeases6 env (← get).leases maxLeases inTime)

def deleteExpiredReclaimedLeases6 (env : Env) (secs : Nat) : ServerM6 Unit :=
  modify fun st => { st with leases := st.leases.deleteExpiredReclaimedLeases6 env.now secs }

end Dhcp
