import KeaDhcp.Dhcpsrv.Engine

/-!
# The state of the DHCPv4 server and the reclamation of expired leases

The singletons that the DHCPv4 code works on are one record: the lease database, the
statistics, the hints of the allocator and the name change requests sent so far. Over it, the
DHCPv4 part of lease reclamation in `src/lib/dhcpsrv/alloc_engine.cc`.
-/

namespace Dhcp

open Infra

structure Server4 where
  leases : Lease4Storage
  stats : Stats
  allocator : AllocatorState 32
  ncrs : List (NameChangeRequest 32)

abbrev Engine4 := EStateM EngineError Server4

/-! ## Primitive effects -/

namespace Engine4

def addValue (k : StatKey) (v : Int) : Engine4 Unit :=
  modify fun st => { st with stats := st.stats.addValue k v }

def queueNCR (env : Env) (change : NameChangeType) (l : Lease4) : Engine4 Unit :=
  modify fun st => { st with ncrs := st.ncrs ++ (queueNCR4 env.d2 change l).toList }

def getLease4 (addr : Address 32) : Engine4 (Option Lease4) := do
  return (← get).leases.getLease4 addr

def addLease (l : Lease4) : Engine4 Bool := do
  let st ← get
  let (status, leases) := st.leases.addLease l
  set { st with leases := leases }
  return status

def updateLease4 (l : Lease4) : Engine4 Unit := do
  let st ← get
  match st.leases.updateLease4 l with
  | some leases => set { st with leases := leases }
  | none => throw .noSuchLease

def deleteLease (addr : Address 32) : Engine4 Bool := do
  let st ← get
  let (status, leases) := st.leases.deleteLease addr
  set { st with leases := leases }
  return status

variable {st : Server4}

@[simp] theorem addValue_run (k : StatKey) (v : Int) :
    addValue k v st = .ok () { st with stats := st.stats.addValue k v } := rfl

@[simp] theorem queueNCR_run (env : Env) (change : NameChangeType) (l : Lease4) :
    queueNCR env change l st =
      .ok () { st with ncrs := st.ncrs ++ (queueNCR4 env.d2 change l).toList } := rfl

@[simp] theorem getLease4_run (addr : Address 32) :
    getLease4 addr st = .ok (st.leases.getLease4 addr) st := rfl

@[simp] theorem deleteLease_run (addr : Address 32) :
    deleteLease addr st =
      .ok (st.leases.getLease4 addr).isSome { st with leases := st.leases.erase addr } := rfl

theorem addLease_run {l : Lease4} (h : st.leases.getLease4 l.addr = none) :
    addLease l st = .ok true { st with leases := st.leases.insert l } := by
  simp [addLease, run_bind, run_map, Lease4Storage.addLease, h]

theorem updateLease4_run {l old : Lease4} (h : st.leases.getLease4 l.addr = some old) :
    updateLease4 l st = .ok () { st with leases := st.leases.replace l } := by
  simp [updateLease4, run_bind, Lease4Storage.updateLease4, h]

end Engine4

/-! ## Reclamation -/

open Engine4

variable (env : Env) (l : Lease4)

/-- `reclaimDeclined` for a lease in the declined state: the decline statistics. -/
def reclaimDeclined4 : Engine4 Unit := do
  addValue (.subnet l.subnetId .declinedAddresses) (-1)
  addValue (.global .declinedAddresses) (-1)
  addValue (.global .reclaimedDeclinedAddresses) 1
  addValue (.subnet l.subnetId .reclaimedDeclinedAddresses) 1

/-- The lease as reclamation leaves it in the database when it is kept. -/
def Lease4.reclaimed : Lease4 :=
  { l with hostname := "", fqdnFwd := false, fqdnRev := false, state := .expiredReclaimed }

def reclaimLeaseInDatabase4 (removeLease : Bool) : Engine4 Unit := do
  if removeLease then
    let _ ← deleteLease l.addr
  else
    updateLease4 l.reclaimed

def reclaimExpiredLease4 (mode : DbReclaimMode) (l : Lease4) : Engine4 Unit := do
  queueNCR env .remove l
  -- A declined lease has no client any more and is always removed.
  if l.stateDeclined then reclaimDeclined4 l
  if mode ≠ .leaveUnchanged then
    reclaimLeaseInDatabase4 l (l.stateDeclined || mode = .remove)
  addValue (.subnet l.subnetId .assignedAddresses) (-1)
  addValue (.global .reclaimedLeases) 1
  addValue (.subnet l.subnetId .reclaimedLeases) 1

/-- `reclaimExpiredLease(lease)`, as allocation calls it: nothing happens to a reclaimed lease. -/
def reclaimBeforeUse4 : Engine4 Unit :=
  if l.stateExpiredReclaimed then pure () else reclaimExpiredLease4 env .leaveUnchanged l

/-- Reclaims leases one by one; a lease whose reclamation throws is passed over. -/
def reclaimEach4 (env : Env) (mode : DbReclaimMode) : List Lease4 → Engine4 Unit
  | [] => pure ()
  | l :: ls => do
    tryCatch (reclaimExpiredLease4 env mode l) fun _ => pure ()
    reclaimEach4 env mode ls

/--
The leases that one call of `reclaimExpiredLeases4` works through. The stop watch is read after
each lease: `inTime` is the number of leases after which it reports the timeout, if it does.
-/
def dueLeases4 (db : Lease4Storage) (maxLeases : Nat) (inTime : Option Nat) : List Lease4 :=
  let due :=
    -- One lease more than allowed is fetched, to see whether any is left, and dropped again.
    if maxLeases > 0 then (db.getExpiredLeases4 env.now (maxLeases + 1)).take maxLeases
    else db.getExpiredLeases4 env.now maxLeases
  match inTime with
  | none => due
  | some n => due.take (max n 1)

def reclaimExpiredLeases4 (maxLeases : Nat) (inTime : Option Nat) (removeLease : Bool) :
    Engine4 Unit := do
  reclaimEach4 env (if removeLease then .remove else .update)
    (dueLeases4 env (← get).leases maxLeases inTime)

def deleteExpiredReclaimedLeases4 (env : Env) (secs : Nat) : Engine4 Unit :=
  modify fun st => { st with leases := st.leases.deleteExpiredReclaimedLeases4 env.now secs }

end Dhcp
