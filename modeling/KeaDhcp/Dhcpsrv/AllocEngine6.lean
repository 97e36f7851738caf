import KeaDhcp.Dhcpsrv.Server6

/-!
# DHCPv6 lease allocation

The DHCPv6 part of `src/lib/dhcpsrv/alloc_engine.cc`, without hooks. A `ClientContext6` of the
source is split in two: what the engine only reads stays a `ClientContext6`, what it changes
while it works is part of the state (`Session6`). Lists of lease pointers become lists of
leases, and a function that writes through the pointers of a list returns the list anew.
-/

namespace Dhcp

open Infra IPv6Resrv

/-- `ClientContext6`, as the server hands it to the engine, with the current IA. -/
structure ClientContext6 where
  subnet : Option (SubnetPtr 128)
  hostSubnet : Option (SubnetPtr 128)
  duid : Option DUID
  hwaddr : Option HWAddr
  fwdDnsUpdate : Bool
  revDnsUpdate : Bool
  hostname : String
  fakeAllocation : Bool
  /-- `query_->getClasses()`. -/
  classes : ClientClasses
  /-- The query has the option `D6O_CLIENT_FQDN`. -/
  hasFqdn : Bool
  hosts : List (SubnetID × Host)
  hostIdentifiers : List IdentifierPair
  allocatedResources : List (Address 128 × Nat)
  iaid : Nat
  type : LeaseType
  hints : List (Address 128 × Nat)
  type_ne_v4 : type ≠ .v4

namespace ClientContext6

variable (ctx : ClientContext6)

/-- `hosts_.find(id)`. -/
def findHost (id : SubnetID) : Option Host := ctx.hosts.lookup id

def isAllocated (addr : Address 128) (len : Nat) : Bool := ctx.allocatedResources.contains (addr, len)

/-- The type of reservations for the current IA. -/
def resrvType : ResrvType := if ctx.type = .na then .na else .pd

/-- The statistic of assigned leases for the current IA. -/
def statName : StatName := if ctx.type = .na then .assignedNas else .assignedPds

/--
`hosts_[lease->subnet_id_]->hasReservation(IPv6Resrv(type, lease->addr_, len))`, where `hosts_`
has the subnet of the lease.
-/
def hasReservation (l : Lease6) (type : ResrvType) (len : Nat) : Except EngineError Bool :=
  match ctx.findHost l.subnetId with
  | none => .ok false
  | some h =>
    match make type l.addr len with
    | some r => .ok (h.hasReservation r)
    | none => .error .badValue

end ClientContext6

/-- The server, and the part of the context that changes during a call. -/
structure Session6 where
  server : Server6
  subnet : SubnetPtr 128
  hostSubnet : Option (SubnetPtr 128)
  hostname : String
  oldLeases : List Lease6
  changedLeases : List Lease6

abbrev Engine6 := EStateM EngineError Session6

namespace Engine6

variable {sn : Session6} {α : Type}

def onServer (x : ServerM6 α) : Engine6 α :=
  zoom Session6.server (fun st sn => { sn with server := st }) x

instance : MonadLift ServerM6 Engine6 where
  monadLift := onServer

theorem lift_run (x : ServerM6 α) (sn : Session6) :
    (liftM x : Engine6 α) sn = match x sn.server with
      | .ok a st => .ok a { sn with server := st }
      | .error e st => .error e { sn with server := st } := by
  show zoom Session6.server (fun st sn => { sn with server := st }) x sn = _
  rw [run_zoom]
  cases x sn.server <;> rfl

variable {st : Server6} {x : ServerM6 α}

theorem lift_ok {a : α} (h : x sn.server = .ok a st) :
    (liftM x : Engine6 α) sn = .ok a { sn with server := st } := by
  rw [lift_run, h]

theorem lift_error {e : EngineError} (h : x sn.server = .error e st) :
    (liftM x : Engine6 α) sn = .error e { sn with server := st } := by
  rw [lift_run, h]

theorem lift_getLease6_run {type : LeaseType} {addr : Address 128} :
    (liftM (ServerM6.getLease6 type addr) : Engine6 _) sn =
      .ok (sn.server.leases.getLease6 type addr) sn := rfl

end Engine6

open ServerM6

variable (env : Env) (ctx : ClientContext6)

/-! ## Reservations and pools -/

variable (duid : DUID) (leases : List Lease6) (s : SubnetPtr 128) (hostname : String)
  (addr : Address 128) (l : Lease6) (len : Nat)

/--
`inAllowedPool`: a subnet that the client may use has a pool for the address, or, with
`checkSubnet`, a pool whose class is not looked at.
-/
def inAllowedPool6 (type : LeaseType) (addr : Address 128) (checkSubnet : Bool) : Bool :=
  s.walk.any fun t => t.clientSupported ctx.classes &&
    if checkSubnet then t.subnet.inPool type addr else t.subnet.inPoolFor type addr ctx.classes

/-- `network->getSubnet(id)`, for the shared network of the subnet. -/
def SubnetPtr.getSubnet {w : Nat} (s : SubnetPtr w) (id : SubnetID) : Option (SubnetPtr w) :=
  if s.network.isNone then none else s.siblings.find? (·.getID = id)

/-! ## Creating and reusing a lease -/

/-- The lease that `createLease6` sets up. -/
def newLease6 : Lease6 :=
  { addr := addr
    type := ctx.type
    prefixlen := if ctx.type = .pd then len else 128
    iaid := ctx.iaid
    duid := ctx.duid
    hwaddr := ctx.hwaddr
    preferredLft := s.subnet.preferred
    validLft := s.subnet.valid
    t1 := s.subnet.t1
    t2 := s.subnet.t2
    cltt := env.now
    subnetId := s.getID
    fqdnFwd := ctx.fwdDnsUpdate
    fqdnRev := ctx.revDnsUpdate
    hostname := hostname
    state := .default }

/-- Counts a lease of the current IA that was placed on the address, if a pool has it. -/
def countPlaced6 : ServerM6 Unit :=
  if s.subnet.inPool ctx.type addr then addValue (.subnet s.getID ctx.statName) 1 else pure ()

def createLease6 : Engine6 (Option Lease6) := do
  let sn ← get
  let lease := newLease6 env ctx sn.subnet sn.hostname addr len
  if ctx.fakeAllocation then
    return if (← getLease6 ctx.type addr).isNone then some lease else none
  else
    if ← addLease lease then
      countPlaced6 ctx sn.subnet addr
      return some lease
    else return none

/-- The lease that `reuseExpiredLease` makes of an expired one. -/
def reusedLease6 : Lease6 :=
  { l with
    iaid := ctx.iaid
    duid := ctx.duid
    preferredLft := s.subnet.preferred
    validLft := s.subnet.valid
    t1 := s.subnet.t1
    t2 := s.subnet.t2
    cltt := env.now
    subnetId := s.getID
    hostname := hostname
    fqdnFwd := ctx.fwdDnsUpdate
    fqdnRev := ctx.revDnsUpdate
    prefixlen := if l.type = .pd then len else 128
    state := .default }

def reuseExpiredLease6 (expired : Lease6) (len : Nat) : Engine6 Lease6 := do
  let sn ← get
  let lease := reusedLease6 env ctx sn.subnet sn.hostname expired len
  if !expired.expired env.now then throw .badValue
  else if ctx.fakeAllocation then return lease
  else
    reclaimBeforeUse6 env expired
    updateLease6 lease
    countPlaced6 ctx sn.subnet expired.addr
    return lease

/-! ## Unreserved leases -/

/-- A reservation keeps the hint from being handed out in this subnet. -/
def hintReserved (env : Env) (s : SubnetPtr 128) (hint : Address 128) : Bool :=
  s.mode ≠ .disabled && (env.hostMgr.get6Address s.getID hint).isSome

/-- The hint in one subnet, which becomes the current one. -/
def tryHint6 (hint : Address 128) (s : SubnetPtr 128) : Engine6 (Option Lease6) := do
  modify fun sn => { sn with subnet := s }
  match s.subnet.getPool ctx.type ctx.classes hint with
  | none => return none
  | some pool =>
    match ← getLease6 ctx.type hint with
    | none => if hintReserved env s hint then return none else createLease6 env ctx hint pool.length
    | some lease =>
      if lease.expired env.now && !hintReserved env s hint then
        modify fun sn => { sn with oldLeases := sn.oldLeases ++ [lease] }
        return some (← reuseExpiredLease6 env ctx lease pool.length)
      else return none

/-- The first loop of `allocateUnreservedLeases6`: the hint in every subnet that the client may use. -/
def tryHints6 (env : Env) (ctx : ClientContext6) (hint : Address 128) :
    List (SubnetPtr 128) → Engine6 (Option Lease6)
  | [] => return none
  | s :: ss =>
    if s.clientSupported ctx.classes then do
      match ← tryHint6 env ctx hint s with
      | some lease => return some lease
      | none => tryHints6 env ctx hint ss
    else tryHints6 env ctx hint ss

/-- `IterativeAllocator::pickAddress` on the state of the server. -/
def pickAddress6 : ServerM6 (Address 128) := do
  let st ← get
  match pickAddress env.clock ctx.type s.subnet ctx.classes st.allocator with
  | some (addr, allocator) =>
    set { st with allocator := allocator }
    return addr
  | none => throw .allocFailed

/-- The length of a lease for the candidate: the one its pool delegates, for a prefix. -/
def candidateLength (candidate : Address 128) : Nat :=
  if ctx.type = .pd then
    ((s.subnet.getPool ctx.type ctx.classes candidate).map Pool.length).getD 128
  else 128

/-- One candidate of a subnet. -/
def tryCandidate6 (candidate : Address 128) : Engine6 (Option Lease6) := do
  -- Unlike for a hint, reservations count in one mode only.
  if s.mode = .all && (env.hostMgr.get6Address s.getID candidate).isSome then return none
  else
    match ← getLease6 ctx.type candidate with
    | none =>
      modify fun sn => { sn with subnet := s }
      match ← createLease6 env ctx candidate (candidateLength ctx s candidate) with
      | some lease =>
        modify fun sn => { sn with oldLeases := [] }
        return some lease
      | none => return none
    | some lease =>
      if lease.expired env.now then
        modify fun sn => { sn with oldLeases := sn.oldLeases ++ [lease], subnet := s }
        return some (← reuseExpiredLease6 env ctx lease (candidateLength ctx s candidate))
      else return none

/-- Up to `n` candidates of one subnet. -/
def tryCandidates6 (env : Env) (ctx : ClientContext6) (s : SubnetPtr 128) :
    Nat → Engine6 (Option Lease6)
  | 0 => return none
  | n + 1 => do
    let candidate ← pickAddress6 env ctx s
    match ← tryCandidate6 env ctx s candidate with
    | some lease => return some lease
    | none => tryCandidates6 env ctx s n

/-- The second loop of `allocateUnreservedLeases6`: the allocator's candidates in every subnet. -/
def trySubnets6 (env : Env) (ctx : ClientContext6) : List (SubnetPtr 128) → Engine6 (Option Lease6)
  | [] => return none
  | s :: ss =>
    if s.clientSupported ctx.classes then do
      match ← tryCandidates6 env ctx s (maxAttempts env ctx.type s.subnet ctx.classes) with
      | some lease => return some lease
      | none => trySubnets6 env ctx ss
    else trySubnets6 env ctx ss

/-- `allocateUnreservedLeases6`: the hint first, then from the subnet that was used last. -/
def allocateUnreservedLeases6 : Engine6 (List Lease6) := do
  let s := (← get).subnet
  match ← tryHints6 env ctx ((ctx.hints.head?.map Prod.fst).getD 0) s.walk with
  | some lease => return [lease]
  | none =>
    let preferred := getPreferredSubnet (← get).server.allocator ctx.type s
    modify fun sn => { sn with subnet := preferred }
    return (← trySubnets6 env ctx preferred.walk).toList

/-! ## Reserved leases -/

/-- The first lease of the list, with a lifetime left, that is reserved for the client. -/
def findReservedLease (ctx : ClientContext6) : List Lease6 → Except EngineError (Option Lease6)
  | [] => .ok none
  | l :: ls =>
    if l.validLft = 0 then findReservedLease ctx ls
    else
      match ctx.hasReservation l ctx.resrvType l.prefixlen with
      | .error e => .error e
      | .ok true => .ok (some l)
      | .ok false => findReservedLease ctx ls

/-- The first reservation for the client that has no lease, with its subnet and its host. -/
def findFreeReservation (db : Lease6Storage) (s : SubnetPtr 128) :
    Option (SubnetPtr 128 × Host × IPv6Resrv) :=
  s.walk.findSome? fun t =>
    if t.clientSupported ctx.classes then
      (ctx.findHost t.getID).bind fun h =>
        ((h.getIPv6Reservations ctx.resrvType).find? fun r =>
          !ctx.isAllocated r.addr r.len && (db.getLease6 ctx.type r.addr).isNone).map fun r => (t, h, r)
    else none

/-- Settles on the host whose name is handed out, unless that was done before. -/
def stickToHost (subnet : Option (SubnetPtr 128)) (host : Option Host) (sn : Session6) : Session6 :=
  if sn.hostSubnet.isSome then sn
  else
    { sn with
      hostSubnet := subnet
      hostname :=
        match host with
        | some h => if h.hostname = "" then sn.hostname else env.d2.qualifyName h.hostname ctx.hasFqdn
        | none => sn.hostname }

/-- The client's reserved lease decides about the host, in a shared network. -/
def stickToLease (sn : Session6) : Session6 :=
  if sn.subnet.network.isNone then sn
  else stickToHost env ctx (sn.subnet.getSubnet l.subnetId) (ctx.findHost l.subnetId) sn

/-- `conditionalExtendLifetime`, which in this version always extends. -/
def conditionalExtendLifetime (env : Env) (l : Lease6) : Lease6 := { l with cltt := env.now }

/-- `allocateReservedLeases6`: the list, with the lease that was found or created for it. -/
def allocateReservedLeases6 : Engine6 (List Lease6) :=
  if ctx.hosts.isEmpty then return leases
  else
    match findReservedLease ctx leases with
    | .error e => throw e
    | .ok (some l) => do
      modify (stickToLease env ctx l)
      if ctx.fakeAllocation then return leases
      else
        updateLease6 (conditionalExtendLifetime env l)
        return leases.map fun k => if k = l then conditionalExtendLifetime env k else k
    | .ok none => do
      let sn ← get
      match findFreeReservation ctx sn.server.leases sn.subnet with
      | none => return leases
      | some (t, host, r) =>
        modify fun sn => stickToHost env ctx (some t) (some host) { sn with subnet := t }
        match ← createLease6 env ctx r.addr r.len with
        | some lease => return leases ++ [lease]
        -- The source appends the null pointer, and follows it before the call ends.
        | none => throw .nullPointer

/-! ## Removing leases -/

/-- What the three removal functions do to a lease that may not stay. -/
def removeLease6 : Engine6 Unit := do
  let _ ← deleteLease l.addr
  queueNCR env .remove l
  addValue (.subnet l.subnetId ctx.statName) (-1)
  modify fun sn => { sn with oldLeases := sn.oldLeases ++ [l] }

def removeLeases : List Lease6 :=
  leases.filter (·.addr ≠ addr)

/-- The loop over a copy of the list, which removes from the list what may not be kept. -/
def removeUnkept6 (env : Env) (ctx : ClientContext6) (keep : Lease6 → Except EngineError Bool) :
    List Lease6 → List Lease6 → Engine6 (List Lease6)
  | [], existing => return existing
  | l :: copy, existing =>
    match keep l with
    | .error e => throw e
    | .ok true => removeUnkept6 env ctx keep copy existing
    | .ok false => do
      removeLease6 env ctx l
      removeUnkept6 env ctx keep copy (removeLeases existing l.addr)

/--
A lease that `removeNonmatchingReservedLeases6` keeps: reserved for the client, or in an allowed
pool and not reserved for anyone in the current subnet, whatever the subnet of the lease.
-/
def keepsReserved : Except EngineError Bool :=
  match ctx.hasReservation l (if l.type = .na then .na else .pd)
      (if l.type = .na then 128 else l.prefixlen) with
  | .error e => .error e
  | .ok true => .ok true
  | .ok false => .ok ((env.hostMgr.get6Address s.getID l.addr).isNone &&
      inAllowedPool6 ctx s l.type l.addr false)

/-- A lease that `removeNonmatchingReservedNoHostLeases6` keeps: one in an allowed pool. -/
def keepsPooled : Except EngineError Bool :=
  .ok (inAllowedPool6 ctx s l.type l.addr false)

/-- Which leases the conflict check of the current subnet keeps. -/
def mayKeep6 : Except EngineError Bool :=
  if s.mode = .disabled then keepsPooled ctx s l else keepsReserved env ctx s l

/-- `removeNonmatchingReservedLeases6`, `removeNonmatchingReservedNoHostLeases6`. -/
def removeNonmatchingReservedLeases6 : Engine6 (List Lease6) := do
  removeUnkept6 env ctx (mayKeep6 env ctx (← get).subnet) leases leases

/-- A lease that `removeNonreservedLeases6` keeps; the reservation is built before it is looked for. -/
def isReserved6 : Except EngineError Bool :=
  match make ctx.resrvType l.addr l.prefixlen with
  | none => .error .badValue
  | some r => .ok ((ctx.findHost l.subnetId).any (·.hasReservation r))

/-- The loop of `removeNonreservedLeases6`; `total` leases are left. -/
def removeNonreserved6 (env : Env) (ctx : ClientContext6) : Nat → List Lease6 → Engine6 (List Lease6)
  | _, [] => return []
  | total, l :: ls =>
    match isReserved6 ctx l with
    | .error e => throw e
    | .ok true => do return l :: (← removeNonreserved6 env ctx total ls)
    | .ok false => do
      removeLease6 env ctx l
      -- The last lease stays, unless it was the only one.
      if total - 1 = 1 then return ls else removeNonreserved6 env ctx (total - 1) ls

def removeNonreservedLeases6 : Engine6 (List Lease6) :=
  removeNonreserved6 env ctx leases.length leases

/-! ## Updating and extending leases -/

/-- The lease that `updateLeaseData` makes of a lease that is kept. -/
def updatedLease6 : Lease6 :=
  let lease := { l with fqdnFwd := ctx.fwdDnsUpdate, fqdnRev := ctx.revDnsUpdate, hostname := hostname }
  if ctx.fakeAllocation then lease
  else
    conditionalExtendLifetime env
      { lease with state := if l.stateExpiredReclaimed then .default else l.state }

/-- A reclaimed lease that `updateLeaseData` brings back is counted again. -/
def countRestored6 : ServerM6 Unit :=
  if l.stateExpiredReclaimed && inAllowedPool6 ctx s ctx.type l.addr true then
    addValue (.subnet l.subnetId ctx.statName) 1
  else pure ()

/-- Sends a request to remove the names of a lease, if there is a reason to. -/
def queueRemovalIf (env : Env) (reason : Bool) (l : Lease6) : ServerM6 Unit :=
  if reason then queueNCR env .remove l else pure ()

/-- `updateLeaseData`; `removeQueued` tells that a request to remove names has been sent. -/
def updateLeaseData (env : Env) (ctx : ClientContext6) : Bool → List Lease6 → Engine6 (List Lease6)
  | _, [] => return []
  | removeQueued, l :: ls => do
    let sn ← get
    let lease := updatedLease6 env ctx sn.hostname l
    if ctx.fakeAllocation then return lease :: (← updateLeaseData env ctx removeQueued ls)
    else
      let fqdnChanged := l.type ≠ .pd && !lease.hasIdenticalFqdn l.toLease
      countRestored6 ctx sn.subnet l
      modify fun sn => { sn with changedLeases := sn.changedLeases ++ [l] }
      updateLease6 lease
      queueRemovalIf env (fqdnChanged && !removeQueued) l
      return lease :: (← updateLeaseData env ctx (removeQueued || fqdnChanged) ls)

/-- The lease that `extendLease6` makes of a lease that may stay. -/
def extendedLease6 : Lease6 :=
  conditionalExtendLifetime env
    { l with
      preferredLft := s.subnet.preferred
      validLft := s.subnet.valid
      t1 := s.subnet.t1
      t2 := s.subnet.t2
      hostname := hostname
      fqdnFwd := ctx.fwdDnsUpdate
      fqdnRev := ctx.revDnsUpdate
      hwaddr := ctx.hwaddr
      state := .default }

/-- The subnet of the lease, if it is one of the network, and the current subnet otherwise. -/
def subnetOfLease : SubnetPtr 128 :=
  if s.getID = l.subnetId then s else (s.getSubnet l.subnetId).getD s

/-- The lease does not belong to the subnet any more, or the client may not use the subnet. -/
def leavesSubnet (s : SubnetPtr 128) (l : Lease6) : Bool :=
  (l.type ≠ .pd && !s.subnet.inRange l.addr) || !s.clientSupported ctx.classes

/-- What `extendLease6` does before it writes: an expired lease is reclaimed and counted again. -/
def reclaimOrRename6 (lease : Lease6) : ServerM6 Unit :=
  if l.expired env.now then do
    reclaimBeforeUse6 env l
    countPlaced6 ctx s l.addr
  else queueRemovalIf env (!lease.hasIdenticalFqdn l.toLease) l

/-- `extendLease6`. A lease that is removed stays in the list as it was. -/
def extendLease6 : Engine6 Lease6 := do
  modify fun sn => { sn with subnet := subnetOfLease sn.subnet l }
  let sn ← get
  if leavesSubnet ctx sn.subnet l then
    let _ ← deleteLease l.addr
    queueNCR env .remove l
    -- The statistic of addresses, also for a prefix.
    addValue (.subnet sn.subnet.getID .assignedNas) (-1)
    modify fun sn => { sn with oldLeases := sn.oldLeases ++ [l] }
    return l
  else
    let lease := extendedLease6 env ctx sn.subnet sn.hostname l
    reclaimOrRename6 env ctx sn.subnet l lease
    updateLease6 lease
    modify fun sn => { sn with changedLeases := sn.changedLeases ++ [l] }
    return lease

def extendLeases6 (env : Env) (ctx : ClientContext6) : List Lease6 → Engine6 (List Lease6)
  | [] => return []
  | l :: ls => do return (← extendLease6 env ctx l) :: (← extendLeases6 env ctx ls)

/-! ## Entry points -/

/-- The leases of the client for the current IA, in the subnets of the shared network. -/
def clientLeases6 (db : Lease6Storage) (s : SubnetPtr 128) : List Lease6 :=
  s.walk.flatMap fun t => db.getLeases6InSubnet ctx.type duid ctx.iaid t.getID

/-- The cases 1 to 3 of `allocateLeases6`: what the client's leases and reservations give. -/
def settleLeases6 : Engine6 (List Lease6) :=
  match leases.isEmpty, ctx.hosts.isEmpty with
  -- Case 1: no leases, and reservations.
  | true, false => allocateReservedLeases6 env ctx leases
  -- Case 2: leases, and no reservations.
  | false, true => do
    let kept ← removeNonmatchingReservedLeases6 env ctx leases
    updateLeaseData env ctx false kept
  -- Case 3: leases and reservations.
  | false, false => do
    let leases ← allocateReservedLeases6 env ctx leases
    let kept ← removeNonmatchingReservedLeases6 env ctx leases
    removeNonreservedLeases6 env ctx kept
  | true, true => return leases

/-- Case 4: without a lease so far, any address or prefix will do. -/
def orUnreserved6 : Engine6 (List Lease6) :=
  if leases.isEmpty then allocateUnreservedLeases6 env ctx else return leases

/-- The body of `allocateLeases6`. -/
def allocateIA6 : Engine6 (List Lease6) := do
  let sn ← get
  let leases ← settleLeases6 env ctx (clientLeases6 ctx duid sn.server.leases sn.subnet)
  orUnreserved6 env ctx leases

/-- The leases that `renewLeases6` goes on with: those that may stay, or reserved ones. -/
def settleRenewed6 : Engine6 (List Lease6) := do
  let kept ← removeNonmatchingReservedLeases6 env ctx leases
  if ctx.hosts.isEmpty then return kept
  else
    let leases ← allocateReservedLeases6 env ctx kept
    removeNonreservedLeases6 env ctx leases

/-- The body of `renewLeases6`. -/
def renewIA6 : Engine6 (List Lease6) := do
  let sn ← get
  let settled ← settleRenewed6 env ctx (clientLeases6 ctx duid sn.server.leases sn.subnet)
  let leases ← orUnreserved6 env ctx settled
  extendLeases6 env ctx leases

/-- What a call hands back: the leases, and the context's data that the call changes. -/
structure Allocation6 where
  leases : List Lease6
  subnet : Option (SubnetPtr 128)
  hostSubnet : Option (SubnetPtr 128)
  hostname : String
  oldLeases : List Lease6
  changedLeases : List Lease6
  allocatedResources : List (Address 128 × Nat)

/-- The session that a call begins with. -/
def ClientContext6.session (st : Server6) : Session6 :=
  { server := st, subnet := s, hostSubnet := ctx.hostSubnet, hostname := ctx.hostname
    oldLeases := [], changedLeases := [] }

/-- The end of a call: the leases are remembered for the IAs that follow. -/
def Session6.allocation (sn : Session6) (ctx : ClientContext6) (leases : List Lease6) : Allocation6 :=
  { leases := leases, subnet := sn.subnet, hostSubnet := sn.hostSubnet, hostname := sn.hostname
    oldLeases := sn.oldLeases, changedLeases := sn.changedLeases
    allocatedResources := ctx.allocatedResources ++ leases.map fun l => (l.addr, l.prefixlen) }

/--
Runs the body of a call. Exceptions are caught and leave no leases; a null pointer is not
caught.
-/
def runIA6 (body : DUID → Engine6 (List Lease6)) : ServerM6 Allocation6 :=
  fun st =>
    match ctx.subnet, ctx.duid with
    | some s, some duid =>
      match body duid (ctx.session s st) with
      | .ok leases sn => .ok (sn.allocation ctx leases) sn.server
      | .error e sn =>
        if e = .nullPointer then .error e sn.server else .ok (sn.allocation ctx []) sn.server
    -- `InvalidOperation`: no subnet, or no DUID.
    | subnet, _ =>
      .ok { leases := [], subnet := subnet, hostSubnet := ctx.hostSubnet, hostname := ctx.hostname
            oldLeases := [], changedLeases := [], allocatedResources := ctx.allocatedResources } st

def allocateLeases6 : ServerM6 Allocation6 :=
  runIA6 ctx (allocateIA6 env ctx)

def renewLeases6 : ServerM6 Allocation6 :=
  runIA6 ctx (renewIA6 env ctx)

/-! ## The reservations of a client -/

/-- The reservations of a client by subnet, when one query per identifier fetches them all. -/
def hostMap6 (env : Env) (ids : List IdentifierPair) (id : SubnetID) : Option Host :=
  ((ids.flatMap env.hostMgr.getAll).filter fun h => 0 < h.ipv6SubnetId && h.ipv6SubnetId = id).getLast?

/-- The first identifier with a host in the subnet. -/
def firstHost6 (env : Env) (subnet : SubnetID) : List IdentifierPair → Except EngineError (Option Host)
  | [] => .ok none
  | id :: ids =>
    match env.hostMgr.get6 subnet id with
    | .error _ => .error .duplicateHost
    | .ok (some h) => .ok (some h)
    | .ok none => firstHost6 env subnet ids

/-- The host that `findReservation` settles on for one subnet. -/
def hostInSubnet6 (env : Env) (ids : List IdentifierPair) (singleQuery : Bool) (s : SubnetPtr 128) :
    Except EngineError (Option Host) :=
  if ids.isEmpty then .ok none
  else if singleQuery then .ok (hostMap6 env ids s.getID)
  else firstHost6 env s.getID ids

/-- The loop of `findReservation` over the subnets that the client may use. -/
def collectHosts6 (env : Env) (ctx : ClientContext6) (singleQuery : Bool) :
    List (SubnetPtr 128) → Except EngineError (List (SubnetID × Host))
  | [] => .ok []
  | t :: ts =>
    if t.clientSupported ctx.classes && t.mode ≠ .disabled then
      match hostInSubnet6 env ctx.hostIdentifiers singleQuery t with
      | .error e => .error e
      | .ok host => (collectHosts6 env ctx singleQuery ts).map fun rest =>
          (host.map fun h => (t.getID, h)).toList ++ rest
    else collectHosts6 env ctx singleQuery ts

/-- `findReservation`, with `use_single_query` as given: the hosts of the client, by subnet. -/
def findReservationWith6 (singleQuery : Bool) : Except EngineError (List (SubnetID × Host)) :=
  match ctx.subnet with
  | none => .ok []
  | some s => collectHosts6 env ctx singleQuery (s.walkFor ctx.classes)

def findReservation6 : Except EngineError (List (SubnetID × Host)) :=
  findReservationWith6 env ctx (useSingleQuery ctx.subnet ctx.hostIdentifiers)

end Dhcp
