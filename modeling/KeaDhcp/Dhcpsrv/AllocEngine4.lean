import KeaDhcp.Dhcpsrv.Server4

/-!
# DHCPv4 lease allocation

The DHCPv4 part of `src/lib/dhcpsrv/alloc_engine.cc`, without hooks. The source moves `ctx.subnet_`
from subnet to subnet while it works; here the current subnet is an argument of every function and
part of what it returns.

A request is decided first (`requestPlan`) and carried out afterwards (`requestLease4`): all checks
of the source come before its first change to the database.
-/

namespace Dhcp

open Infra Engine4

/-- `ClientContext4`, as the server hands it to the engine. -/
structure ClientContext4 where
  subnet : Option (SubnetPtr 32)
  clientid : Option ClientId
  hwaddr : Option HWAddr
  requestedAddress : Address 32
  fwdDnsUpdate : Bool
  revDnsUpdate : Bool
  hostname : String
  fakeAllocation : Bool
  /-- `query_->getClasses()`. -/
  classes : ClientClasses
  hosts : List (SubnetID × Host)
  hostIdentifiers : List IdentifierPair

/-- What a call hands back: the lease, and the context's `old_lease_` and `subnet_`. -/
structure Allocation4 where
  newLease : Option Lease4
  oldLease : Option Lease4
  subnet : Option (SubnetPtr 32)

/-- No lease; the current subnet is `s`. -/
def noLease4 (s : Option (SubnetPtr 32)) : Allocation4 :=
  { newLease := none, oldLease := none, subnet := s }

namespace ClientContext4

variable (ctx : ClientContext4)

/-- `hosts_.find(id)`. -/
def findHost (id : SubnetID) : Option Host := ctx.hosts.lookup id

/-- The client identifier, where the subnet is configured to look at it. -/
def clientIdFor (s : SubnetPtr 32) : Option ClientId :=
  if s.subnet.matchClientId then ctx.clientid else none

/-- `currentHost()` with `s` as the current subnet. -/
def currentHost (s : SubnetPtr 32) : Option Host :=
  ctx.findHost (if s.mode = .global then subnetIdGlobal else s.getID)

/-- `currentHost()->getIPv4Reservation()`. -/
def reservedAddress (s : SubnetPtr 32) : Except EngineError (Address 32) :=
  match ctx.currentHost s with
  | some h => .ok h.ipv4Reservation
  | none => .error .nullPointer

end ClientContext4

variable (env : Env) (ctx : ClientContext4) (s : SubnetPtr 32)

/-! ## Reservations and pools -/

/-- The reservation mode makes the engine look for reservations of this address. -/
def SubnetPtr.honoursReservation (s : SubnetPtr 32) (addr : Address 32) : Bool :=
  s.mode = .all || (s.mode = .outOfPool && !s.subnet.inPool .v4 addr)

variable (db : Lease4Storage) (clientLease : Option Lease4) (addr : Address 32)

/--
`addressReserved`: the address is reserved in this subnet for another client. The first
identifier of the type that the reservation uses decides.
-/
def addressReserved : Bool :=
  if s.honoursReservation addr then
    match env.hostMgr.get4Address s.getID addr with
    | none => false
    | some host =>
      match ctx.hostIdentifiers.find? (·.1 = host.identifierType) with
      | some id => id.2 ≠ host.identifier
      | none => true
  else false

/-- The loop of `hasAddressReservation`, over the subnets that the client may use. -/
def findAddressReservation (ctx : ClientContext4) (current : SubnetPtr 32) :
    List (SubnetPtr 32) → Bool × SubnetPtr 32
  | [] => (false, current)
  | t :: ts =>
    if t.mode = .global then
      -- A global reservation does not move the current subnet.
      ((ctx.findHost subnetIdGlobal).any (·.ipv4Reservation ≠ 0), current)
    else if (ctx.findHost t.getID).any
        (fun h => h.ipv4Reservation ≠ 0 && t.honoursReservation h.ipv4Reservation) then
      (true, t)
    else findAddressReservation ctx current ts

/-- `hasAddressReservation`, with the current subnet afterwards. -/
def hasAddressReservation : Bool × SubnetPtr 32 :=
  if ctx.hosts.isEmpty then (false, s)
  else findAddressReservation ctx s (s.walkFor ctx.classes)

/-- `inAllowedPool`: the first subnet with a pool for this address, where the engine moves to. -/
def inAllowedPool : Option (SubnetPtr 32) :=
  (s.walkFor ctx.classes).find? (·.subnet.inPoolFor .v4 addr ctx.classes)

/-! ## The client's lease -/

/-- The first subnet of the walk, and its first lease, for which `p` holds. -/
def findLeaseInSubnets (p : SubnetPtr 32 → Lease4 → Bool) (leases : List Lease4)
    (subnets : List (SubnetPtr 32)) : Option (Lease4 × SubnetPtr 32) :=
  subnets.findSome? fun t =>
    (leases.find? fun l => l.subnetId = t.getID && p t l).map fun l => (l, t)

/-- The client's lease and its subnet: by client identifier first, then by hardware address. -/
def searchClientLease (ctx : ClientContext4) (s : SubnetPtr 32) : Option (Lease4 × SubnetPtr 32) :=
  let subnets := s.walkFor ctx.classes
  (ctx.clientid.bind fun c =>
    findLeaseInSubnets (fun t _ => t.subnet.matchClientId) (db.getLease4ByClientId c) subnets).or
  (ctx.hwaddr.bind fun hw =>
    findLeaseInSubnets (fun t l => l.belongsToClient ctx.hwaddr (ctx.clientIdFor t))
      (db.getLease4ByHWAddr hw) subnets)

/-- `findClientLease`: moves to the subnet of the lease when there is one. -/
def findClientLease (ctx : ClientContext4) (s : SubnetPtr 32) : Option Lease4 × SubnetPtr 32 :=
  let found := searchClientLease db ctx s
  (found.map Prod.fst, (found.map Prod.snd).getD s)

/-! ## Creating, renewing and reusing a lease -/

def updateLease4Information (l : Lease4) : Lease4 :=
  { l with
    subnetId := s.getID
    hwaddr := ctx.hwaddr
    clientId := ctx.clientIdFor s
    cltt := env.now
    t1 := s.subnet.t1
    t2 := s.subnet.t2
    validLft := s.subnet.valid
    fqdnFwd := ctx.fwdDnsUpdate
    fqdnRev := ctx.revDnsUpdate
    hostname := ctx.hostname }

/-- The lease that `createLease4` sets up. -/
def newLease4 : Lease4 :=
  { addr := addr
    hwaddr := ctx.hwaddr
    clientId := ctx.clientIdFor s
    validLft := s.subnet.valid
    t1 := s.subnet.t1
    t2 := s.subnet.t2
    cltt := env.now
    subnetId := s.getID
    fqdnFwd := ctx.fwdDnsUpdate
    fqdnRev := ctx.revDnsUpdate
    hostname := ctx.hostname
    state := .default }

/-- `createLease4`. The client has a hardware address: `allocateLease4` has checked it. -/
def createLease4 : Engine4 (Option Lease4) := do
  let lease := newLease4 env ctx s addr
  if ctx.fakeAllocation then
    return if (← getLease4 addr).isNone then some lease else none
  else
    if ← addLease lease then
      addValue (.subnet s.getID .assignedAddresses) 1
      return some lease
    else return none

def renewLease4 (old : Lease4) : Engine4 Lease4 := do
  let lease := updateLease4Information env ctx s old
  if ctx.fakeAllocation then return lease
  else
    if old.expired env.now then reclaimBeforeUse4 env old
    let lease := { lease with state := .default }
    updateLease4 lease
    if old.expired env.now || old.stateExpiredReclaimed then
      addValue (.subnet s.getID .assignedAddresses) 1
    return lease

def reuseExpiredLease4 (expired : Lease4) : Engine4 Lease4 := do
  if ctx.fakeAllocation then return updateLease4Information env ctx s expired
  else
    reclaimBeforeUse4 env expired
    let lease := { updateLease4Information env ctx s expired with state := .default }
    updateLease4 lease
    addValue (.subnet s.getID .assignedAddresses) 1
    return lease

/-- `allocateOrReuseLease4`: the new lease, and the lease that it takes the place of. -/
def allocateOrReuseLease4 (candidate : Address 32) : Engine4 (Option Lease4 × Option Lease4) := do
  match ← getLease4 candidate with
  | some exist =>
    if exist.expired env.now then
      let lease ← reuseExpiredLease4 env ctx s exist
      return (some lease, some exist)
    else return (none, none)
  | none => return (← createLease4 env ctx s candidate, none)

/-! ## Picking an address -/

/-- `IterativeAllocator::pickAddress` on the state of the server. -/
def pickAddress4 : Engine4 (Address 32) := do
  let st ← get
  match pickAddress env.clock .v4 s.subnet ctx.classes st.allocator with
  | some (addr, allocator) =>
    set { st with allocator := allocator }
    return addr
  | none => throw .allocFailed

/-- Up to `n` candidates of one subnet. -/
def tryCandidates4 (env : Env) (ctx : ClientContext4) (s : SubnetPtr 32) :
    Nat → Engine4 (Option Lease4 × Option Lease4)
  | 0 => return (none, none)
  | n + 1 => do
    let candidate ← pickAddress4 env ctx s
    if addressReserved env ctx s candidate then tryCandidates4 env ctx s n
    else
      match ← allocateOrReuseLease4 env ctx s candidate with
      | (some lease, old) => return (some lease, old)
      | (none, _) => tryCandidates4 env ctx s n

/-- The loop of `allocateUnreservedLease4` over subnets; `current` is the subnet tried last. -/
def trySubnets4 (env : Env) (ctx : ClientContext4) :
    SubnetPtr 32 → List (SubnetPtr 32) → Engine4 Allocation4
  | current, [] => return noLease4 current
  | _, s :: ss => do
    match ← tryCandidates4 env ctx s (maxAttempts env .v4 s.subnet ctx.classes) with
    | (some lease, old) => return { newLease := some lease, oldLease := old, subnet := s }
    | (none, _) => trySubnets4 env ctx s ss

/-- `allocateUnreservedLease4`: starts at the subnet of the network that was used last. -/
def allocateUnreservedLease4 : Engine4 Allocation4 := do
  let preferred := getPreferredSubnet (← get).allocator .v4 s
  trySubnets4 env ctx preferred (preferred.walkFor ctx.classes)

/-! ## Offers -/

/-- The reserved address, when the client has one: allocated anew, or renewed when it is leased. -/
def offerReserved : Engine4 (Option Lease4 × Option Lease4) := do
  match ctx.reservedAddress s with
  | .error e => throw e
  | .ok addr =>
    match clientLease with
    | some l =>
      if l.addr = addr then return (some (← renewLease4 env ctx s l), some l)
      else allocateOrReuseLease4 env ctx s addr
    | none => allocateOrReuseLease4 env ctx s addr

/-- The address that the client asks for, if it may be handed out. -/
def offerRequested : Engine4 (Option Lease4 × Option Lease4 × SubnetPtr 32) := do
  if ctx.requestedAddress = 0 then return (none, none, s)
  else
    match inAllowedPool ctx s ctx.requestedAddress with
    | none => return (none, none, s)
    | some t =>
      if addressReserved env ctx t ctx.requestedAddress then return (none, none, t)
      else
        let (lease, old) ← allocateOrReuseLease4 env ctx t ctx.requestedAddress
        return (lease, old, t)

/-- The steps of `discoverLease4` behind the client's own lease: the hint, then the allocator. -/
def offerOther : Engine4 Allocation4 := do
  match ← offerRequested env ctx s with
  | (some lease, old, t) => return { newLease := some lease, oldLease := old, subnet := t }
  | (none, _, t) => allocateUnreservedLease4 env ctx t

/-- The steps of `discoverLease4` behind the reservation: the lease that the client has. -/
def offerExisting : Engine4 Allocation4 := do
  match clientLease with
  | none => offerOther env ctx s
  | some l =>
    match inAllowedPool ctx s l.addr with
    | none => offerOther env ctx s
    | some t =>
      if addressReserved env ctx t l.addr then offerOther env ctx t
      else
        let lease ← renewLease4 env ctx t l
        return { newLease := some lease, oldLease := some l, subnet := t }

/-- The offers of `discoverLease4` in their order, from the client's reservation on. -/
def offerAny : Engine4 Allocation4 :=
  match hasAddressReservation ctx s with
  | (true, t) => do
    match ← offerReserved env ctx t clientLease with
    | (some lease, old) => return { newLease := some lease, oldLease := old, subnet := t }
    | (none, _) => offerExisting env ctx t clientLease
  | (false, t) => offerExisting env ctx t clientLease

def discoverLease4 : Engine4 Allocation4 := do
  let (clientLease, t) := findClientLease (← get).leases ctx s
  let result ← offerAny env ctx t clientLease
  -- The client's lease is the old one, unless an offer has set another.
  return { result with oldLease := result.oldLease <|> clientLease }

/-! ## Requests -/

/-- What a request leads to, once all checks of the source are made. -/
inductive RequestPlan where
  /-- The request is turned down while the engine is in the subnet. -/
  | refuse (s : SubnetPtr 32)
  /-- The client's lease is renewed in the subnet. -/
  | renew (lease : Lease4) (s : SubnetPtr 32)
  /-- This address is allocated; the client's other lease goes. -/
  | allocate (addr : Address 32) (s : SubnetPtr 32) (previous : Option Lease4)
  /-- Any address is allocated; the client's other lease goes. -/
  | pick (s : SubnetPtr 32) (previous : Option Lease4)

/--
The address that a request is about, zero for any, with the current subnet: the requested one,
or the reserved one when none is requested. No address when it is reserved for another client.
-/
def requestTarget : Except EngineError (Option (Address 32) × SubnetPtr 32) :=
  if ctx.requestedAddress ≠ 0 then
    .ok (if addressReserved env ctx s ctx.requestedAddress then none else some ctx.requestedAddress, s)
  else
    match hasAddressReservation ctx s with
    | (true, t) => (ctx.reservedAddress t).map fun addr => (some addr, t)
    | (false, t) => .ok (some 0, t)

/-- The address is leased to another client and the lease has not expired. -/
def inUseByOther (s : SubnetPtr 32) (addr : Address 32) : Bool :=
  (db.getLease4 addr).any fun l =>
    !l.expired env.now && !l.belongsToClient ctx.hwaddr (ctx.clientIdFor s)

/-- The address has no lease, or one that has expired. -/
def notInUse (env : Env) (db : Lease4Storage) (addr : Address 32) : Bool :=
  (db.getLease4 addr).all fun l => l.expired env.now

/--
The client has a reserved address and asks for a different one, although the reserved one is
not in use.
-/
def ignoresReservation (s : SubnetPtr 32) (addr : Address 32) :
    Except EngineError (Bool × SubnetPtr 32) :=
  match hasAddressReservation ctx s with
  | (false, t) => .ok (false, t)
  | (true, t) => (ctx.reservedAddress t).map fun r => (r ≠ addr && notInUse env db r, t)

/-- `inAllowedPool` as a condition, with the current subnet afterwards. -/
def moveToPool : Bool × SubnetPtr 32 :=
  match inAllowedPool ctx s addr with
  | some t => (true, t)
  | none => (false, s)

/-- An address that is not reserved for the client may be allocated only from a pool. -/
def mayAllocate : Except EngineError (Bool × SubnetPtr 32) :=
  match hasAddressReservation ctx s with
  | (false, t) => .ok (moveToPool ctx t addr)
  | (true, t) => (ctx.reservedAddress t).map fun r =>
      if r ≠ addr then moveToPool ctx t addr else (true, t)

/-- The checks on a specific address, with the current subnet after them. -/
def checkRequested (s : SubnetPtr 32) (addr : Address 32) :
    Except EngineError (Bool × SubnetPtr 32) :=
  if inUseByOther env ctx db s addr then .ok (false, s)
  else do
    let (ignores, t) ← ignoresReservation env ctx db s addr
    if ignores then return (false, t)
    mayAllocate ctx t addr

/-- The subnet in which the client's lease is renewed, if the request is about it. -/
def renewalSubnet (l : Lease4) : Option (SubnetPtr 32) :=
  if l.addr = addr || addr = 0 then
    match hasAddressReservation ctx s with
    | (true, t) => some t
    | (false, t) => inAllowedPool ctx t l.addr
  else none

/-- The plan, once the address and the subnet are settled. -/
def planFor (s : SubnetPtr 32) : RequestPlan :=
  match clientLease.bind fun l => (renewalSubnet ctx s addr l).map fun t => (l, t) with
  | some (l, t) => .renew l t
  | none => if addr ≠ 0 then .allocate addr s clientLease else .pick s clientLease

/-- The decisions of `requestLease4`. -/
def requestPlan (s : SubnetPtr 32) : Except EngineError RequestPlan := do
  let (clientLease, s) := findClientLease db ctx s
  match ← requestTarget env ctx s with
  | (none, s) => return .refuse s
  | (some addr, s) =>
    if addr ≠ 0 then
      match ← checkRequested env ctx db s addr with
      | (false, s) => return .refuse s
      | (true, s) => return planFor ctx clientLease addr s
    else return planFor ctx clientLease addr s

/-- A new lease makes the client's other lease go. -/
def removePrevious (previous : Option Lease4) (result : Allocation4) : Engine4 Allocation4 := do
  match result.newLease, previous with
  | some _, some l =>
    let _ ← deleteLease l.addr
    addValue (.subnet l.subnetId .assignedAddresses) (-1)
    return { result with oldLease := some l }
  | _, _ => return result

def requestLease4 : Engine4 Allocation4 := do
  match requestPlan env ctx (← get).leases s with
  | .error e => throw e
  | .ok (.refuse t) => return noLease4 t
  | .ok (.renew l t) =>
    let lease ← renewLease4 env ctx t l
    return { newLease := some lease, oldLease := some l, subnet := t }
  | .ok (.allocate addr t previous) =>
    let (lease, old) ← allocateOrReuseLease4 env ctx t addr
    removePrevious previous { newLease := lease, oldLease := old, subnet := t }
  | .ok (.pick t previous) =>
    let result ← allocateUnreservedLease4 env ctx t
    removePrevious previous result

/-! ## Entry points -/

/-- The subnet an allocation starts from: the selected one, if the client may use it. -/
def startSubnet : Option (SubnetPtr 32) :=
  ctx.subnet.bind fun s =>
    if s.clientSupported ctx.classes then some s else s.getNextSubnetFor ctx.classes s

/--
`allocateLease4`. Exceptions are caught and leave no lease; a null pointer is not caught.
-/
def allocateLease4 : Engine4 Allocation4 :=
  match startSubnet ctx, ctx.hwaddr with
  | some s, some _ =>
    tryCatch (if ctx.fakeAllocation then discoverLease4 env ctx s else requestLease4 env ctx s)
      fun e => if e = .nullPointer then throw e else pure (noLease4 s)
  -- `BadValue`: no subnet, or no hardware address.
  | s, _ => pure (noLease4 s)

/-- The reservations of a client by subnet, when one query per identifier fetches them all. -/
def hostMap (env : Env) (ids : List IdentifierPair) (id : SubnetID) : Option Host :=
  -- A later host replaces an earlier one under the same key.
  ((ids.flatMap env.hostMgr.getAll).filter fun h => 0 < h.ipv4SubnetId && h.ipv4SubnetId = id).getLast?

def findGlobalReservation4 (env : Env) (ids : List IdentifierPair) : Option Host :=
  ids.findSome? (env.hostMgr.get4 subnetIdGlobal)

/-- The host that `findReservation` settles on for one subnet. -/
def hostInSubnet4 (env : Env) (ids : List IdentifierPair) (singleQuery : Bool) (s : SubnetPtr 32) :
    Option Host :=
  if ids.isEmpty then none
  else if singleQuery then hostMap env ids s.getID
  else ids.findSome? (env.hostMgr.get4 s.getID)

/-- `findReservation`, with `use_single_query` as given: the hosts of the client, by subnet. -/
def findReservationWith4 (singleQuery : Bool) : List (SubnetID × Host) :=
  match ctx.subnet with
  | none => []
  | some s =>
    match (if s.mode = .global then findGlobalReservation4 env ctx.hostIdentifiers else none) with
    | some ghost => [(subnetIdGlobal, ghost)]
    | none =>
      (s.walkFor ctx.classes).filterMap fun t =>
        if t.clientSupported ctx.classes && t.mode ≠ .disabled then
          (hostInSubnet4 env ctx.hostIdentifiers singleQuery t).map fun h => (t.getID, h)
        else none

def findReservation4 : List (SubnetID × Host) :=
  findReservationWith4 env ctx (useSingleQuery ctx.subnet ctx.hostIdentifiers)

end Dhcp
