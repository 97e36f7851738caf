import KeaDhcp.Dhcp4.Dhcp4Srv

/-!
# DHCPv4 messages

The handlers of `src/bin/dhcp4/dhcp4_srv.cc` for the four messages that reach the lease database:
what the server does and what it answers, without hooks. The exchange carries what the server
knows of a query once the subnet is selected and reservations are looked up. Of the options of a
response only the names are kept; `processClientName` adds them before a lease is assigned.
-/

namespace Dhcp

open Infra Engine4

/-- The name option of the response. -/
inductive ClientName where
  | absent
  /-- A Client FQDN option; the flags are those of `getUpdateDirections`. -/
  | fqdn (name : String) (fwd rev : Bool)
  /-- A Hostname option. The root domain asks for a name that the server makes up. -/
  | hostname (value : String)
  deriving DecidableEq

namespace ClientName

/-- The name and the directions of DNS updates that the context is given. -/
def forContext : ClientName → String × Bool × Bool
  | absent => ("", false, false)
  | fqdn name fwd rev => (name, fwd, rev)
  | hostname value => (if value = "." then "" else value, true, true)

/-- The option with the name that the lease has in the end. -/
def rename (name : String) : ClientName → ClientName
  | absent => absent
  | fqdn _ fwd rev => fqdn name fwd rev
  | hostname _ => hostname name

def isFqdn : ClientName → Bool
  | fqdn .. => true
  | _ => false

end ClientName

/-- `Dhcpv4Exchange`: the query and what was found for it. -/
structure Exchange4 where
  subnet : Option (SubnetPtr 32)
  hwaddr : Option HWAddr
  clientId : Option ClientId
  ciaddr : Address 32
  /-- The Requested IP Address option. -/
  requestedAddress : Option (Address 32)
  /-- A Server Identifier option is present. -/
  serverId : Bool
  classes : ClientClasses
  hosts : List (SubnetID × Host)
  hostIdentifiers : List IdentifierPair
  /-- The name option that the response has so far. -/
  name : ClientName

inductive ResponseType where
  | offer | ack | nak
  deriving DecidableEq

structure Response4 where
  type : ResponseType
  yiaddr : Address 32
  name : ClientName
  deriving DecidableEq

namespace Exchange4

variable (x : Exchange4)

/-- The address that the client asks for: the option, or else `ciaddr`. -/
def hint : Address 32 := x.requestedAddress.getD x.ciaddr

/-- The context that `assignLease` hands to the engine. -/
def context (fake : Bool) : ClientContext4 :=
  { subnet := x.subnet
    clientid := x.clientId
    hwaddr := x.hwaddr
    requestedAddress := x.hint
    fwdDnsUpdate := x.name.forContext.2.1
    revDnsUpdate := x.name.forContext.2.2
    hostname := x.name.forContext.1
    fakeAllocation := fake
    classes := x.classes
    hosts := x.hosts
    hostIdentifiers := x.hostIdentifiers }

/-- The host name that is reserved for the client in the subnet. -/
def reservedHostname : Option String :=
  ((x.subnet.bind (x.context false).currentHost).map (·.hostname)).filter (· ≠ "")

/-- The lease that a client in INIT-REBOOT state is known by, in the network of `s`. -/
def rebootLease (db : Lease4Storage) (s : SubnetPtr 32) : Option Lease4 :=
  let subnets := s.walkFor x.classes
  ((x.clientId.bind fun c =>
    findLeaseInSubnets (fun _ _ => true) (db.getLease4ByClientId c) subnets).or
  (x.hwaddr.bind fun hw =>
    findLeaseInSubnets (fun _ _ => true) (db.getLease4ByHWAddr hw) subnets)).map Prod.fst

/-- The query is a request of a client in INIT-REBOOT state. -/
def rebooting (fake : Bool) : Bool := !fake && !x.serverId && x.requestedAddress.isSome

end Exchange4

/-! ## Names -/

/-- The options of the query that `processClientName` looks at. -/
structure NameOptions where
  fqdn : Option Option4ClientFqdn
  /-- The value of the Hostname option. -/
  hostname : Option String
  /-- The codes in the Parameter Request List option. -/
  requested : List Nat

def DHO_HOST_NAME : Nat := 12

/-- `OptionString` for the Hostname option, whose value must not be empty. -/
def hostnameOption (value : String) : Except NameError ClientName :=
  if value = "" then .error .exception else .ok (.hostname value)

section Names

variable (d2 : D2Client) (x : Exchange4) (o : NameOptions)

/-- The answer to a Client FQDN option, with the reserved name or one that is made of the client's. -/
def nameFqdnAnswer (fqdn : Option4ClientFqdn) : Except NameError Option4ClientFqdn :=
  match x.reservedHostname with
  | some hostname => fqdn.setDomainName (d2.qualifyName hostname true) .full
  | none => d2.adjustDomainName fqdn

/-- `processClientFqdnOption`: the option that is added to the response. -/
def processClientFqdnOption (fqdn : Option4ClientFqdn) : Except NameError ClientName := do
  let (serverS, serverN) ← d2.analyzeFqdn fqdn.flagS fqdn.flagN
  let resp ← nameFqdnAnswer d2 x fqdn
  -- `assignLease` reads the name from the response, where no exception is caught.
  let name ← resp.getDomainName.mapError fun _ => .abort
  return .fqdn name serverS (!serverN)

/-- The reserved host name, where the client has sent a Hostname option or asks for one. -/
def wantedHostname : Option String :=
  x.reservedHostname.filter fun _ => o.hostname.isSome || o.requested.contains DHO_HOST_NAME

/-- `OptionDataTypeUtil::getLabelCount`. -/
def labelCount (name : String) : Except NameError Nat :=
  (Dns.getLabelCount (Util.ascii name)).mapError .ofFailure

/-- The client's name as it is sent back, if it has this number of labels. -/
def sentHostname (count : Nat) (hostname : String) : Except NameError String := do
  let hostname ←
    match d2.hostnameSanitizer with
    | some scrub => scrub hostname
    | none => .ok hostname
  return if count = 2 then d2.qualifyName hostname false else hostname

/-- What is made of the name in the client's Hostname option. -/
def answerHostname (value : String) : Except NameError ClientName := do
  let hostname := Util.trim value
  let count ← labelCount hostname
  if count = 0 then return .absent
  -- The root domain asks for a name that the server makes up later on.
  else if d2.replacesPresent || count < 2 then hostnameOption "."
  else hostnameOption (← sentHostname d2 count hostname)

/-- `processHostnameOption`: the option that is added to the response. -/
def processHostnameOption : Except NameError ClientName :=
  match wantedHostname x o, o.hostname with
  | some reserved, _ => hostnameOption (d2.qualifyName reserved false)
  | none, some value => answerHostname d2 value
  | none, none =>
    if d2.replaceClientNameMode = .always || d2.replaceClientNameMode = .whenNotPresent then
      hostnameOption "."
    else .ok .absent

/-- The name option for the response. The Client FQDN option is preferred to the Hostname option. -/
def nameOption : Except NameError ClientName :=
  match o.fqdn with
  | some fqdn => processClientFqdnOption d2 x fqdn
  | none => processHostnameOption d2 x o

/-- `processClientName`: the exchange with the name option of the response. -/
def processClientName : Except NameError Exchange4 :=
  match nameOption d2 x o with
  | .ok name => .ok { x with name := name }
  -- The exception is logged.
  | .error .exception => .ok { x with name := .absent }
  | .error .abort => .error .abort

end Names

/-! ## Leases -/

/-- What comes of the checks that `assignLease` makes before it allocates. -/
inductive AssignCheck where
  /-- The response is deleted. -/
  | ignore
  | refuse
  | proceed
  deriving DecidableEq

/-- The checks on a client in INIT-REBOOT state: it has to be known, with the address it names. -/
def Exchange4.rebootCheck (x : Exchange4) (db : Lease4Storage) (s : SubnetPtr 32) : AssignCheck :=
  match x.rebootLease db s with
  | none => .ignore
  | some lease =>
    if !lease.belongsToClient x.hwaddr x.clientId then .ignore
    else if lease.addr ≠ x.hint then .refuse
    else .proceed

/-- The checks that come before an allocation. -/
def Exchange4.check (x : Exchange4) (fake : Bool) (db : Lease4Storage) (s : SubnetPtr 32) :
    AssignCheck :=
  if x.rebooting fake then x.rebootCheck db s else .proceed

variable (env : Env)

def createNameChangeRequests (lease : Lease4) (old : Option Lease4) : Engine4 Unit :=
  match old with
  | none => queueNCR env .add lease
  | some o =>
    if lease.hasIdenticalFqdn o.toLease then pure ()
    else do
      queueNCR env .remove o
      queueNCR env .add lease

/--
The name that replaces the one of the allocated lease: the reserved one, or one that is made up
for a lease without a name. Nothing replaces it where the client is not told a name.
-/
def Exchange4.finalName (x : Exchange4) (fake : Bool) (s : Option (SubnetPtr 32)) (lease : Lease4) :
    Option String :=
  if x.name = .absent then none
  else
    match (s.bind (x.context fake).currentHost).filter (·.hostname ≠ "") with
    | some host => some (env.d2.qualifyName host.hostname x.name.isFqdn)
    | none =>
      if lease.hostname = "" then some (env.d2.generateFqdn lease.addr x.name.isFqdn) else none

/-- The step of `assignLease` that settles the name, in the database and in the response. -/
def settleName (x : Exchange4) (fake : Bool) (s : Option (SubnetPtr 32)) (lease : Lease4) :
    Engine4 (Lease4 × ClientName) :=
  match x.finalName env fake s lease with
  | none => return (lease, x.name)
  | some name => do
    let lease := { lease with hostname := name }
    -- An exception of the database is logged, and leaves the option as it was.
    tryCatch (do
      if !fake then updateLease4 lease
      return (lease, x.name.rename name)) fun _ => return (lease, x.name)

/-- The end of `assignLease`: what the engine returns goes into the response. -/
def respond (fake : Bool) (x : Exchange4) (result : Allocation4) : Engine4 (Option Response4) :=
  match result.newLease with
  | none => return some { type := .nak, yiaddr := 0, name := .absent }
  | some lease => do
    let (lease, name) ← settleName env x fake result.subnet lease
    if !fake && env.d2.ddnsEnabled then createNameChangeRequests env lease result.oldLease
    return some { type := if fake then .offer else .ack, yiaddr := lease.addr, name := name }

/-- `assignLease`: the response, unless it is deleted. -/
def assignLease (fake : Bool) (x : Exchange4) : Engine4 (Option Response4) :=
  match x.subnet with
  | none => return some { type := .nak, yiaddr := 0, name := x.name }
  | some s => do
    match x.check fake (← get).leases s with
    | .ignore => return none
    | .refuse => return some { type := .nak, yiaddr := 0, name := x.name }
    | .proceed => respond env fake x (← allocateLease4 env (x.context fake))

/-- `sanityCheck(query, FORBIDDEN)`: no server identifier, and something to know the client by. -/
def Exchange4.sane (x : Exchange4) : Bool :=
  !x.serverId && (x.hwaddr.any (·.hwaddr ≠ []) || x.clientId.isSome)

/-- `processDiscover`. A query that fails the sanity check is dropped, as is an empty offer. -/
def processDiscover (x : Exchange4) : Engine4 (Option Response4) := do
  if !x.sane then return none
  else return (← assignLease env true x).filter (·.yiaddr ≠ 0)

def processRequest (x : Exchange4) : Engine4 (Option Response4) :=
  assignLease env false x

/-- The messages that reach the lease database. -/
inductive Message4 where
  | discover (x : Exchange4)
  | request (x : Exchange4)
  | release (m : ClientMessage4)
  | decline (declinePeriod : Nat) (m : ClientMessage4)

/-- What the server does with a message, and its response. -/
def handle4 (env : Env) : Message4 → Engine4 (Option Response4)
  | .discover x => processDiscover env x
  | .request x => processRequest env x
  | .release m => do
    processRelease env m
    return none
  | .decline period m => do
    processDecline env period m
    return none

/-! ## Events -/

/-- What happens to leases: the clients' messages, and the timers for expired leases. -/
inductive Event4 where
  | request (env : Env) (x : Exchange4)
  | release (env : Env) (m : ClientMessage4)
  | decline (env : Env) (declinePeriod : Nat) (m : ClientMessage4)
  | reclaim (env : Env) (maxLeases : Nat) (inTime : Option Nat) (removeLease : Bool)
  | deleteReclaimed (env : Env) (secs : Nat)

/-- The state of the server after an event. -/
def event4 : Event4 → Server4 → Server4
  | .request env x => after (processRequest env x)
  | .release env m => after (processRelease env m)
  | .decline env period m => after (processDecline env period m)
  | .reclaim env maxLeases inTime removeLease =>
    after (reclaimExpiredLeases4 env maxLeases inTime removeLease)
  | .deleteReclaimed env secs => after (deleteExpiredReclaimedLeases4 env secs)

end Dhcp
