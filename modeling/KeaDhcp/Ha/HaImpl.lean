import KeaDhcp.Ha.HaService
import KeaDhcp.Hooks.ParkingLots

/-!
# A server with the high availability service

What happens to a server that runs the service: the completion handlers of `ha_service.cc`, the
callouts and commands of `ha_impl.cc`, and the parts of the server that they touch (the parking lot
of the hook point, the commands to disable and to enable the DHCP service, the timer that enables it
again).
-/

namespace Ha

open Infra Util Dhcp Hooks HAService CommunicationState QueryFilter

structure HAServer (t : HAServerType) where
  service : HAService t
  /-- The callback of a parked query resumes it. -/
  parkingLot : ParkingLot Nat Nat
  /-- The queries that have been resumed, the last one first. -/
  resumed : List Nat

abbrev ServerM (t : HAServerType) := EStateM HAError (HAServer t)

namespace HAServer

variable {t : HAServerType}

def onService {α : Type} : ServiceM t α → ServerM t α :=
  zoom (·.service) fun d s => { s with service := d }

def modifyMembers (f : Members t → Members t) : ServerM t Unit :=
  modify fun s => { s with service := { s.service with members := f s.service.members } }

/-! ## Heartbeats -/

/--
The answer to a heartbeat: none that can be used, or its arguments. A member that is missing or not
a string is `none`; the time is given as the clock skew, if it can be read.
-/
inductive HeartbeatAnswer where
  | failed
  | arguments (state : Option String) (dateTime : Option (Option Int))

/-- What the handler takes from an answer. -/
def accept : HeartbeatAnswer → CommunicationState.CommM t Unit
  | .failed => throw (.badValue "no valid HTTP response found")
  | .arguments none _ =>
    throw (.badValue ("server state not returned in response to a ha-heartbeat command or it is" ++
      " not a string"))
  | .arguments (some state) dateTime => do
    setPartnerState state
    match dateTime with
    | none =>
      throw (.badValue ("date-time not returned in response to a ha-heartbeat command or it is" ++
        " not a string"))
    | some none => throw (.badValue "unable to parse the time")
    | some (some skew) => modify fun c => { c with clockSkew := skew }

/-- The handler of `asyncSendHeartbeat`, up to the run of the state machine. -/
def heartbeatCompleted (answer : HeartbeatAnswer) (now : Int) : ServiceM t Unit := do
  let success ← comm (tryCatch (do accept answer; return true) fun _ => return false)
  if success then
    comm (poke now)
  else
    modifyComm (·.setUnavailable)
  startHeartbeat

/-! ## Lease updates -/

variable (query leases deletedLeases : Nat)

def asyncSendLeaseUpdate (peer : PeerConfig) : ServiceM t Unit :=
  modify fun d => { d with
    members := { d.members with
      leaseUpdates := d.members.leaseUpdates ++ [{ query := query, peer := peer }]
      pendingRequests := Function.update d.members.pendingRequests query
        (some ((d.members.pendingRequests query).getD 0 + 1)) } }

/-- One round of the loop over the peers; the number of contacted servers is counted. -/
def sendToPeer (sentNum : Nat) (peer : PeerConfig) : ServiceM t Nat := do
  if ← shouldSendLeaseUpdates peer then
    (List.replicate deletedLeases peer).forM (asyncSendLeaseUpdate query)
    (List.replicate leases peer).forM (asyncSendLeaseUpdate query)
    return sentNum + 1
  else
    return sentNum

/-- `asyncSendLeaseUpdates`, for a number of leases and deleted leases. -/
def asyncSendLeaseUpdates : ServiceM t Nat := do
  let peers := (← get).members.config.getOtherServersConfig.map Prod.snd
  peers.foldlM (sendToPeer query leases deletedLeases) 0

/-- `leases4Committed` and `leases6Committed`: whether the query is to be parked. -/
def leasesCommitted : ServerM t Bool := do
  if !(← get).service.members.config.sendLeaseUpdates then return false
  if leases = 0 ∧ deletedLeases = 0 then return false
  if (← onService (asyncSendLeaseUpdates query leases deletedLeases)) = 0 then return false
  modify fun s => { s with parkingLot := s.parkingLot.reference query }
  return true

/-- The server after the callout: it parks the query if there is a response to send. -/
def parkQuery (rsp : Bool) : ServerM t Unit := do
  if rsp then
    match (← get).parkingLot.park query query with
    | some lot => modify fun s => { s with parkingLot := lot }
    | none =>
      throw (.invalidOperation ("unable to park an object because reference count for this object" ++
        " hasn't been increased. Call ParkingLot::reference() first"))

/-- `unpark`, with the callback run; to run an empty function is an error. -/
def unparkQuery : ServerM t Unit := do
  let unparked := (← get).parkingLot.unpark query false
  modify fun s => { s with parkingLot := unparked.lot }
  match unparked.callback with
  | none => pure ()
  | some none => throw .badFunctionCall
  | some (some resumed) => modify fun s => { s with resumed := resumed :: s.resumed }

/-- What the success of a lease update means for the partner; a backup server does not matter. -/
def noteUpdate (update : LeaseUpdate) (success : Bool) (now : Int) : ServerM t Unit := do
  if update.peer.role ≠ .backup then
    if success then
      onService (comm (poke now))
    else
      modify fun s => { s with parkingLot := (s.parkingLot.drop update.query).1 }
      onService (modifyComm (·.setUnavailable))

/--
The handler of `asyncSendLeaseUpdate`, up to the run of the state machine: whether it is run, that
is, whether this was the last update for the query.
-/
def leaseUpdateCompleted (update : LeaseUpdate) (success : Bool) (now : Int) : ServerM t Bool := do
  modifyMembers fun m => { m with leaseUpdates := m.leaseUpdates.erase update }
  noteUpdate update success now
  match (← get).service.members.pendingRequests update.query with
  | none =>
    unparkQuery update.query
    return true
  | some pending =>
    modifyMembers fun m => { m with
      pendingRequests := Function.update m.pendingRequests update.query (some (pending - 1)) }
    if pending - 1 ≤ 0 then
      unparkQuery update.query
      modifyMembers fun m => { m with
        pendingRequests := Function.update m.pendingRequests update.query none }
      return true
    else
      return false

/-! ## Queries and commands -/

/-- The query filter for either protocol. -/
def inScopeOf : (t : HAServerType) → QueryFilter → t.Query → String → Bool × String
  | .dhcpv4 => inScope4
  | .dhcpv6 => inScope6

/-- `inScope`: whether this server should process the query. -/
def inScope (query : t.Query) (now : Int) : ServiceM t Bool := do
  let d ← get
  let (served, _) := inScopeOf t d.members.queryFilter query ""
  if !served &&
      d.members.communicationState.isCommunicationInterrupted d.members.config now then
    modifyComm (·.analyzeMessage d.members.config query)
  return served

def processScopes (scopes : List String) : ServiceM t Unit := do
  filter (serveScopes scopes)
  adjustNetworkState

def processContinue : ServiceM t Unit :=
  modifyModel fun m => if m.paused then m.unpauseModel else m

/-- `dhcp-enable`, followed by the callout `commandProcessed`. -/
def dhcpEnable : ServiceM t Unit := do
  modify fun d => { d with
    members := { d.members with networkState := d.members.networkState.commandDhcpEnable.1 } }
  adjustNetworkState

/-! ## Runs -/

/-- What can happen to a server. Where the state machine may run, there is the outside of each round. -/
inductive Happening (t : HAServerType) where
  /-- The end of the constructor of the service. -/
  | start (rounds : List Outside)
  | heartbeat (answer : HeartbeatAnswer) (now : Int) (rounds : List Outside)
  | leaseUpdate (update : LeaseUpdate) (success : Bool) (now : Int) (rounds : List Outside)
  | committed (query leases deletedLeases : Nat) (rsp : Bool)
  | received (query : t.Query) (now : Int)
  /-- The heartbeat timer runs off and a heartbeat is sent. -/
  | heartbeatTimer
  | haSync (serverName : String) (sync : SyncOutcome)
  | haContinue
  | haScopes (scopes : List String)
  | dhcpDisable (args : NetworkState.DisableArguments)
  | dhcpEnable
  /-- The timer runs off that enables the DHCP service. -/
  | enableTimer

/-- A run of the state machine that is due: its event, and the outside of its rounds. -/
abbrev Run := ModelEvent HAEvent × List Outside

/-- The heartbeat timer has run off. -/
def heartbeatTimerExpired (c : CommunicationState t) : CommunicationState t :=
  { c with timer := c.timer.map fun timer => { timer with armed := false } }

/-- The server when the state machine is run, or in the end. -/
def begin (o : Happening t) (s : HAServer t) : HAServer t × Option Run :=
  match o with
  | .start rounds =>
    if s.service.model.currState = .new then
      ({ s with service := { s.service with
          model := s.service.model.setState (.derived .waiting) } }, some (.start, rounds))
    else (s, none)
  | .heartbeat answer now rounds =>
    match onService (heartbeatCompleted answer now) s with
    | .ok _ s' => (s', some (.derived .heartbeatComplete, rounds))
    | .error _ s' => (s', none)
  | .leaseUpdate update success now rounds =>
    match leaseUpdateCompleted update success now s with
    | .ok true s' => (s', some (.derived .leaseUpdatesComplete, rounds))
    | .ok false s' | .error _ s' => (s', none)
  | .committed query leases deletedLeases rsp =>
    (after (do if ← leasesCommitted query leases deletedLeases then parkQuery query rsp) s, none)
  | .received query now => (after (onService (inScope query now)) s, none)
  | .heartbeatTimer => (after (onService (modifyComm heartbeatTimerExpired)) s, none)
  | .haSync serverName sync => (after (onService (synchronize serverName sync)) s, none)
  | .haContinue => (after (onService processContinue) s, none)
  | .haScopes scopes => (after (onService (processScopes scopes)) s, none)
  | .dhcpDisable args =>
    (after (modifyMembers fun m => { m with
      networkState := (m.networkState.commandDhcpDisable args).1 }) s, none)
  | .dhcpEnable => (after (onService dhcpEnable) s, none)
  | .enableTimer =>
    (after (modifyMembers fun m => { m with networkState := m.networkState.timerExpired }) s, none)

/-- The server after the happening. A run of the state machine that does not return leads nowhere. -/
def step (o : Happening t) (s : HAServer t) : HAServer t :=
  match begin o s with
  | (s', none) => s'
  | (s', some (event, rounds)) =>
    match Derived.runModel stateHandler event rounds s'.service with
    | some d => { s' with service := d }
    | none => s

/-- A server whose service has been constructed but not started. -/
def Constructed (config : HAConfig) (s : HAServer t) : Prop :=
  (∃ networkState now, construct t config networkState now = .ok s.service) ∧
    s.parkingLot = [] ∧ s.resumed = []

end HAServer

end Ha
