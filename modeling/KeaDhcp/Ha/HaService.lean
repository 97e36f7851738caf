import KeaDhcp.Ha.CommunicationState
import KeaDhcp.Dhcpsrv.NetworkState

/-!
# The high availability service

`src/hooks/dhcp/high_availability/ha_service.cc`: the state machine of a server. What is only logged
is left out.
-/

namespace Ha

open Infra Util Dhcp QueryFilter CommunicationState

/-- The events of the state machine. -/
inductive HAEvent where
  | heartbeatComplete | leaseUpdatesComplete | syncingFailed | syncingSucceeded
  deriving DecidableEq

/--
A lease update that has been sent for a query and not been answered. Queries are told apart by
numbers, in the place of pointers.
-/
structure LeaseUpdate where
  query : Nat
  peer : PeerConfig
  deriving DecidableEq

structure Members (t : HAServerType) where
  config : HAConfig
  networkState : NetworkState
  communicationState : CommunicationState t
  queryFilter : QueryFilter
  pendingRequests : Nat → Option Int
  /-- The lease updates that `client_` has sent. -/
  leaseUpdates : List LeaseUpdate

abbrev HAService (t : HAServerType) := Derived HAState HAEvent (Members t)

/-- The error messages of the three requests of a synchronization, empty where there is none. -/
structure SyncOutcome where
  disable : String
  leases : String
  enable : String
  deriving DecidableEq

/-- What a handler learns while it runs: the time, and how a synchronization ends. -/
structure Outside where
  now : Int
  sync : SyncOutcome
  deriving DecidableEq

abbrev ServiceM (t : HAServerType) := EStateM HAError (HAService t)

namespace HAService

variable {t : HAServerType}

/-! ## Parts of the service -/

def modifyModel (f : StateModel HAState HAEvent → StateModel HAState HAEvent) : ServiceM t Unit :=
  modify fun d => { d with model := f d.model }

def modifyComm (f : CommunicationState t → CommunicationState t) : ServiceM t Unit :=
  modify fun d => { d with
    members := { d.members with communicationState := f d.members.communicationState } }

/-- A method of `communication_state_`. -/
def comm {α : Type} : CommunicationState.CommM t α → ServiceM t α :=
  zoom (·.members.communicationState)
    fun c d => { d with members := { d.members with communicationState := c } }

/-- A method of `query_filter_`. -/
def filter {α : Type} : FilterM α → ServiceM t α :=
  zoom (·.members.queryFilter) fun f d => { d with members := { d.members with queryFilter := f } }

def ofExcept {α : Type} : Except HAError α → ServiceM t α
  | .ok a => pure a
  | .error e => throw e

def getThisServerConfig : ServiceM t PeerConfig := do
  ofExcept (← get).members.config.getThisServerConfig

def postNextEvent (event : ModelEvent HAEvent) : ServiceM t Unit :=
  modifyModel (·.postNextEvent event)

def doOnEntry : ServiceM t Bool := do
  let flag := (← get).model.onEntryFlag
  modifyModel (·.entered)
  return flag

/-! ## Conditions -/

def shouldSendLeaseUpdates (peer : PeerConfig) : ServiceM t Bool := do
  let d ← get
  if !d.members.config.sendLeaseUpdates then return false
  if peer.role = .backup then return true
  if (← getThisServerConfig).role = .backup then return false
  return d.model.currState = .derived .hotStandby || d.model.currState = .derived .loadBalancing

def shouldPartnerDown (now : Int) : ServiceM t Bool := do
  let d ← get
  let config := d.members.config
  if d.members.communicationState.isCommunicationInterrupted config now then
    let role := (← getThisServerConfig).role
    if d.members.networkState.isServiceEnabled &&
        (config.haMode = .loadBalancing || role = .standby) then
      return d.members.communicationState.failureDetected config
    return true
  return false

def shouldTerminate : ServiceM t Bool := do
  return (← get).members.communicationState.clockSkewShouldTerminate

/-- The states in which the DHCP service should be enabled. -/
def shouldEnable : ModelState HAState → Bool
  | .derived .loadBalancing | .derived .hotStandby | .derived .partnerDown
  | .derived .terminated => true
  | _ => false

/-- The network state that fits a state of the service. -/
def adjusted (state : ModelState HAState) (n : NetworkState) : NetworkState :=
  if !shouldEnable state && n.isServiceEnabled then n.disableService
  else if shouldEnable state && !n.isServiceEnabled then n.enableService
  else n

def adjustNetworkState : ServiceM t Unit :=
  modify fun d => { d with
    members := { d.members with
      networkState := adjusted d.model.currState d.members.networkState } }

/-! ## The heartbeat -/

def startHeartbeat : ServiceM t Unit := do
  let delay := (← get).members.config.heartbeatDelay
  if delay > 0 then
    comm (startHeartbeatInternal delay.toNat true)

def scheduleHeartbeat : ServiceM t Unit := do
  if !(← get).members.communicationState.isHeartbeatRunning then
    startHeartbeat

/-! ## Transitions -/

/-- `verboseTransition`: afterwards it looks up the partner, to log whether it gets updates. -/
def verboseTransition (state : HAState) : ServiceM t Unit := do
  modifyModel fun m => m.transition (.derived state) m.nextEvent
  if (← getThisServerConfig).role ≠ .backup then
    let partner ← ofExcept (← get).members.config.getFailoverPeerConfig
    let _ ← shouldSendLeaseUpdates partner

/-- What the handlers do when the state has just been entered. -/
def onEntry (serve : ServiceM t Unit) : ServiceM t Unit := do
  if ← doOnEntry then
    serve
    adjustNetworkState

/-! ## The synchronization -/

/-- The requests to disable the partner, to fetch its leases and to enable it; the last two are
made once it has been disabled. -/
def exchange (serverName : String) (sync : SyncOutcome) : ServiceM t String := do
  let _ ← ofExcept ((← get).members.config.getPeerConfig serverName)
  if sync.disable ≠ "" then
    modifyComm (·.setUnavailable)
    return sync.disable
  let _ ← ofExcept (← get).members.config.getFailoverPeerConfig
  if sync.leases ≠ "" then
    modifyComm (·.setUnavailable)
  if sync.enable ≠ "" then
    modifyComm (·.setUnavailable)
  return if sync.leases ≠ "" then sync.leases else sync.enable

/-- `synchronize`: whether it succeeded, and the text of its answer. -/
def synchronize (serverName : String) (sync : SyncOutcome) : ServiceM t (Bool × String) := do
  let statusMessage ← exchange serverName sync
  if statusMessage ≠ "" then
    postNextEvent (.derived .syncingFailed)
    return (false, statusMessage)
  postNextEvent (.derived .syncingSucceeded)
  return (true, "Lease database synchronization complete.")

/-! ## The handlers of the states -/

def backupStateHandler : ServiceM t Unit := do
  onEntry (filter serveNoScopes)
  postNextEvent .nop

/-- Transition to `PARTNER_DOWN`, if the partner seems to be down. -/
def partnerDownOrNop (now : Int) : ServiceM t Unit := do
  if ← shouldPartnerDown now then
    verboseTransition .partnerDown
  else
    postNextEvent .nop

variable (out : Outside)

def normalStateHandler : ServiceM t Unit := do
  onEntry (filter serveDefaultScopes)
  scheduleHeartbeat
  if (← get).model.paused then
    postNextEvent .nop
  else if ← shouldTerminate then
    verboseTransition .terminated
  else
    match (← get).members.communicationState.partnerState with
    | .known .partnerDown => verboseTransition .waiting
    | .known .terminated => verboseTransition .terminated
    | .unavailable => partnerDownOrNop out.now
    | _ => postNextEvent .nop

/-- The state for normal operation in the mode of the configuration. -/
def normalState (config : HAConfig) : HAState :=
  match config.haMode with
  | .loadBalancing => .loadBalancing
  | .hotStandby => .hotStandby

/-- The scopes of `PARTNER_DOWN`. -/
def servePartnerDown : ServiceM t Unit := do
  if (← getThisServerConfig).autoFailover then
    filter serveFailoverScopes
  else
    filter serveDefaultScopes

def partnerDownStateHandler : ServiceM t Unit := do
  onEntry servePartnerDown
  scheduleHeartbeat
  if (← get).model.paused then
    postNextEvent .nop
  else if ← shouldTerminate then
    verboseTransition .terminated
  else
    match (← get).members.communicationState.partnerState with
    | .known .hotStandby | .known .loadBalancing | .known .partnerDown => verboseTransition .waiting
    | .known .ready => verboseTransition (normalState (← get).members.config)
    | .known .terminated => verboseTransition .terminated
    | _ => postNextEvent .nop

def readyStateHandler : ServiceM t Unit := do
  onEntry (filter serveNoScopes)
  scheduleHeartbeat
  if (← get).model.paused then
    postNextEvent .nop
  else if ← shouldTerminate then
    verboseTransition .terminated
  else
    match (← get).members.communicationState.partnerState with
    | .known .hotStandby => verboseTransition .hotStandby
    | .known .loadBalancing => verboseTransition .loadBalancing
    | .known .ready =>
      -- "If both servers are ready, the primary server "wins""
      if (← getThisServerConfig).role = .primary then
        verboseTransition (normalState (← get).members.config)
      else
        postNextEvent .nop
    | .known .terminated => verboseTransition .terminated
    | .unavailable => partnerDownOrNop out.now
    | _ => postNextEvent .nop

/-- The synchronization of `SYNCING`, with the heartbeat stopped. -/
def syncWithPartner : ServiceM t Unit := do
  modifyComm (·.stopHeartbeat)
  let partner ← ofExcept (← get).members.config.getFailoverPeerConfig
  let (success, _) ← synchronize partner.name out.sync
  if success then
    verboseTransition .ready
  else
    postNextEvent .nop

def syncingStateHandler : ServiceM t Unit := do
  onEntry (filter serveNoScopes)
  if (← get).model.paused then
    postNextEvent .nop
  else if ← shouldTerminate then
    verboseTransition .terminated
  else
    match (← get).members.communicationState.partnerState with
    | .known .terminated => verboseTransition .terminated
    | .unavailable =>
      partnerDownOrNop out.now
      scheduleHeartbeat
    | _ =>
      syncWithPartner out
      scheduleHeartbeat

/-- "In the terminated state we don't send heartbeat." -/
def terminatedStateHandler : ServiceM t Unit := do
  if ← doOnEntry then
    filter serveDefaultScopes
    adjustNetworkState
    modifyComm (·.stopHeartbeat)
  postNextEvent .nop

/-- The state after `WAITING`. -/
def syncingOrReady (config : HAConfig) : HAState := if config.syncLeases then .syncing else .ready

def waitingStateHandler : ServiceM t Unit := do
  onEntry (filter serveNoScopes)
  let role := (← getThisServerConfig).role
  if role ≠ .backup then
    scheduleHeartbeat
  if (← get).model.paused then
    postNextEvent .nop
  else if role = .backup then
    verboseTransition .backup
  else if ← shouldTerminate then
    verboseTransition .terminated
  else
    match (← get).members.communicationState.partnerState with
    | .known .hotStandby | .known .loadBalancing | .known .partnerDown | .known .ready =>
      verboseTransition (syncingOrReady (← get).members.config)
    | .known .terminated => verboseTransition .terminated
    | .known .waiting =>
      -- "If both servers are waiting, the primary server 'wins'"
      if role = .primary then
        verboseTransition (syncingOrReady (← get).members.config)
      else
        postNextEvent .nop
    | .unavailable => partnerDownOrNop out.now
    | _ => postNextEvent .nop

/-- `defineStates`. -/
def stateHandler : HAState → Outside → ServiceM t Unit
  | .backup, _ => backupStateHandler
  | .hotStandby, out | .loadBalancing, out => normalStateHandler out
  | .partnerDown, _ => partnerDownStateHandler
  | .ready, out => readyStateHandler out
  | .syncing, out => syncingStateHandler out
  | .terminated, _ => terminatedStateHandler
  | .waiting, out => waitingStateHandler out

/-- The constructor, up to `startModel`. -/
def construct (t : HAServerType) (config : HAConfig) (networkState : NetworkState) (now : Int) :
    Except HAError (HAService t) := do
  let f ← new config
  return {
    model := StateModel.fresh config.getPausing
    members :=
      { config := config, networkState := networkState
        communicationState := fresh now, queryFilter := f
        pendingRequests := fun _ => none, leaseUpdates := [] } }

end HAService

end Ha
