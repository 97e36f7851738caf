import KeaDhcp.Ha.QueryFilter

/-!
# The communication with the partner

`src/hooks/dhcp/high_availability/communication_state.cc`: when the partner was last heard of, which
state it was in, and which of its clients go unanswered. Points in time are in microseconds; the
warnings about the clock skew, which are only logged, are left out.
-/

namespace Ha

open Infra

inductive HAServerType where
  | dhcpv4 | dhcpv6
  deriving DecidableEq

namespace HAServerType

/-- The queries of the two protocols. -/
abbrev Query : HAServerType → Type
  | .dhcpv4 => Query4
  | .dhcpv6 => Query6

/-- How a client is told from others: hardware address and client identifier, or DUID. -/
abbrev Client : HAServerType → Type
  | .dhcpv4 => List UInt8 × List UInt8
  | .dhcpv6 => List UInt8

instance (t : HAServerType) : DecidableEq t.Client :=
  match t with
  | .dhcpv4 => inferInstanceAs (DecidableEq (List UInt8 × List UInt8))
  | .dhcpv6 => inferInstanceAs (DecidableEq (List UInt8))

end HAServerType

/-- `partner_state_`: -1 at first, or `HA_UNAVAILABLE_ST`, or a state of the service. -/
inductive PartnerState where
  | unknown | unavailable | known (state : HAState)
  deriving DecidableEq

/-- The timer of the heartbeats; once it has run off it stays, but is not armed any more. -/
structure IntervalTimer where
  interval : Nat
  armed : Bool
  deriving DecidableEq

structure CommunicationState (t : HAServerType) where
  timer : Option IntervalTimer
  interval : Nat
  /-- Whether there is a `heartbeat_impl_`. -/
  heartbeatImpl : Bool
  pokeTime : Int
  partnerState : PartnerState
  /-- In seconds. -/
  clockSkew : Int
  unackedClients : List t.Client

namespace CommunicationState

variable {t : HAServerType}

abbrev CommM (t : HAServerType) := EStateM HAError (CommunicationState t)

variable (c : CommunicationState t) (config : HAConfig) (now : Int)

/-- The constructor. -/
def fresh : CommunicationState t :=
  { timer := none, interval := 0, heartbeatImpl := false, pokeTime := now, partnerState := .unknown
    clockSkew := 0, unackedClients := [] }

/-! ## The state and the time of the partner -/

/-- The states that a partner may report. -/
def partnerStateOf (state : String) : Option PartnerState :=
  if state = "hot-standby" then some (.known .hotStandby)
  else if state = "load-balancing" then some (.known .loadBalancing)
  else if state = "partner-down" then some (.known .partnerDown)
  else if state = "ready" then some (.known .ready)
  else if state = "syncing" then some (.known .syncing)
  else if state = "terminated" then some (.known .terminated)
  else if state = "waiting" then some (.known .waiting)
  else if state = "unavailable" then some .unavailable
  else none

def setPartnerState (state : String) : CommM t Unit :=
  match partnerStateOf state with
  | some s => modify fun c => { c with partnerState := s }
  | none => throw (.badValue ("unsupported HA partner state returned " ++ state))

/-- `setPartnerState("unavailable")`. -/
def setUnavailable : CommunicationState t :=
  { c with partnerState := .unavailable }

def isClockSkewGreater (seconds : Int) : Bool :=
  c.clockSkew > seconds || c.clockSkew < -seconds

/-- `clockSkewShouldTerminate`, with `TERM_CLOCK_SKEW`. -/
def clockSkewShouldTerminate : Bool := c.isClockSkewGreater 60

/-! ## The heartbeat -/

/--
`startHeartbeatInternal`. An interval of 0 and no implementation stand for the default arguments;
the timer is not set up again unless one of them is given.
-/
def startHeartbeatInternal (interval : Nat) (heartbeatImpl : Bool) : CommM t Unit := do
  let c ← get
  if heartbeatImpl then
    modify fun c => { c with heartbeatImpl := true }
  else if !c.heartbeatImpl then
    throw (.badValue ("unable to start heartbeat when pointer to the heartbeat implementation is" ++
      " not specified"))
  if interval ≠ 0 then
    modify fun c => { c with interval := interval }
  else if c.interval = 0 then
    modify fun c => { c with heartbeatImpl := false }
    throw (.badValue ("unable to start heartbeat when interval for the heartbeat timer is" ++
      " not specified"))
  modify fun c => { c with timer := some (c.timer.getD { interval := 0, armed := false }) }
  if heartbeatImpl || (interval ≠ 0 && c.interval ≠ interval) then
    modify fun c => { c with timer := some { interval := c.interval, armed := true } }

def stopHeartbeat : CommunicationState t :=
  match c.timer with
  | some _ => { c with timer := none, interval := 0, heartbeatImpl := false }
  | none => c

def isHeartbeatRunning : Bool := c.timer.isSome

def poke : CommM t Unit := do
  let prevPokeTime := (← get).pokeTime
  modify fun c => { c with pokeTime := now, unackedClients := [] }
  if (← get).timer.isSome && (now - prevPokeTime).tdiv 1000000 > 0 then
    startHeartbeatInternal 0 false

def getDurationInMillisecs : Int :=
  (now - c.pokeTime).tdiv 1000

def isCommunicationInterrupted : Bool :=
  c.getDurationInMillisecs now > config.maxResponseDelay.toNat

/-! ## Unanswered clients -/

/-- "some Windows clients may send swapped bytes in the "secs" field" -/
def correctedSecs (secs : UInt16) : UInt16 :=
  if secs > 255 ∧ secs &&& 0xFF = 0 then (secs >>> 8) ||| (secs <<< 8) else secs

/-- The time for which the client has been trying, in milliseconds. -/
def waitingTime : (t : HAServerType) → t.Query → Option Nat
  | .dhcpv4, query => some ((correctedSecs query.secs).toNat * 1000)
  | .dhcpv6, query => query.elapsedTime.map (·.toNat * 10)

/--
The client of a query, as it is recorded. Every `Pkt4` has a hardware address; without a client
identifier that part stays empty.
-/
def clientOf : (t : HAServerType) → t.Query → Option t.Client
  | .dhcpv4, query => some ((query.hwaddr.map (·.hwaddr)).getD [], query.clientId.getD [])
  | .dhcpv6, query => query.duid

/-- The client to record for a query: it has been trying for too long. -/
def unanswered (t : HAServerType) (config : HAConfig) (query : t.Query) : Option t.Client :=
  match waitingTime t query with
  | some waited => if waited ≤ config.maxAckDelay.toNat then none else clientOf t query
  | none => none

/-- `analyzeMessage`: a client that is recorded already is not recorded again. -/
def analyzeMessage (query : t.Query) (c : CommunicationState t) : CommunicationState t :=
  match unanswered t config query with
  | some client =>
    if client ∈ c.unackedClients then c
    else { c with unackedClients := c.unackedClients ++ [client] }
  | none => c

def failureDetected : Bool :=
  config.maxUnackedClients = 0 || c.unackedClients.length > config.maxUnackedClients.toNat

end CommunicationState

end Ha
