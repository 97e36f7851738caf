import Mathlib.Data.List.Sort
import Mathlib.Data.String.Basic
import KeaDhcp.Util.StateModel
import KeaDhcp.Util.StrUtil

/-!
# The configuration of the high availability hooks library

`src/hooks/dhcp/high_availability/ha_config.cc` with the states of `ha_service_states.h`, and the
part of `ha_config_parser.cc` that fills it, as far as the choice of the server for a query depends
on it. The map of the peers is a list with the peers in the order of their names.
-/

namespace Ha

open Util (trim)

/-- The exceptions of the library, with their texts. -/
inductive HAError where
  | badValue (what : String)
  | invalidOperation (what : String)
  | validation (what : String)
  | configError (what : String)
  | badFunctionCall
  deriving DecidableEq

def HAError.what : HAError → String
  | .badValue what | .invalidOperation what | .validation what | .configError what => what
  | .badFunctionCall => "bad_function_call"

inductive Role where
  | primary | secondary | standby | backup
  deriving DecidableEq

def stringToRole (role : String) : Except HAError Role :=
  if role = "primary" then .ok .primary
  else if role = "secondary" then .ok .secondary
  else if role = "standby" then .ok .standby
  else if role = "backup" then .ok .backup
  else .error (.badValue ("unsupported value '" ++ role ++ "' for role parameter"))

inductive HAMode where
  | loadBalancing | hotStandby
  deriving DecidableEq

def stringToHAMode (mode : String) : Except HAError HAMode :=
  if mode = "load-balancing" then .ok .loadBalancing
  else if mode = "hot-standby" then .ok .hotStandby
  else .error (.badValue ("unsupported value '" ++ mode ++ "' for mode parameter"))

/-- The states of the service, without the special state for a partner that is unavailable. -/
inductive HAState where
  | backup | hotStandby | loadBalancing | partnerDown | ready | syncing | terminated | waiting
  deriving DecidableEq

/-- What `Url::parse` made of a URL: an invalid one has an error message. -/
structure Url where
  errorMessage : Option String
  deriving DecidableEq

structure PeerConfig where
  name : String
  url : Url
  role : Role
  autoFailover : Bool := true
  deriving DecidableEq

/-- A peer as it is written in the configuration. -/
structure PeerEntry where
  name : String
  url : Url
  role : String
  autoFailover : Bool := true
  deriving DecidableEq

/--
`peers` is keyed by the names as they are written, the peers have them without blanks around them.
Delays are in milliseconds; `stateMachine` has the states that may be paused.
-/
structure HAConfig where
  thisServerName : String
  haMode : HAMode
  sendLeaseUpdates : Bool := true
  syncLeases : Bool := true
  heartbeatDelay : UInt32 := 10000
  maxResponseDelay : UInt32 := 60000
  maxAckDelay : UInt32 := 10000
  maxUnackedClients : UInt32 := 10
  stateMachine : List (HAState × Util.StatePausing) := []
  peers : List (String × PeerConfig)
  keys_nodup : (peers.map Prod.fst).Nodup
  names_trim : ∀ e ∈ peers, e.2.name = trim e.1
  deriving DecidableEq

namespace HAConfig

variable (c : HAConfig) (thisServerName : String)

def fresh (haMode : HAMode) : HAConfig :=
  { thisServerName := thisServerName, haMode := haMode, peers := []
    keys_nodup := List.nodup_nil, names_trim := by simp }

/-- The same configuration on another server. -/
def loadedBy : HAConfig :=
  { c with thisServerName := thisServerName }

/-- `peers_.count(name) > 0`. -/
def hasPeer (name : String) : Bool := c.peers.any (·.1 = name)

def getPeerConfig (name : String) : Except HAError PeerConfig :=
  match c.peers.find? (·.1 = name) with
  | some e => .ok e.2
  | none => .error (.invalidOperation ("no configuration specified for server " ++ name))

def getThisServerConfig : Except HAError PeerConfig :=
  c.getPeerConfig c.thisServerName

def getOtherServersConfig : List (String × PeerConfig) :=
  c.peers.filter (·.1 ≠ c.thisServerName)

def getFailoverPeerConfig : Except HAError PeerConfig :=
  match c.getOtherServersConfig.find? (·.2.role ≠ .backup) with
  | some e => .ok e.2
  | none => .error (.invalidOperation
      ("no failover partner server found for this server " ++ c.thisServerName))

/-- `getStateConfig(state)->getPausing()`. -/
def getPausing (state : HAState) : Util.StatePausing :=
  (c.stateMachine.lookup state).getD .never

/-- The place of an entry in the map. -/
def insertPeer (e : String × PeerConfig) (peers : List (String × PeerConfig)) :
    List (String × PeerConfig) :=
  peers.orderedInsert (fun a b => a.1 ≤ b.1) e

theorem insertPeer_perm {e : String × PeerConfig} {peers : List (String × PeerConfig)} :
    (insertPeer e peers).Perm (e :: peers) :=
  List.perm_orderedInsert _ e peers

/-- `selectNextPeerConfig` and `setName`, with what the parser then sets. -/
def addPeer (entry : PeerEntry) : Except HAError HAConfig :=
  if h : c.hasPeer entry.name then
    .error (.badValue ("peer with name '" ++ entry.name ++ "' already specified"))
  else if trim entry.name = "" then .error (.badValue "peer name must not be empty")
  else
    match stringToRole entry.role with
    | .error e => .error e
    | .ok role =>
      let peer : PeerConfig :=
        { name := trim entry.name, url := entry.url, role := role
          autoFailover := entry.autoFailover }
      .ok { c with
        peers := insertPeer (entry.name, peer) c.peers
        keys_nodup := by
          rw [((insertPeer_perm).map Prod.fst).nodup_iff, List.map_cons,
            List.nodup_cons]
          refine ⟨fun hmem => h ?_, c.keys_nodup⟩
          obtain ⟨e, he, hname⟩ := List.mem_map.mp hmem
          exact List.any_eq_true.mpr ⟨e, he, decide_eq_true hname⟩
        names_trim := by
          intro e he
          rcases List.mem_cons.mp ((insertPeer_perm).mem_iff.mp he) with rfl | he
          · rfl
          · exact c.names_trim e he }

/-- The number of peers with a role, `peers_cnt[role]`. -/
def countRole (role : Role) : Nat := c.peers.countP (·.2.role = role)

/-- The first peer whose URL is not valid. -/
def invalidUrl : Option String :=
  c.peers.findSome? fun e => e.2.url.errorMessage.map fun message =>
    "invalid URL: " ++ message ++ " for server " ++ e.2.name

/-- A check of `validate`, which throws the exception if the condition holds. -/
def refuseIf (refused : Bool) (what : String) : Except HAError Unit :=
  if refused then .error (.validation what) else .ok ()

def validate : Except HAError Unit := do
  refuseIf (!c.hasPeer c.thisServerName)
    ("no peer configuration specified for the '" ++ c.thisServerName ++ "'")
  refuseIf c.invalidUrl.isSome (c.invalidUrl.getD "")
  refuseIf (c.countRole .primary > 1) "multiple primary servers specified"
  refuseIf (c.countRole .secondary > 1) "multiple secondary servers specified"
  refuseIf (c.countRole .standby > 1) "multiple standby servers specified"
  match c.haMode with
  | .loadBalancing =>
    refuseIf (c.countRole .standby > 0)
      "standby servers not allowed in the load balancing configuration"
    refuseIf (c.countRole .secondary = 0)
      "secondary server required in the load balancing configuration"
    refuseIf (c.countRole .primary = 0)
      "primary server required in the load balancing configuration"
  | .hotStandby =>
    refuseIf (c.countRole .secondary > 0)
      "secondary servers not allowed in the hot standby configuration"
    refuseIf (c.countRole .standby = 0) "standby server required in the hot standby configuration"
    refuseIf (c.countRole .primary = 0) "primary server required in the hot standby configuration"

variable {refused : Bool} {what : String}

theorem refuseIf_bind_eq_ok_iff {next : Unit → Except HAError Unit} :
    (refuseIf refused what >>= next) = .ok () ↔ refused = false ∧ next () = .ok () := by
  cases refused <;> simp [refuseIf, bind, Except.bind]

theorem refuseIf_eq_ok_iff : refuseIf refused what = .ok () ↔ refused = false := by
  cases refused <;> simp [refuseIf]

/-- `HAConfigParser::parseInternal`: the name of the server, the mode and the peers. -/
def parseInternal (mode : String) (peers : List PeerEntry) : Except HAError HAConfig := do
  if trim thisServerName = "" then
    throw (.badValue "'this-server-name' value must not be empty")
  let haMode ← stringToHAMode mode
  if peers.length < 2 then
    throw (.configError "peers configuration requires at least two peers to be specified")
  let c ← peers.foldlM addPeer (fresh (trim thisServerName) haMode)
  c.validate
  return c

/-- `HAConfigParser::parse`: all errors are reported as errors of the configuration. -/
def parse (mode : String) (peers : List PeerEntry) : Except HAError HAConfig :=
  (parseInternal thisServerName mode peers).mapError fun e => .configError e.what

end HAConfig

end Ha
