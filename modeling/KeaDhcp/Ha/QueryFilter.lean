import KeaDhcp.Dhcpsrv.Lease
import KeaDhcp.Ha.HaConfig

/-!
# The query filter of the high availability hooks library

`src/hooks/dhcp/high_availability/query_filter.cc`. The map of the scopes is a function: `none`
stands for a name that is not in the map.
-/

namespace Ha

open Infra

/-! ## The hash of RFC 3074 -/

def loadbMxTbl : List UInt8 := [
  251, 175, 119, 215, 81, 14, 79, 191, 103, 49, 181, 143, 186, 157, 0,
  232, 31, 32, 55, 60, 152, 58, 17, 237, 174, 70, 160, 144, 220, 90, 57,
  223, 59, 3, 18, 140, 111, 166, 203, 196, 134, 243, 124, 95, 222, 179,
  197, 65, 180, 48, 36, 15, 107, 46, 233, 130, 165, 30, 123, 161, 209, 23,
  97, 16, 40, 91, 219, 61, 100, 10, 210, 109, 250, 127, 22, 138, 29, 108,
  244, 67, 207, 9, 178, 204, 74, 98, 126, 249, 167, 116, 34, 77, 193,
  200, 121, 5, 20, 113, 71, 35, 128, 13, 182, 94, 25, 226, 227, 199, 75,
  27, 41, 245, 230, 224, 43, 225, 177, 26, 155, 150, 212, 142, 218, 115,
  241, 73, 88, 105, 39, 114, 62, 255, 192, 201, 145, 214, 168, 158, 221,
  148, 154, 122, 12, 84, 82, 163, 44, 139, 228, 236, 205, 242, 217, 11,
  187, 146, 159, 64, 86, 239, 195, 42, 106, 198, 118, 112, 184, 172, 87,
  2, 173, 117, 176, 229, 247, 253, 137, 185, 99, 164, 102, 147, 45, 66,
  231, 52, 141, 211, 194, 206, 246, 238, 56, 110, 78, 248, 63, 240, 189,
  93, 92, 51, 53, 183, 19, 171, 72, 50, 33, 104, 101, 69, 8, 252, 83, 120,
  76, 135, 85, 54, 202, 125, 188, 213, 96, 235, 136, 208, 162, 129, 190,
  132, 156, 38, 47, 1, 7, 254, 24, 4, 216, 131, 89, 21, 28, 133, 37, 153,
  149, 80, 170, 68, 6, 169, 234, 151]

/-- `loadBalanceHash`: from the last byte of the key to the first. -/
def loadBalanceHash (key : List UInt8) : UInt8 :=
  key.foldr (fun b hash => loadbMxTbl.getD (hash ^^^ b).toNat 0) (UInt8.ofNat key.length)

/-! ## Queries -/

/-- What of a `Pkt4` the library reads. -/
structure Query4 where
  /-- The data of the client identifier option. -/
  clientId : Option (List UInt8)
  hwaddr : Option Dhcp.HWAddr
  secs : UInt16 := 0

structure Query6 where
  /-- The data of the client identifier option. -/
  duid : Option (List UInt8)
  /-- The elapsed time option, in hundredths of a second. -/
  elapsedTime : Option UInt16 := none

/-! ## The filter -/

structure QueryFilter where
  config : HAConfig
  peers : List PeerConfig
  scopes : String → Option Bool
  activeServers : Nat

abbrev FilterM := EStateM HAError QueryFilter

namespace QueryFilter

variable (f : QueryFilter) (scopeName : String)

def withScopes (scopes : String → Option Bool) : QueryFilter :=
  { f with scopes := scopes }

/-- The peers and the backup peers that have been gone over, and the number of active servers. -/
structure Arranged where
  peers : List PeerConfig
  backupPeers : List PeerConfig
  activeServers : Nat

/-- One round of the loop of the constructor. -/
def arrange (a : Arranged) (peer : PeerConfig) : Arranged :=
  match peer.role with
  | .primary => { a with peers := peer :: a.peers, activeServers := a.activeServers + 1 }
  | .secondary => { a with peers := a.peers ++ [peer], activeServers := a.activeServers + 1 }
  | .standby => { a with peers := a.peers ++ [peer] }
  | .backup => { a with backupPeers := a.backupPeers ++ [peer] }

def arrangeAll (peers : List PeerConfig) : Arranged :=
  peers.foldl arrange { peers := [], backupPeers := [], activeServers := 0 }

def validateScopeName : FilterM Unit := do
  match (← get).config.getPeerConfig scopeName with
  | .ok _ => pure ()
  | .error _ =>
    throw (.badValue ("invalid server name specified '" ++ scopeName ++
      "' while enabling/disabling HA scopes"))

/-- `scopes_[scope_name] = enabled`. -/
def setScope (scopes : String → Option Bool) (scopeName : String) (enabled : Bool) :
    String → Option Bool :=
  Function.update scopes scopeName (some enabled)

def serveScope : FilterM Unit := do
  validateScopeName scopeName
  modify fun f => f.withScopes (setScope f.scopes scopeName true)

/-- The scopes of all peers, disabled. -/
def noScopes (peers : List PeerConfig) : String → Option Bool :=
  peers.foldl (fun scopes peer => setScope scopes peer.name false) fun _ => none

def serveNoScopes : FilterM Unit :=
  modify fun f => f.withScopes (noScopes f.peers)

/-- The scopes of a list and no others. -/
def serveListed (scopes : List String) : FilterM Unit := do
  serveNoScopes
  scopes.forM serveScope

/-- `serveScopes`: the scopes are reset when the list has an invalid name. -/
def serveScopes (scopes : List String) : FilterM Unit := do
  let currentScopes := (← get).scopes
  tryCatch (serveListed scopes) fun e => do
    modify fun f => f.withScopes currentScopes
    throw e

/-- The servers that have a scope of their own. -/
def hasScope (peer : PeerConfig) : Bool := peer.role = .primary || peer.role = .secondary

def serveDefaultScopes : FilterM Unit := do
  match (← get).config.getThisServerConfig with
  | .error e => throw e
  | .ok myConfig =>
    serveNoScopes
    if hasScope myConfig then
      serveScope myConfig.name

/-- One round of the loop of `serveFailoverScopes`. -/
def serveFailoverScope (peer : PeerConfig) : FilterM Unit := do
  if hasScope peer then
    serveScope peer.name

def serveFailoverScopes : FilterM Unit := do
  serveNoScopes
  (← get).peers.forM serveFailoverScope

/-- The constructor. -/
def new (config : HAConfig) : Except HAError QueryFilter := do
  config.validate
  let a := arrangeAll (config.peers.map Prod.snd)
  let f : QueryFilter :=
    { config := config, peers := a.peers ++ a.backupPeers, scopes := fun _ => none
      activeServers := a.activeServers }
  match serveDefaultScopes f with
  | .ok _ f => return f
  | .error e _ => throw e

/-- `getServedScopes`, as a property of a name. -/
def Serves : Prop := f.scopes scopeName = some true

/-- A scope that is not in the map is served. -/
def amServingScope : Bool := (f.scopes scopeName).getD true

/-- The index of the server for a key: the hash modulo the number of active servers. -/
def serverFor (key : List UInt8) : Option Nat :=
  if f.activeServers > 0 then some ((loadBalanceHash key).toNat % f.activeServers) else none

/-- `loadBalance(query4)`; `none` stands for -1. -/
def loadBalance4 (query : Query4) : Option Nat :=
  match query.clientId.filter (!·.isEmpty) with
  | some clientIdKey => f.serverFor clientIdKey
  | none =>
    match query.hwaddr.filter (!·.hwaddr.isEmpty) with
    | some hwaddr => f.serverFor hwaddr.hwaddr
    | none => none

def loadBalance6 (query : Query6) : Option Nat :=
  match query.duid.filter (!·.isEmpty) with
  | some duidKey => f.serverFor duidKey
  | none => none

def makeScopeClass : String := "HA_" ++ scopeName

/--
`inScopeInternal`: whether the query is accepted, and the class to attach to it. The class is an
argument too, since a malformed query leaves it alone. `peers` has the candidate always.
-/
def inScopeInternal {Query : Type} (loadBalance : QueryFilter → Query → Option Nat)
    (f : QueryFilter) (query : Query) (scopeClass : String) : Bool × String :=
  let candidateServer :=
    match f.config.haMode with
    | .loadBalancing => loadBalance f query
    | .hotStandby => some 0
  match candidateServer.bind (f.peers[·]?) with
  | none => (false, scopeClass)
  | some peer => (f.amServingScope peer.name, makeScopeClass peer.name)

def inScope4 : QueryFilter → Query4 → String → Bool × String := inScopeInternal loadBalance4

def inScope6 : QueryFilter → Query6 → String → Bool × String := inScopeInternal loadBalance6

end QueryFilter

end Ha
