import KeaDhcp.Cc.Data
import KeaDhcp.Dhcpsrv.CsvLeaseFile

/-!
# Leases as JSON

`toElement` and `fromElement` of `src/lib/dhcpsrv/lease.cc`, by which the lease commands and the
high availability hook exchange leases. The user context of a lease is a map. The text form of
addresses is an argument.
-/

namespace Dhcp

open Data Util String

/-- The text form of `IOAddress`. -/
structure IOAddressText where
  toText : IOAddress → Text
  fromText : Text → Option IOAddress
  fromText_toText : ∀ a, fromText (toText a) = some a

/-- The exception that the conversions throw. -/
structure BadValue where
  text : String

namespace LeaseElement

/-! ## Members of the map -/

variable (map : MapElement) (name text : String)

def requireString : Except BadValue Text :=
  match map.get name with
  | some (.string value) => .ok value
  | _ => .error ⟨text⟩

def requireInteger : Except BadValue Int :=
  match map.get name with
  | some (.integer value) => .ok value
  | _ => .error ⟨text⟩

def requireBoolean : Except BadValue Bool :=
  match map.get name with
  | some (.boolean value) => .ok value
  | _ => .error ⟨text⟩

/-- A conversion of a text, whose own exception is replaced. -/
def convert {α : Type} (value : Option α) (text : String) : Except BadValue α :=
  match value with
  | some a => .ok a
  | none => .error ⟨text⟩

/-! ## What leases of both families have -/

/-- The members of a `Lease` that `fromElementCommon` sets. -/
structure Common where
  addr : IOAddress
  subnetId : UInt32
  hwaddr : Option HWAddr
  cltt : Time
  validLft : UInt32
  fqdnFwd : Bool
  fqdnRev : Bool
  hostname : Text
  state : UInt32
  context : Option MapElement

def readHWAddr : Except BadValue (Option HWAddr) :=
  match map.get "hw-address" with
  | none => .ok none
  | some (.string value) => do
    let parsed ← convert (HWAddr.fromText value)
      ("invalid hardware address " ++ ofList value ++ " in the parsed lease")
    -- HTYPE_ETHER
    return some { htype := 1, hwaddr := parsed.hwaddr }
  | some _ => .error ⟨"hw-address is not a string in the parsed lease"⟩

def readContext : Except BadValue (Option MapElement) :=
  match map.get "user-context" with
  | none => .ok none
  | some (.map context) => .ok (some context)
  | some _ => .error ⟨"user context is not a map"⟩

def fromElementCommon (A : IOAddressText) (element : Element) : Except BadValue Common := do
  let .map map := element | .error ⟨"parsed lease data is not a JSON map"⟩
  let ipAddress ← requireString map "ip-address"
    "ip-address not present in the parsed lease or it is not a string"
  let addr ← convert (A.fromText ipAddress)
    ("invalid IP address " ++ ofList ipAddress ++ " in the parsed lease")
  let subnetId ← requireInteger map "subnet-id"
    "subnet-id not present in the parsed lease or it is not a number"
  if subnetId ≤ 0 then
    .error ⟨"subnet-id " ++ toString subnetId ++ " is not a positive integer"⟩
  let hwaddr ← readHWAddr map
  let cltt ← requireInteger map "cltt"
    "cltt is not present in the parsed lease or it is not a number"
  if cltt ≤ 0 then
    .error ⟨"cltt " ++ toString cltt ++ " is not a positive integer in the parsed lease"⟩
  let validLft ← requireInteger map "valid-lft"
    "valid-lft is not present in the parsed lease or it is not a number"
  if validLft < 0 then
    .error ⟨"valid-lft " ++ toString validLft ++ " is negative in the parsed lease"⟩
  let fqdnFwd ← requireBoolean map "fqdn-fwd"
    "fqdn-fwd is not present in the parsed lease or it is not a boolean value"
  let fqdnRev ← requireBoolean map "fqdn-rev"
    "fqdn-rev is not present in the parsed lease or it is not a boolean value"
  let hostname ← requireString map "hostname"
    "hostname is not present in the parsed lease or it is not a string value"
  let state ← requireInteger map "state"
    "state is not present in the parsed lease or it is not a number"
  if state < 0 ∨ state > 2 then
    .error ⟨"state " ++ toString state ++ " must be in range [0..2]"⟩
  let context ← readContext map
  return {
    addr := addr, subnetId := UInt32.ofInt subnetId, hwaddr := hwaddr, cltt := cltt
    validLft := UInt32.ofInt validLft, fqdnFwd := fqdnFwd, fqdnRev := fqdnRev, hostname := hostname
    state := UInt32.ofInt state, context := context }

def readClientId : Except BadValue (Option ClientId) :=
  match map.get "client-id" with
  | none => .ok none
  | some (.string value) => do
    return some (← convert (ClientId.fromText value)
      ("invalid client identifier " ++ ofList value ++ " in the parsed lease"))
  | some _ => .error ⟨"client identifier is not a string in the parsed lease"⟩

/-- The prefix length is read for leases of type `TYPE_PD` only. -/
def readPrefixLen (type : LeaseType) (map : MapElement) : Except BadValue UInt8 :=
  match type with
  | .pd => do
    let prefixLen ← requireInteger map "prefix-len"
      "prefix-len is not present in the parsed lease or it is not a number"
    if prefixLen < 1 ∨ prefixLen > 128 then
      .error ⟨"prefix-len " ++ toString prefixLen ++ " must be in range of [1..128]"⟩
    return UInt8.ofInt prefixLen
  | _ => .ok 0

end LeaseElement

/-! ## DHCPv4 -/

namespace StoredLease4

open LeaseElement

/-- `Lease4::toElement`, which needs a hardware address. -/
def toElement (A : IOAddressText) (l : StoredLease4 MapElement) : Option Element := do
  let hwaddr ← l.hwaddr
  let map := contextToElement l.context []
  let map := map.set "ip-address" (.string (A.toText (.v4 l.addr)))
  let map := map.set "subnet-id" (.integer l.subnetId.toNat)
  let map := map.set "hw-address" (.string hwaddr.toText)
  let map :=
    match l.clientId with
    | some clientId => map.set "client-id" (.string clientId.toText)
    | none => map
  let map := map.set "cltt" (.integer l.cltt)
  let map := map.set "valid-lft" (.integer l.validLft.toNat)
  let map := map.set "fqdn-fwd" (.boolean l.fqdnFwd)
  let map := map.set "fqdn-rev" (.boolean l.fqdnRev)
  let map := map.set "hostname" (.string l.hostname)
  -- the state is an `int` here
  let map := map.set "state" (.integer l.state.toInt32.toInt)
  return .map map

def fromElement (A : IOAddressText) (element : Element) :
    Except BadValue (StoredLease4 MapElement) := do
  let lease ← fromElementCommon A element
  let .map map := element | .error ⟨"parsed lease data is not a JSON map"⟩
  let .v4 addr := lease.addr
    | .error ⟨"address " ++ ofList (A.toText lease.addr) ++ " it not an IPv4 address"⟩
  if lease.hwaddr.isNone then
    .error ⟨"hw-address not present in the parsed lease"⟩
  let clientId ← readClientId map
  return {
    addr := addr, t1 := 0, t2 := 0, validLft := lease.validLft, cltt := lease.cltt
    subnetId := lease.subnetId, hostname := lease.hostname, fqdnFwd := lease.fqdnFwd
    fqdnRev := lease.fqdnRev, hwaddr := lease.hwaddr, state := lease.state, context := lease.context
    clientId := clientId }

end StoredLease4

/-! ## DHCPv6 -/

def LeaseType.typeToText : LeaseType → String
  | .v4 => "V4"
  | .na => "IA_NA"
  | .ta => "IA_TA"
  | .pd => "IA_PD"

def LeaseType.textToType (text : String) : Except BadValue LeaseType :=
  if text = "V4" then .ok .v4
  else if text = "IA_NA" then .ok .na
  else if text = "IA_TA" then .ok .ta
  else if text = "IA_PD" then .ok .pd
  else .error ⟨"unsupported lease type " ++ text⟩

namespace StoredLease6

open LeaseElement

def toElement (A : IOAddressText) (l : StoredLease6 MapElement) : Element :=
  let map := contextToElement l.context []
  let map := map.set "ip-address" (.string (A.toText (.v6 l.addr)))
  let map := map.set "type" (.string l.type.typeToText.toList)
  let map := if l.type = .pd then map.set "prefix-len" (.integer l.prefixlen.toNat) else map
  let map := map.set "iaid" (.integer l.iaid.toNat)
  let map := map.set "duid" (.string l.duid.toText)
  let map := map.set "subnet-id" (.integer l.subnetId.toNat)
  let map := map.set "cltt" (.integer l.cltt)
  let map := map.set "preferred-lft" (.integer l.preferredLft.toNat)
  let map := map.set "valid-lft" (.integer l.validLft.toNat)
  let map := map.set "fqdn-fwd" (.boolean l.fqdnFwd)
  let map := map.set "fqdn-rev" (.boolean l.fqdnRev)
  let map := map.set "hostname" (.string l.hostname)
  let map :=
    match l.hwaddr with
    | some hwaddr => map.set "hw-address" (.string hwaddr.toText)
    | none => map
  .map (map.set "state" (.integer l.state.toNat))

def fromElement (A : IOAddressText) (element : Element) :
    Except BadValue (StoredLease6 MapElement) := do
  let lease ← fromElementCommon A element
  let .map map := element | .error ⟨"parsed lease data is not a JSON map"⟩
  let .v6 addr := lease.addr
    | .error ⟨"address " ++ ofList (A.toText lease.addr) ++ " it not an IPv6 address"⟩
  let leaseType ← requireString map "type"
    "type is not present in the parsed lease or it is not a string value"
  let type ← LeaseType.textToType (ofList leaseType)
  let prefixLen ← readPrefixLen type map
  let iaid ← requireInteger map "iaid" "iaid is not present in the parsed lease or it is not a number"
  if iaid < 0 then
    .error ⟨"iaid " ++ toString iaid ++ " must not be negative"⟩
  let duid ← requireString map "duid" "duid not present in the parsed lease or it is not a string"
  let parsedDuid ← convert (DUID.fromText duid)
    ("invalid DUID " ++ ofList duid ++ " in the parsed lease")
  let preferredLft ← requireInteger map "preferred-lft"
    "preferred-lft is not present in the parsed lease or is not a number"
  if preferredLft < 0 then
    .error ⟨"preferred-lft " ++ toString preferredLft ++ " must not be negative"⟩
  return {
    addr := addr, t1 := 0, t2 := 0, validLft := lease.validLft, cltt := lease.cltt
    subnetId := lease.subnetId, hostname := lease.hostname, fqdnFwd := lease.fqdnFwd
    fqdnRev := lease.fqdnRev, hwaddr := lease.hwaddr, state := lease.state, context := lease.context
    type := type, prefixlen := prefixLen, iaid := UInt32.ofInt iaid, duid := parsedDuid
    preferredLft := UInt32.ofInt preferredLft }

end StoredLease6

end Dhcp
