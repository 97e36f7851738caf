import KeaDhcp.Dhcpsrv.Subnet

/-!
# The selection of a subnet

`CfgSubnets4::selectSubnet`, `CfgSubnets4::selectSubnet4o6` and `CfgSubnets6::selectSubnet` of
`src/lib/dhcpsrv/cfg_subnets4.cc` and `cfg_subnets6.cc`. Options are compared as wholes; their type
is a parameter.
-/

namespace Dhcp

variable {ι : Type} [DecidableEq ι]

def IOAddress.isV4Zero (a : IOAddress) : Bool := a = .v4 0

def IOAddress.isV4Bcast (a : IOAddress) : Bool := a = .v4 (BitVec.allOnes 32)

structure Cfg4o6 (ι : Type) where
  enabled : Bool
  iface4o6 : String
  subnet4o6 : Address 128 × Nat
  interfaceId : Option ι

/-- A configured subnet, with the settings of its shared network that selection looks at. -/
structure ConfiguredSubnet (ι : Type) (w : Nat) where
  ptr : SubnetPtr w
  relays : List IOAddress
  iface : String
  interfaceId : Option ι
  networkRelays : List IOAddress
  networkIface : String
  cfg4o6 : Cfg4o6 ι

structure SubnetSelector (ι : Type) where
  ciaddr : IOAddress
  giaddr : IOAddress
  optionSelect : IOAddress
  interfaceId : Option ι
  firstRelayLinkaddr : IOAddress
  localAddress : IOAddress
  remoteAddress : IOAddress
  clientClasses : ClientClasses
  ifaceName : String

namespace ConfiguredSubnet

/-- The first subnet that meets the criterion and lets the client in; all loops but one are this. -/
def firstFor {w : Nat} (subnets : List (ConfiguredSubnet ι w)) (classes : ClientClasses)
    (criterion : ConfiguredSubnet ι w → Bool) : Option (ConfiguredSubnet ι w) :=
  subnets.find? fun s => criterion s && s.ptr.clientSupported classes

/-- `inRange`: an address of the other family is in no range. -/
def inRange4 (address : IOAddress) (s : ConfiguredSubnet ι 32) : Bool :=
  match address with
  | .v4 a => s.ptr.subnet.inRange a
  | .v6 _ => false

def inRange6 (address : IOAddress) (s : ConfiguredSubnet ι 128) : Bool :=
  match address with
  | .v4 _ => false
  | .v6 a => s.ptr.subnet.inRange a

/-- The relays of the subnet, or those of the shared network of a subnet without any. -/
def hasRelay4 (giaddr : IOAddress) (s : ConfiguredSubnet ι 32) : Bool :=
  if !s.relays.isEmpty then s.relays.contains giaddr
  else s.ptr.network.isSome && s.networkRelays.contains giaddr

def onIface4 (iface : String) (s : ConfiguredSubnet ι 32) : Bool :=
  if s.iface ≠ "" then s.iface = iface
  else s.ptr.network.isSome && s.networkIface ≠ "" && s.networkIface = iface

def matches4o6 (selector : SubnetSelector ι) (s : ConfiguredSubnet ι 32) : Bool :=
  let inPrefix4o6 := match selector.remoteAddress with
    | .v4 _ => false
    | .v6 a => inPrefix s.cfg4o6.subnet4o6.1 s.cfg4o6.subnet4o6.2 a
  s.cfg4o6.enabled &&
    ((s.cfg4o6.subnet4o6.1 ≠ 0 && inPrefix4o6) ||
      (s.cfg4o6.interfaceId.isSome && s.cfg4o6.interfaceId = selector.interfaceId) ||
      (s.cfg4o6.iface4o6 ≠ "" && selector.ifaceName ≠ "" &&
        s.cfg4o6.iface4o6 = selector.ifaceName))

def hasRelay6 (linkaddr : IOAddress) (s : ConfiguredSubnet ι 128) : Bool :=
  s.relays.contains linkaddr

def onIface6 (iface : String) (s : ConfiguredSubnet ι 128) : Bool := iface = s.iface

def hasInterfaceId6 (interfaceId : Option ι) (s : ConfiguredSubnet ι 128) : Bool :=
  s.interfaceId.isSome && s.interfaceId = interfaceId

end ConfiguredSubnet

open ConfiguredSubnet

/-- The classes of the client are not looked at. -/
def selectSubnet4o6 (subnets : List (ConfiguredSubnet ι 32)) (selector : SubnetSelector ι) :
    Option (ConfiguredSubnet ι 32) :=
  subnets.find? (matches4o6 selector)

/--
`CfgSubnets4::selectSubnet`. `ifaces` has the interfaces of the server with their first IPv4
address; an interface that does not exist is an exception.
-/
def selectSubnet4 (ifaces : String → Option (Option (Address 32)))
    (subnets : List (ConfiguredSubnet ι 32)) (selector : SubnetSelector ι) :
    Except Unit (Option (ConfiguredSubnet ι 32)) :=
  let first := firstFor subnets selector.clientClasses
  let unicast := !selector.localAddress.isV4Bcast
  if !selector.optionSelect.isV4Zero then .ok (first (inRange4 selector.optionSelect))
  else if !selector.giaddr.isV4Zero then
    .ok ((first (hasRelay4 selector.giaddr)).or (first (inRange4 selector.giaddr)))
  else if !selector.ciaddr.isV4Zero && unicast then .ok (first (inRange4 selector.ciaddr))
  else if !selector.remoteAddress.isV4Zero && unicast then
    .ok (first (inRange4 selector.remoteAddress))
  else if selector.ifaceName ≠ "" then
    match ifaces selector.ifaceName with
    | none => .error ()
    | some address =>
      .ok ((first (onIface4 selector.ifaceName)).or
        (match address with
        | none => none
        | some a => if a = 0 then none else first (inRange4 (.v4 a))))
  else .ok none

def selectSubnet6 (subnets : List (ConfiguredSubnet ι 128)) (selector : SubnetSelector ι) :
    Option (ConfiguredSubnet ι 128) :=
  let first := firstFor subnets selector.clientClasses
  if selector.firstRelayLinkaddr = .v6 0 then
    (if selector.ifaceName ≠ "" then first (onIface6 selector.ifaceName) else none).or
      (if selector.remoteAddress ≠ .v6 0 then first (inRange6 selector.remoteAddress) else none)
  else
    (first (hasInterfaceId6 selector.interfaceId)).or
      ((first (hasRelay6 selector.firstRelayLinkaddr)).or
        (first (inRange6 selector.firstRelayLinkaddr)))

end Dhcp
