import KeaDhcp.Dhcpsrv.Lease

/-!
# Host reservations

`src/lib/dhcpsrv/host.cc`, `cfg_hosts.cc` and `host_mgr.cc`. A source of reservations keeps
what `CfgHosts::add` rejects otherwise: two hosts of a subnet with one identifier, with one
IPv4 address, or with one IPv6 address or prefix.
-/

namespace Dhcp

open List

/-- `SUBNET_ID_GLOBAL`, under which global reservations are kept. -/
def subnetIdGlobal : SubnetID := 0

inductive IdentifierType where
  | hwaddr | duid | circuitId | clientId | flex
  deriving DecidableEq

abbrev IdentifierPair := IdentifierType × List UInt8

/-! ## IPv6 reservations -/

/-- `IPv6Resrv::Type`. -/
inductive ResrvType where
  | na | pd
  deriving DecidableEq

def isV6Multicast (addr : Address 128) : Bool := addr.extractLsb' 120 8 = 0xff#8

/-- What `IPv6Resrv::set` accepts. -/
def validResrv (type : ResrvType) (addr : Address 128) (len : Nat) : Bool :=
  !isV6Multicast addr && len ≤ 128 && (type = .pd || len = 128)

structure IPv6Resrv where
  type : ResrvType
  addr : Address 128
  len : Nat
  valid : validResrv type addr len
  deriving DecidableEq

/-- The constructor of `IPv6Resrv`; it throws on an invalid address or length. -/
def IPv6Resrv.make (type : ResrvType) (addr : Address 128) (len : Nat) : Option IPv6Resrv :=
  if h : validResrv type addr len then some { type, addr, len, valid := h } else none

/-! ## Hosts -/

structure Host where
  identifierType : IdentifierType
  identifier : List UInt8
  ipv4SubnetId : SubnetID
  ipv6SubnetId : SubnetID
  ipv4Reservation : Address 32
  ipv6Reservations : List IPv6Resrv
  hostname : String
  deriving DecidableEq

namespace Host

def getIPv6Reservations (h : Host) (type : ResrvType) : List IPv6Resrv :=
  h.ipv6Reservations.filter (·.type = type)

def hasReservation (h : Host) (r : IPv6Resrv) : Bool := (h.getIPv6Reservations r.type).contains r

def hasIdentifier (h : Host) (id : IdentifierPair) : Bool :=
  h.identifierType = id.1 && h.identifier = id.2

end Host

/-! ## Sources of reservations -/

def subnetIdUnused : SubnetID := 2 ^ 32 - 1

/-- What `CfgHosts::add6` enters for a host: its IPv6 reservations, none without an IPv6 subnet. -/
def Host.resrv6Tuples (h : Host) : List (IPv6Resrv × Host) :=
  if h.ipv6SubnetId = subnetIdUnused then [] else h.ipv6Reservations.map fun r => (r, h)

/-- `CfgHosts`: the hosts in the order in which they were added. -/
structure CfgHosts where
  hosts : List Host
  identifiers_unique : hosts.Pairwise fun h k =>
    h.ipv4SubnetId ≠ subnetIdUnused → h.ipv4SubnetId = k.ipv4SubnetId →
      (h.identifierType, h.identifier) ≠ (k.identifierType, k.identifier)
  addresses_unique : hosts.Pairwise fun h k =>
    h.ipv4SubnetId ≠ subnetIdUnused → h.ipv4Reservation ≠ 0 → h.ipv4SubnetId = k.ipv4SubnetId →
      h.ipv4Reservation ≠ k.ipv4Reservation
  hosts6_unique : ((hosts.flatMap Host.resrv6Tuples).map fun r => (r.2.ipv6SubnetId, r.1.addr)).Nodup

namespace CfgHosts

variable (c : CfgHosts) (subnet : SubnetID) (id : IdentifierPair)

/-- `hosts6_`: the IPv6 reservations, with the host that holds them. -/
def hosts6 : List (IPv6Resrv × Host) := c.hosts.flatMap Host.resrv6Tuples

def getAll : List Host := c.hosts.filter (·.hasIdentifier id)

def get4 : Option Host :=
  (c.getAll id).find? (·.ipv4SubnetId = subnet)

/-- `get4(subnet_id, address)`. -/
def get4Address (addr : Address 32) : Option Host :=
  (c.hosts.filter (·.ipv4Reservation = addr)).find? (·.ipv4SubnetId = subnet)

/--
`get6(subnet_id, identifier_type, identifier)`. Nothing keeps a second host out here, and the
source throws `DuplicateHost` when it finds one.
-/
def get6 : Except Unit (Option Host) :=
  match (c.getAll id).filter (·.ipv6SubnetId = subnet) with
  | [] => .ok none
  | [h] => .ok (some h)
  | _ => .error ()

/-- `get6(subnet_id, address)`. -/
def get6Address (addr : Address 128) : Option Host :=
  (c.hosts6.find? fun r => r.2.ipv6SubnetId = subnet && r.1.addr = addr).map Prod.snd

end CfgHosts

/-- `HostMgr`: the configuration file, then the other sources in their order. -/
structure HostMgr where
  cfg : CfgHosts
  alternateSources : List CfgHosts

namespace HostMgr

def sources (m : HostMgr) : List CfgHosts := m.cfg :: m.alternateSources

def getAll (m : HostMgr) (id : IdentifierPair) : List Host := m.sources.flatMap (·.getAll id)

def get4 (m : HostMgr) (subnet : SubnetID) (id : IdentifierPair) : Option Host :=
  m.sources.findSome? (·.get4 subnet id)

def get4Address (m : HostMgr) (subnet : SubnetID) (addr : Address 32) : Option Host :=
  m.sources.findSome? (·.get4Address subnet addr)

def get6Address (m : HostMgr) (subnet : SubnetID) (addr : Address 128) : Option Host :=
  m.sources.findSome? (·.get6Address subnet addr)

/-- The first source that has the host decides; an ambiguous source throws. -/
def get6From (subnet : SubnetID) (id : IdentifierPair) : List CfgHosts → Except Unit (Option Host)
  | [] => .ok none
  | c :: cs =>
    match c.get6 subnet id with
    | .ok none => get6From subnet id cs
    | r => r

def get6 (m : HostMgr) (subnet : SubnetID) (id : IdentifierPair) : Except Unit (Option Host) :=
  get6From subnet id m.sources

/-- One of the sources has the host. -/
def Holds (m : HostMgr) (h : Host) : Prop := ∃ c ∈ m.sources, h ∈ c.hosts

variable {h : Host} {subnet : SubnetID} {m : HostMgr} {id : IdentifierPair}

theorem getAll_spec (hmem : h ∈ m.getAll id) : m.Holds h ∧ h.hasIdentifier id := by
  obtain ⟨c, hc, hh⟩ := mem_flatMap.mp hmem
  obtain ⟨hh, hid⟩ := mem_filter.mp hh
  exact ⟨⟨c, hc, hh⟩, hid⟩

theorem get4_spec (hget : m.get4 subnet id = some h) :
    m.Holds h ∧ h.hasIdentifier id ∧ h.ipv4SubnetId = subnet := by
  obtain ⟨c, hc, hfind⟩ := exists_of_findSome?_eq_some hget
  obtain ⟨hh, hid⟩ := mem_filter.mp (mem_of_find?_eq_some hfind)
  exact ⟨⟨c, hc, hh⟩, hid, by simpa using find?_some hfind⟩

variable {addr : Address 32}

end HostMgr

end Dhcp
