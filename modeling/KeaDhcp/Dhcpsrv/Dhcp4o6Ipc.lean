import KeaDhcp.Dhcp.Pkt6

/-!
# The channel between the DHCPv6 and the DHCPv4 server

`Dhcp4o6IpcBase::send` and `receive` of `src/lib/dhcpsrv/dhcp4o6_ipc.cc`. Where a message came from
travels in suboptions of a vendor option, which are kept as their data. `send` ends with the options
that are packed, and `receive` begins with the options that were unpacked.
-/

namespace Dhcp

open Infra

def ENTERPRISE_ID_ISC : UInt32 := 2495
def ISC_V6_4O6_INTERFACE : UInt16 := 60000
def ISC_V6_4O6_SRC_ADDRESS : UInt16 := 60001
def ISC_V6_4O6_SRC_PORT : UInt16 := 60002

/-- What the two functions use of a packet. -/
structure Pkt4o6 where
  options : List DhcpOption
  iface : List UInt8
  remoteAddr : Address 128
  remotePort : UInt16

inductive Dhcp4o6IpcError where
  | malformed (reason : String)
  | unknownInterface (name : List UInt8)
  | packet (e : PacketError)

namespace DhcpOption

def ofISC : DhcpOption → Bool
  | vendor vendorId _ => vendorId = ENTERPRISE_ID_ISC
  | generic .. => false

def getOptions : DhcpOption → List DhcpOption
  | vendor _ options | generic _ _ _ options => options

/-- The option after a change of its sub-options. -/
def withOptions (f : List DhcpOption → List DhcpOption) : DhcpOption → DhcpOption
  | vendor vendorId options => vendor vendorId (f options)
  | generic universe_ type data options => generic universe_ type data (f options)

def getOption (options : List DhcpOption) (type : UInt16) : Option DhcpOption :=
  options.find? (·.getType = type)

/-- The first option of the type is deleted. -/
def delOption (options : List DhcpOption) (type : UInt16) : List DhcpOption :=
  options.eraseP (·.getType = type)

/-- The first option of ISC is changed in place. -/
def updateISC (f : List DhcpOption → List DhcpOption) : List DhcpOption → List DhcpOption
  | [] => []
  | o :: os => if o.ofISC then o.withOptions f :: os else o :: updateISC f os

end DhcpOption

open DhcpOption

namespace Pkt4o6

/-- The suboptions that `send` adds. -/
def metadata (p : Pkt4o6) : List DhcpOption :=
  [.generic .v6 ISC_V6_4O6_INTERFACE p.iface [],
    .generic .v6 ISC_V6_4O6_SRC_ADDRESS (addressToBytes p.remoteAddr) [],
    .generic .v6 ISC_V6_4O6_SRC_PORT (writeUint16 p.remotePort) []]

def addMetadata (p : Pkt4o6) (options : List DhcpOption) : List DhcpOption :=
  p.metadata.foldl (fun options o => linkUpper compareCode o options) options

/-- The option that `send` creates. -/
def created (p : Pkt4o6) : DhcpOption := .vendor ENTERPRISE_ID_ISC (p.addMetadata [])

/-- The metadata are put into the first vendor option, or into a new one if that is not ISC's. -/
def send (p : Pkt4o6) : List DhcpOption :=
  if (getOption p.options D6O_VENDOR_OPTS).any ofISC then updateISC p.addMetadata p.options
  else linkUpper compareCode p.created p.options

def delMetadata (options : List DhcpOption) : List DhcpOption :=
  delOption (delOption (delOption options ISC_V6_4O6_INTERFACE) ISC_V6_4O6_SRC_ADDRESS)
    ISC_V6_4O6_SRC_PORT

def suboption (option : DhcpOption) (type : UInt16) (name : String) :
    Except Dhcp4o6IpcError (List UInt8) :=
  match getOption option.getOptions type with
  | some (.generic _ _ data _) => .ok data
  | _ => .error (.malformed (name ++ " suboption missing or has incorrect type"))

/-- If no suboptions are left in the option of ISC, the first vendor option is deleted. -/
def restored (option : DhcpOption) (options : List DhcpOption) : List DhcpOption :=
  if (delMetadata option.getOptions).isEmpty then
    delOption (updateISC delMetadata options) D6O_VENDOR_OPTS
  else updateISC delMetadata options

/-- `receive`, on a system with the interfaces `ifaces`. -/
def receive (ifaces : List UInt8 → Bool) (options : List DhcpOption) :
    Except Dhcp4o6IpcError Pkt4o6 :=
  match options.find? ofISC with
  | none => .error (.malformed "no ISC vendor option")
  | some option => do
    let ifname ← suboption option ISC_V6_4O6_INTERFACE "interface"
    if !ifaces ifname then .error (.unknownInterface ifname)
    else
      let srcs ← suboption option ISC_V6_4O6_SRC_ADDRESS "source address"
      let sport ← suboption option ISC_V6_4O6_SRC_PORT "source port"
      let remoteAddr ← (readAddress6 srcs 0).mapError .packet
      let remotePort ← (readUint16 sport 0).mapError .packet
      return { options := restored option options, iface := ifname
               remoteAddr := remoteAddr, remotePort := remotePort }

end Pkt4o6

end Dhcp
