import KeaDhcp.Infra.MultiIndex

/-!
# Options

`src/lib/dhcp/option.cc` and the DHCPv6 part of `option_vendor.cc`: the options of packets, their
lengths and their form on the wire, with the buffer accesses of `src/lib/util/io_utilities.h`.

Reads are checked: a read outside of the buffer, which the code would just do, ends the computation
with `PacketError.outside`.
-/

namespace Dhcp

open Infra

/-- The exceptions of the packet code, with their texts. -/
inductive PacketError where
  | badValue (text : String)
  | outOfRange (text : String)
  | unexpected (text : String)
  | invalidOperation (text : String)
  | notImplemented (text : String)
  | skipRemainingOptions (text : String)
  /-- No exception: a byte is read that does not belong to the buffer. -/
  | outside
  deriving DecidableEq

def PacketError.what : PacketError → String
  | .badValue text | .outOfRange text | .unexpected text | .invalidOperation text
  | .notImplemented text | .skipRemainingOptions text => text
  | .outside => ""

abbrev OptionBuffer := List UInt8

/-! ## Buffers -/

variable (buf : OptionBuffer) (offset : Nat)

def readUint8 : Except PacketError UInt8 :=
  match buf[offset]? with
  | some byte => .ok byte
  | none => .error .outside

def readUint16 : Except PacketError UInt16 := do
  let high ← readUint8 buf offset
  let low ← readUint8 buf (offset + 1)
  return high.toUInt16 <<< 8 ||| low.toUInt16

def readUint32 : Except PacketError UInt32 := do
  let byte0 ← readUint8 buf offset
  let byte1 ← readUint8 buf (offset + 1)
  let byte2 ← readUint8 buf (offset + 2)
  let byte3 ← readUint8 buf (offset + 3)
  return byte0.toUInt32 <<< 24 ||| byte1.toUInt32 <<< 16 ||| byte2.toUInt32 <<< 8 ||| byte3.toUInt32

/-- A copy of `length` bytes from `offset` on. -/
def copyRange (length : Nat) : Except PacketError OptionBuffer :=
  if offset + length ≤ buf.length then .ok ((buf.drop offset).take length) else .error .outside

def writeUint16 (value : UInt16) : List UInt8 := [(value >>> 8).toUInt8, value.toUInt8]

def writeUint32 (value : UInt32) : List UInt8 :=
  [(value >>> 24).toUInt8, (value >>> 16).toUInt8, (value >>> 8).toUInt8, value.toUInt8]

/-! ## Options -/

inductive Universe where
  | v4 | v6
  deriving DecidableEq

/-- `getHeaderLen`. -/
def Universe.headerLen : Universe → Nat
  | .v4 => 2
  | .v6 => 4

def D6O_RELAY_MSG : UInt16 := 9
def D6O_VENDOR_OPTS : UInt16 := 17
def DHO_PAD : UInt8 := 0
def DHO_VENDOR_ENCAPSULATED_OPTIONS : UInt8 := 43
def DHO_DHCP_AGENT_OPTIONS : UInt8 := 82
def DHO_END : UInt8 := 255

/-- An object of the class `Option` or of the class `OptionVendor`, the latter for DHCPv6. The
sub-options are in the order of their collection. -/
inductive DhcpOption where
  | generic (universe_ : Universe) (type : UInt16) (data : List UInt8) (options : List DhcpOption)
  | vendor (vendorId : UInt32) (options : List DhcpOption)

namespace DhcpOption

def getType : DhcpOption → UInt16
  | generic _ type _ _ => type
  | vendor _ _ => D6O_VENDOR_OPTS

/-- The constructor that gets the data, with `check`. -/
def make (universe_ : Universe) (type : UInt16) (data : List UInt8) : Except PacketError DhcpOption :=
  match universe_ with
  | .v4 =>
    if type > 255 then
      .error (.outOfRange ("DHCPv4 Option type " ++ toString type.toNat ++ " is too big. " ++
        "For DHCPv4 allowed type range is 0..255"))
    else if data.length > 255 then
      .error (.outOfRange ("DHCPv4 Option " ++ toString type.toNat ++ " is too big."))
    else .ok (generic .v4 type data [])
  | .v6 => .ok (generic .v6 type data [])

mutual

/-- The number of bytes that the option needs, in 16 bits. -/
def len : DhcpOption → UInt16
  | generic universe_ _ data options =>
    UInt16.ofNat (universe_.headerLen + data.length + lenEach options)
  | vendor _ options => UInt16.ofNat (Universe.v6.headerLen + 4 + lenEach options)

def lenEach : List DhcpOption → Nat
  | [] => 0
  | option :: options => option.len.toNat + lenEach options

end

end DhcpOption

def packHeader (universe_ : Universe) (type len : UInt16) : Except PacketError (List UInt8) :=
  match universe_ with
  | .v4 =>
    -- The length here is that of the header and the data.
    if len > 255 then
      .error (.outOfRange ("DHCPv4 Option " ++ toString type.toNat ++ " is too big. " ++
        "At most 255 bytes are supported."))
    else .ok [type.toUInt8, (len - 2).toUInt8]
  | .v6 => .ok (writeUint16 type ++ writeUint16 (len - 4))

/-- An option that waits to be written: its code and what writing it does. -/
abbrev Packed := UInt16 × Except PacketError (List UInt8)

/-- The loop of `packOptions6`. -/
def packAll6 : List Packed → Except PacketError (List UInt8)
  | [] => .ok []
  | (_, packed) :: rest => do
    let bytes ← packed
    return bytes ++ (← packAll6 rest)

/-- What `packOptions4` has written, and the options that it keeps for the end. -/
structure Packing4 where
  buf : List UInt8
  agent : Option (Except PacketError (List UInt8))
  end_ : Option (Except PacketError (List UInt8))

/-- One round of the loop of `packOptions4`. -/
def Packing4.add (packing : Packing4) (option : Packed) : Except PacketError Packing4 :=
  if option.1 = DHO_DHCP_AGENT_OPTIONS.toUInt16 then .ok { packing with agent := some option.2 }
  else if option.1 = DHO_END.toUInt16 then .ok { packing with end_ := some option.2 }
  else do
    let bytes ← option.2
    return { packing with buf := packing.buf ++ bytes }

/-- `packOptions4`: the relay agent information and the END option are last. -/
def packAll4 (options : List Packed) : Except PacketError (List UInt8) := do
  let packing ← options.foldlM Packing4.add { buf := [], agent := none, end_ := none }
  let agent ← packing.agent.getD (.ok [])
  let end_ ← packing.end_.getD (.ok [])
  return packing.buf ++ agent ++ end_

def packAll : Universe → List Packed → Except PacketError (List UInt8)
  | .v4, options => packAll4 options
  | .v6, options => packAll6 options

namespace DhcpOption

mutual

/-- The header, the data or the enterprise number, and the sub-options. -/
def pack : DhcpOption → Except PacketError (List UInt8)
  | generic universe_ type data options => do
    let header ← packHeader universe_ type (generic universe_ type data options).len
    return header ++ data ++ (← packAll universe_ (packEach options))
  | vendor vendorId options => do
    let header ← packHeader .v6 D6O_VENDOR_OPTS (vendor vendorId options).len
    return header ++ writeUint32 vendorId ++ (← packAll6 (packEach options))

def packEach : List DhcpOption → List Packed
  | [] => []
  | option :: options => (option.getType, option.pack) :: packEach options

end

end DhcpOption

/-! ## Collections -/

/-- The order of an `OptionCollection`. -/
def compareCode : DhcpOption → DhcpOption → Ordering := compareOn fun option => option.getType.toNat

instance : Std.TransCmp compareCode := inferInstanceAs (Std.TransCmp (compareOn _))

/-- A `multimap` from the codes of options to options: options of the same code are in the order
in which they were inserted. -/
@[ext] structure OptionCollection where
  entries : List DhcpOption
  ascending : Ascending compareCode entries

namespace OptionCollection

def empty : OptionCollection := ⟨[], List.Pairwise.nil⟩

def insert (options : OptionCollection) (option : DhcpOption) : OptionCollection :=
  ⟨linkUpper compareCode option options.entries, linkUpper_ascending options.ascending⟩

end OptionCollection

end Dhcp
