import KeaDhcp.Infra.BigEndian
import KeaDhcp.Dhcp.LibDhcp
import KeaDhcp.Dhcpsrv.Lease

/-!
# DHCPv6 packets

`pack` and `unpack` of `src/lib/dhcp/pkt6.cc`. A packet that came through relays is nested: each
relay puts the message it got into the relay message option of a message of its own. `relayInfo`
lists the relays from the outermost to the innermost.
-/

namespace Dhcp

open Infra

def DHCPV6_RELAY_FORW : UInt8 := 12
def DHCPV6_RELAY_REPL : UInt8 := 13
def DHCPV6_PKT_HDR_LEN : Nat := 4
def DHCPV6_RELAY_HDR_LEN : Nat := 34
def V6ADDRESS_LEN : Nat := 16
def HOP_COUNT_LIMIT : Nat := 32

structure RelayInfo where
  msgType : UInt8
  hopCount : UInt8
  linkaddr : Address 128
  peeraddr : Address 128
  /-- The length of the message inside; `pack` sets it. -/
  relayMsgLen : UInt16
  options : OptionCollection

inductive DHCPv6Proto where
  | udp | tcp
  deriving DecidableEq

structure Pkt6 where
  proto : DHCPv6Proto
  msgType : UInt8
  transid : UInt32
  relayInfo : List RelayInfo
  options : OptionCollection

/-- The message types that are in relay format. -/
def isRelayType (msgType : UInt8) : Bool :=
  msgType = DHCPV6_RELAY_FORW ∨ msgType = DHCPV6_RELAY_REPL

/-- `IOAddress::toBytes`. -/
def addressToBytes (addr : Address 128) : List UInt8 := netBytes V6ADDRESS_LEN addr.toNat

/-- `IOAddress::fromBytes`. -/
def readAddress6 (buf : OptionBuffer) (offset : Nat) : Except PacketError (Address 128) := do
  let bytes ← copyRange buf offset V6ADDRESS_LEN
  return BitVec.ofNat 128 (netValue bytes)

namespace Pkt6

/-! ## Writing -/

/-- The sum of the lengths of options, in 16 bits. -/
def addLengths (length : UInt16) (options : OptionCollection) : UInt16 :=
  options.entries.foldl (fun length option => length + option.len) length

def getRelayOverhead (relay : RelayInfo) : UInt16 :=
  addLengths (UInt16.ofNat (DHCPV6_RELAY_HDR_LEN + Universe.v6.headerLen)) relay.options

variable (p : Pkt6) (defs : OptionDefs) (data : OptionBuffer)

def directLen : UInt16 := addLengths (UInt16.ofNat DHCPV6_PKT_HDR_LEN) p.options

/-- From the innermost relay to the outermost: the relays with their lengths, and the length of
it all. -/
def relaySizes (inner : UInt16) : List RelayInfo → List RelayInfo × UInt16
  | [] => ([], inner)
  | relay :: relays =>
    let (sized, len) := relaySizes inner relays
    ({ relay with relayMsgLen := len } :: sized, len + getRelayOverhead relay)

def calculateRelaySizes : List RelayInfo × UInt16 := relaySizes p.directLen p.relayInfo

/-- What `packUDP` writes for one relay; the message inside follows. -/
def packRelay (relay : RelayInfo) : Except PacketError (List UInt8) := do
  let options ← packOptions6 relay.options
  return [relay.msgType, relay.hopCount] ++ addressToBytes relay.linkaddr ++
    addressToBytes relay.peeraddr ++ options ++ writeUint16 D6O_RELAY_MSG ++
    writeUint16 relay.relayMsgLen

def packRelays : List RelayInfo → Except PacketError (List UInt8)
  | [] => .ok []
  | relay :: relays => do
    let bytes ← packRelay relay
    return bytes ++ (← packRelays relays)

/-- The message of the client or for it. -/
def packMsg : Except PacketError (List UInt8) := do
  let options ← packOptions6 p.options
  return [p.msgType, (p.transid >>> 16 &&& 0xff).toUInt8, (p.transid >>> 8 &&& 0xff).toUInt8,
    (p.transid &&& 0xff).toUInt8] ++ options

def packUDP : Except PacketError (List UInt8) :=
  tryCatch
    (do
      let relays ← packRelays p.calculateRelaySizes.1
      return relays ++ (← p.packMsg))
    fun e => throw (.invalidOperation e.what)

def pack : Except PacketError (List UInt8) :=
  match p.proto with
  | .udp => p.packUDP
  | .tcp =>
    .error (.notImplemented
      "DHCPv6 over TCP (bulk leasequery and failover) not implemented yet.")

/-! ## Reading -/

/-- The members that `unpackMsg` sets. -/
structure Message where
  msgType : UInt8
  transid : UInt32
  options : OptionCollection

def truncated (data : OptionBuffer) : PacketError :=
  .badValue ("Received truncated UDP DHCPv6 packet of size " ++ toString data.length ++
    ", DHCPv6 header alone has 4 bytes.")

/-- `unpackMsg` of the `size` bytes from `offset` on. -/
def unpackMsg (offset size : Nat) : Except PacketError Message :=
  if size < 4 then .error (truncated data)
  else do
    let msgType ← readUint8 data offset
    let byte1 ← readUint8 data (offset + 1)
    let byte2 ← readUint8 data (offset + 2)
    let byte3 ← readUint8 data (offset + 3)
    let transid := byte1.toUInt32 <<< 16 + byte2.toUInt32 <<< 8 + byte3.toUInt32
    let optBuffer ← copyRange data (offset + 4) (size - 4)
    let unpacked ← unpackOptions6 defs optBuffer none
    return { msgType := msgType, transid := transid &&& 0xffffff, options := unpacked.options }

/-- The range that is still to be read, and the relays that were read. -/
structure RelayState where
  offset : Nat
  bufsize : Nat
  relayInfo : List RelayInfo

def addRelayInfo (relayInfo : List RelayInfo) (relay : RelayInfo) :
    Except PacketError (List RelayInfo) :=
  if relayInfo.length > HOP_COUNT_LIMIT then
    .error (.badValue "Massage cannot be encapsulated more than 32 times")
  else .ok (relayInfo ++ [relay])

/-- One relay: the loop of `unpackRelayMsg` up to the message inside, whose range it leaves. -/
def unpackRelayLevel (s : RelayState) : Except PacketError RelayState := do
  let msgType ← readUint8 data s.offset
  let hopCount ← readUint8 data (s.offset + 1)
  let linkaddr ← readAddress6 data (s.offset + 2)
  let peeraddr ← readAddress6 data (s.offset + 2 + V6ADDRESS_LEN)
  let offset := s.offset + DHCPV6_RELAY_HDR_LEN
  let bufsize := s.bufsize - DHCPV6_RELAY_HDR_LEN
  let optBuffer ← copyRange data offset bufsize
  let unpacked ← unpackOptions6 defs optBuffer (some (0, 0))
  let (relayMsgOffset, relayMsgLen) := unpacked.relayMsg.getD (0, 0)
  if relayMsgOffset = 0 ∨ relayMsgLen = 0 then
    .error (.badValue "Mandatory relay-msg option missing")
  else
    let relayInfo ← addRelayInfo s.relayInfo {
      msgType := msgType, hopCount := hopCount, linkaddr := linkaddr, peeraddr := peeraddr
      relayMsgLen := 0, options := unpacked.options }
    if relayMsgLen ≥ bufsize then
      .error (.unexpected "Relay-msg option is truncated.")
    else
      return { offset := offset + relayMsgOffset, bufsize := relayMsgLen, relayInfo := relayInfo }

/-- The rest of the loop: the message inside is in relay format as well, or it is unpacked. -/
def unpackRelay (s : RelayState) :
    Except PacketError (RelayState ⊕ (List RelayInfo × Message)) := do
  let inner ← unpackRelayLevel defs data s
  let innerType ← readUint8 data inner.offset
  if isRelayType innerType then return .inl inner
  else
    let message ← unpackMsg defs data inner.offset inner.bufsize
    return .inr (inner.relayInfo, message)

theorem unpackRelayLevel_bufsize {defs : OptionDefs} {data : OptionBuffer} {s inner : RelayState}
    (h : unpackRelayLevel defs data s = .ok inner) : inner.bufsize < s.bufsize := by
  obtain ⟨msgType, -, h⟩ := except_bind_eq_ok h
  obtain ⟨hopCount, -, h⟩ := except_bind_eq_ok h
  obtain ⟨linkaddr, -, h⟩ := except_bind_eq_ok h
  obtain ⟨peeraddr, -, h⟩ := except_bind_eq_ok h
  obtain ⟨optBuffer, -, h⟩ := except_bind_eq_ok h
  obtain ⟨unpacked, -, h⟩ := except_bind_eq_ok h
  dsimp only at h
  split at h
  · cases h
  obtain ⟨relayInfo, -, h⟩ := except_bind_eq_ok h
  split at h
  · cases h
  cases h
  dsimp only
  omega

theorem unpackRelay_bufsize {defs : OptionDefs} {data : OptionBuffer} {s s' : RelayState}
    (h : unpackRelay defs data s = .ok (.inl s')) : s'.bufsize < s.bufsize := by
  obtain ⟨inner, hlevel, h⟩ := except_bind_eq_ok h
  obtain ⟨innerType, -, h⟩ := except_bind_eq_ok h
  split at h
  · cases h
    exact unpackRelayLevel_bufsize hlevel
  · obtain ⟨message, -, h⟩ := except_bind_eq_ok h
    cases h

def relayLoop : Loop PacketError RelayState (List RelayInfo × Message) where
  cond := fun s => s.bufsize ≥ DHCPV6_RELAY_HDR_LEN
  body := unpackRelay defs data
  measure := fun s => s.bufsize
  smaller := fun _ _ _ => unpackRelay_bufsize

/-- `unpackRelayMsg`. When the loop ends with bytes that are too few for a relay, the members of
the message keep the values that they had. -/
def unpackRelayMsg (msgType : UInt8) : Except PacketError Pkt6 := do
  match ← (relayLoop defs data).run { offset := 0, bufsize := data.length, relayInfo := [] } with
  | .inl s =>
    return {
      proto := .udp, msgType := msgType, transid := 0, relayInfo := s.relayInfo, options := .empty }
  | .inr (relayInfo, message) =>
    return { message with proto := .udp, relayInfo := relayInfo }

def unpackUDP : Except PacketError Pkt6 :=
  if data.length < 4 then .error (truncated data)
  else do
    let msgType ← readUint8 data 0
    if isRelayType msgType then unpackRelayMsg defs data msgType
    else
      let message ← unpackMsg defs data 0 data.length
      return { message with proto := .udp, relayInfo := [] }

/-- A new packet of the received bytes, unpacked. -/
def unpack (proto : DHCPv6Proto) (data : OptionBuffer) : Except PacketError Pkt6 :=
  match proto with
  | .udp => unpackUDP defs data
  | .tcp =>
    .error (.unexpected "DHCPv6 over TCP (bulk leasequery and failover) not implemented yet.")

end Pkt6

end Dhcp
