import KeaDhcp.Infra.Loop
import KeaDhcp.Dhcp.Option

/-!
# Options of packets

The functions of `src/lib/dhcp/libdhcp++.cc` that read the options of a buffer into a collection
and write a collection into a buffer. The definitions of options, standard ones and those that were
added at run time, are arguments.
-/

namespace Dhcp

open Infra

/-! ## Definitions of options -/

/-- `OptionDefinition::optionFactory` makes an option of a buffer. -/
structure OptionDefinition where
  optionFactory : List UInt8 → Except PacketError DhcpOption

/-- The definitions for the codes of one option space, and for those of the vendors. -/
structure OptionDefs where
  std : UInt16 → List OptionDefinition
  runtime : UInt16 → List OptionDefinition
  vendor : UInt32 → UInt16 → List OptionDefinition

def OptionDefs.none : OptionDefs where
  std := fun _ => []
  runtime := fun _ => []
  vendor := fun _ _ => []

variable (options : OptionCollection) (defs : OptionDefs) (space : String) (buf : OptionBuffer)

/-- Runtime definitions are for codes that have no standard definition. -/
def OptionDefs.lookup (code : UInt16) : List OptionDefinition :=
  match defs.std code with
  | [] => defs.runtime code
  | found => found

/-- The option for a code whose definitions are `found`: without a definition a generic one. -/
def createOption (universe_ : Universe) (found : List OptionDefinition) (code : UInt16)
    (data : List UInt8) : Except PacketError DhcpOption :=
  match found with
  | [] => DhcpOption.make universe_ code data
  | [definition] => definition.optionFactory data
  | _ =>
    .error (.unexpected ("Internal error: multiple option definitions for option type " ++
      toString code.toNat ++ " returned. Currently it is not supported to initialize multiple " ++
      "option definitions for the same option code. This will be supported once support for " ++
      "option spaces is implemented"))

/-! ## Vendor options -/

/-- Where a reader is, and the options that it has read. -/
structure Unpacking where
  offset : Nat
  options : OptionCollection

/-- One round of the loop of `unpackVendorOptions6`. -/
def unpackVendorOption6 (defs : UInt16 → List OptionDefinition) (buf : OptionBuffer)
    (s : Unpacking) : Except PacketError (Unpacking ⊕ Unpacking) :=
  if s.offset + 4 > buf.length then
    .error (.skipRemainingOptions "Vendor option parse failed: truncated header")
  else do
    let optType ← readUint16 buf s.offset
    let optLen ← readUint16 buf (s.offset + 2)
    let offset := s.offset + 4
    if offset + optLen.toNat > buf.length then
      .error (.skipRemainingOptions ("Vendor option parse failed. Tried to parse " ++
        toString (offset + optLen.toNat) ++ " bytes from " ++ toString buf.length ++
        "-byte long buffer."))
    else
      let data ← copyRange buf offset optLen.toNat
      let option ← createOption .v6 (defs optType) optType data
      return .inl { offset := offset + optLen.toNat, options := s.options.insert option }

theorem unpackVendorOption6_offset {defs : UInt16 → List OptionDefinition} {buf : OptionBuffer}
    {s s' : Unpacking} (h : unpackVendorOption6 defs buf s = .ok (.inl s')) :
    s.offset < s'.offset := by
  unfold unpackVendorOption6 at h
  split at h
  · cases h
  obtain ⟨optType, -, h⟩ := except_bind_eq_ok h
  obtain ⟨optLen, -, h⟩ := except_bind_eq_ok h
  dsimp only at h
  split at h
  · cases h
  obtain ⟨data, -, h⟩ := except_bind_eq_ok h
  obtain ⟨option, -, h⟩ := except_bind_eq_ok h
  cases h
  dsimp only
  omega

def vendorLoop6 (defs : UInt16 → List OptionDefinition) (buf : OptionBuffer) :
    Loop PacketError Unpacking Unpacking :=
  Loop.scan buf.length (fun s => s.offset) (unpackVendorOption6 defs buf)
    fun _ _ => unpackVendorOption6_offset

/-- The state in which a loop ended or returned. -/
def ended {ε σ : Type} (result : Except ε (σ ⊕ σ)) : Except ε σ := result.map (Sum.elim id id)

def unpackVendorOptions6 (defs : UInt16 → List OptionDefinition) (buf : OptionBuffer) :
    Except PacketError Unpacking :=
  ended ((vendorLoop6 defs buf).run { offset := 0, options := .empty })

/-- The constructor of `OptionVendor` for DHCPv6, which calls `unpack`. -/
def unpackVendor (data : OptionBuffer) : Except PacketError DhcpOption :=
  if data.length < 4 then
    .error (.skipRemainingOptions ("Truncated vendor-specific information option, length=" ++
      toString data.length))
  else do
    let vendorId ← readUint32 data 0
    let vendorBuffer ← copyRange data 4 (data.length - 4)
    let unpacked ← unpackVendorOptions6 (defs.vendor vendorId) vendorBuffer
    return .vendor vendorId unpacked.options.entries

/-! ## DHCPv6 -/

/-- With the offset and the length of the last relay message, for a caller that asks for them. -/
structure Unpacking6 extends Unpacking where
  relayMsg : Option (Nat × Nat)

/-- One round of the loop of `unpackOptions6`. -/
def unpackOption6 (s : Unpacking6) : Except PacketError (Unpacking6 ⊕ Unpacking6) :=
  if s.offset + 4 > buf.length then .ok (.inr s)
  else do
    let optType ← readUint16 buf s.offset
    let optLen ← readUint16 buf (s.offset + 2)
    let offset := s.offset + 4
    if offset + optLen.toNat > buf.length then
      -- The option is truncated: it is as if it was never parsed.
      return .inr s
    else if optType = D6O_RELAY_MSG ∧ s.relayMsg.isSome then
      return .inl { s with
        offset := offset + optLen.toNat, relayMsg := some (offset, optLen.toNat) }
    else if optType = D6O_VENDOR_OPTS then
      -- The enterprise number is looked for in the buffer, not in the option.
      if offset + 4 > buf.length then return .inr s
      else
        let data ← copyRange buf offset optLen.toNat
        let option ← unpackVendor defs data
        return .inl { s with offset := offset + optLen.toNat, options := s.options.insert option }
    else
      let data ← copyRange buf offset optLen.toNat
      let option ← createOption .v6 (defs.lookup optType) optType data
      return .inl { s with offset := offset + optLen.toNat, options := s.options.insert option }

theorem unpackOption6_offset {defs : OptionDefs} {buf : OptionBuffer} {s s' : Unpacking6}
    (h : unpackOption6 defs buf s = .ok (.inl s')) : s.offset < s'.offset := by
  unfold unpackOption6 at h
  split at h
  · cases h
  obtain ⟨optType, -, h⟩ := except_bind_eq_ok h
  obtain ⟨optLen, -, h⟩ := except_bind_eq_ok h
  dsimp only at h
  split at h
  · cases h
  split at h
  · cases h
    dsimp only
    omega
  · split at h
    · split at h
      · cases h
      obtain ⟨data, -, h⟩ := except_bind_eq_ok h
      obtain ⟨option, -, h⟩ := except_bind_eq_ok h
      cases h
      dsimp only
      omega
    · obtain ⟨data, -, h⟩ := except_bind_eq_ok h
      obtain ⟨option, -, h⟩ := except_bind_eq_ok h
      cases h
      dsimp only
      omega

def optionsLoop6 : Loop PacketError Unpacking6 Unpacking6 :=
  Loop.scan buf.length (fun s => s.offset) (unpackOption6 defs buf) fun _ _ => unpackOption6_offset

/-- Reads into a new collection; `relayMsg` holds what the two pointers point to. -/
def unpackOptions6 (relayMsg : Option (Nat × Nat)) : Except PacketError Unpacking6 :=
  ended ((optionsLoop6 defs buf).run { offset := 0, options := .empty, relayMsg := relayMsg })

def packOptions6 : Except PacketError (List UInt8) :=
  packAll6 (DhcpOption.packEach options.entries)

/-! ## DHCPv4 -/

def shouldDeferOptionUnpack (code : UInt8) : Bool :=
  space = "dhcp4" ∧ (code = DHO_VENDOR_ENCAPSULATED_OPTIONS ∨ code ≥ 224 ∧ code ≤ 254)

structure Unpacking4 extends Unpacking where
  deferred : List UInt8

/-- One round of the loop of `unpackOptions4`. -/
def unpackOption4 (s : Unpacking4) : Except PacketError (Unpacking4 ⊕ Unpacking4) := do
  let optType ← readUint8 buf s.offset
  let offset := s.offset + 1
  if optType = DHO_END then
    -- Nothing is added for it.
    return .inr s
  else if optType = DHO_PAD then
    return .inl { s with offset := offset }
  else if offset + 1 > buf.length then
    return .inr s
  else
    let optLen ← readUint8 buf offset
    let offset := offset + 1
    if offset + optLen.toNat > buf.length then
      return .inr s
    else
      let data ← copyRange buf offset optLen.toNat
      let deferred := shouldDeferOptionUnpack space optType
      let found := if deferred then [] else defs.lookup optType.toUInt16
      let option ← createOption .v4 found optType.toUInt16 data
      return .inl {
        offset := offset + optLen.toNat, options := s.options.insert option
        deferred := if deferred then s.deferred ++ [optType] else s.deferred }

theorem unpackOption4_offset {defs : OptionDefs} {space : String} {buf : OptionBuffer}
    {s s' : Unpacking4} (h : unpackOption4 defs space buf s = .ok (.inl s')) :
    s.offset < s'.offset := by
  obtain ⟨optType, -, h⟩ := except_bind_eq_ok h
  dsimp only at h
  split at h
  · cases h
  split at h
  · cases h
    dsimp only
    omega
  · split at h
    · cases h
    obtain ⟨optLen, -, h⟩ := except_bind_eq_ok h
    split at h
    · cases h
    obtain ⟨data, -, h⟩ := except_bind_eq_ok h
    obtain ⟨option, -, h⟩ := except_bind_eq_ok h
    cases h
    dsimp only
    omega

def optionsLoop4 : Loop PacketError Unpacking4 Unpacking4 :=
  Loop.scan buf.length (fun s => s.offset) (unpackOption4 defs space buf)
    fun _ _ => unpackOption4_offset

def unpackOptions4 : Except PacketError Unpacking4 :=
  ended ((optionsLoop4 defs space buf).run { offset := 0, options := .empty, deferred := [] })

def packOptions4 : Except PacketError (List UInt8) :=
  packAll4 (DhcpOption.packEach options.entries)

/-- The end of `Pkt4::pack`, which adds the END option itself. -/
def Pkt4.packOptions : Except PacketError (List UInt8) := do
  let bytes ← packOptions4 options
  return bytes ++ [DHO_END]

end Dhcp
