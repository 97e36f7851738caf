import KeaDhcp.Properties.OptionRoundtrip

/-!
# Relayed packets come back

What `packUDP` writes is nested: `encodeRelay` puts the bytes of the message inside into the relay
message option. The lengths that `calculateRelaySizes` finds from the inside out in 16 bits are
those of the bytes, as long as these are at most 65535.
-/

namespace Dhcp

open Infra OptionDefs OptionCollection List UInt16 Tlv

variable {defs : OptionDefs}

/-! ## The bytes of a packet -/

namespace Pkt6

def encodeMsg (p : Pkt6) : List UInt8 :=
  [p.msgType, (p.transid >>> 16 &&& 0xff).toUInt8, (p.transid >>> 8 &&& 0xff).toUInt8,
    (p.transid &&& 0xff).toUInt8] ++ wireAll p.options.entries

/-- The fixed header, the options and the relay message, which is `inner`. -/
def encodeRelay (relay : RelayInfo) (inner : List UInt8) : List UInt8 :=
  [relay.msgType, relay.hopCount] ++ (addressToBytes relay.linkaddr ++
    (addressToBytes relay.peeraddr ++ (wireAll relay.options.entries ++
      (relayField inner).encode 2)))

def encodeRelays (relays : List RelayInfo) (msg : List UInt8) : List UInt8 :=
  relays.foldr encodeRelay msg

theorem length_encodeRelay (relay : RelayInfo) (inner : List UInt8) :
    (encodeRelay relay inner).length =
      34 + ((wireAll relay.options.entries).length + (4 + inner.length)) := by
  simp [encodeRelay, addressToBytes, V6ADDRESS_LEN, length_encode, relayField]
  omega

variable {p : Pkt6} {relay : RelayInfo} {relays : List RelayInfo} {msg inner : List UInt8}

theorem packMsg_eq (h : AllWritten p.options.entries) : p.packMsg = .ok p.encodeMsg := by
  unfold packMsg packOptions6
  rw [packAll6_eq h]
  rfl

theorem directLen_eq (h : AllWritten p.options.entries) :
    p.directLen = ofNat p.encodeMsg.length := by
  unfold directLen addLengths
  rw [addLengths_eq h]
  congr 1
  simp [encodeMsg, DHCPV6_PKT_HDR_LEN]
  omega

theorem packRelay_eq (h : AllWritten relay.options.entries) (inner : List UInt8) :
    ∃ bytes, packRelay { relay with relayMsgLen := ofNat inner.length } = .ok bytes ∧
      bytes ++ inner = encodeRelay relay inner := by
  unfold packRelay packOptions6
  rw [packAll6_eq h]
  rw [writeUint16_eq, DhcpOption.writeUint16_ofNat]
  simp [encodeRelay, encode, relayField]

theorem getRelayOverhead_eq (h : AllWritten relay.options.entries) :
    getRelayOverhead relay = ofNat (38 + (wireAll relay.options.entries).length) := by
  unfold getRelayOverhead addLengths
  rw [addLengths_eq h]
  rfl

/-- From the inside out the lengths are those of the bytes, in 16 bits. -/
theorem relaySizes_eq (h : ∀ relay ∈ relays, AllWritten relay.options.entries) :
    ∃ bytes, packRelays (relaySizes (ofNat msg.length) relays).1 = .ok bytes ∧
      bytes ++ msg = encodeRelays relays msg ∧ (relaySizes (ofNat msg.length) relays).2 =
        ofNat (encodeRelays relays msg).length := by
  induction relays with
  | nil => exact ⟨[], rfl, rfl, rfl⟩
  | cons relay relays ih =>
    obtain ⟨inside, hpack, hbytes, hlen⟩ := ih fun relay hmem => h relay (mem_cons_of_mem _ hmem)
    have hrelay := h relay mem_cons_self
    obtain ⟨header, hheader, houter⟩ := packRelay_eq hrelay (encodeRelays relays msg)
    refine ⟨header ++ inside, ?_, ?_, ?_⟩
    · simp only [relaySizes, hlen, packRelays, hheader, hpack]
      rfl
    · rw [append_assoc, hbytes, houter]
      rfl
    simp only [relaySizes, hlen, getRelayOverhead_eq hrelay, ← ofNat_add]
    congr 1
    show _ = (encodeRelay relay (encodeRelays relays msg)).length
    rw [length_encodeRelay]
    omega

/-- What `packUDP` writes. -/
theorem packUDP_eq (hoptions : AllWritten p.options.entries)
    (hrelays : ∀ relay ∈ p.relayInfo, AllWritten relay.options.entries) :
    p.packUDP = .ok (encodeRelays p.relayInfo p.encodeMsg) := by
  obtain ⟨bytes, hpack, hbytes, -⟩ := relaySizes_eq hrelays
  unfold packUDP calculateRelaySizes
  rw [directLen_eq hoptions, hpack, packMsg_eq hoptions, ← hbytes]
  rfl

/-! ## Reading a packet -/

theorem transid_bytes {t : UInt32} (h : t.toNat < 2 ^ 24) :
    ((t >>> 16 &&& 0xff).toUInt8.toUInt32 <<< 16 + (t >>> 8 &&& 0xff).toUInt8.toUInt32 <<< 8 +
      (t &&& 0xff).toUInt8.toUInt32) &&& 0xffffff = t := by
  have hmask (n : Nat) : n &&& 255 = n % 256 := Nat.and_two_pow_sub_one_eq_mod n 8
  have hmask₂ (n : Nat) : n &&& 16777215 = n % 16777216 := Nat.and_two_pow_sub_one_eq_mod n 24
  apply UInt32.toNat_inj.mp
  simp [hmask, hmask₂]
  omega

section Reading

variable {data rest : List UInt8} {offset : Nat}

theorem unpackMsg_encode (htransid : p.transid.toNat < 2 ^ 24)
    (h : ∀ o ∈ p.options.entries, o.Recovered defs ∧ o.getType ≠ D6O_RELAY_MSG)
    (hfits : (wireAll p.options.entries).length < 65536) (hoffset : offset ≤ data.length)
    (hdrop : data.drop offset = p.encodeMsg ++ rest) :
    unpackMsg defs data offset p.encodeMsg.length =
      .ok { msgType := p.msgType, transid := p.transid, options := p.options } := by
  have hsize : p.encodeMsg.length = 4 + (wireAll p.options.entries).length := by
    simp [encodeMsg]
    omega
  have hlength := congrArg length hdrop
  rw [length_drop, length_append] at hlength
  have hbyte₁ := drop_succ hdrop
  have hbyte₂ := drop_succ hbyte₁
  have hbyte₃ := drop_succ hbyte₂
  have hbehind : data.drop (offset + 4) = wireAll p.options.entries ++ rest := drop_succ hbyte₃
  unfold unpackMsg
  rw [if_neg (by omega), readUint8_of_drop hdrop, readUint8_of_drop hbyte₁,
    readUint8_of_drop hbyte₂, readUint8_of_drop hbyte₃, hsize, Nat.add_sub_cancel_left]
  rw [copyRange_of_drop (by omega) hbehind]
  simp only [except_ok_bind, unpackOptions6_wire h hfits, transid_bytes htransid]
  rfl

theorem readAddress6_of_drop {addr : Address 128} (hoffset : offset ≤ data.length)
    (h : data.drop offset = addressToBytes addr ++ rest) : readAddress6 data offset = .ok addr := by
  have hcopy := copyRange_of_drop hoffset h
  have hvalue : netValue (addressToBytes addr) = addr.toNat := netValue_netBytes addr.isLt
  rw [addressToBytes, length_netBytes] at hcopy
  unfold readAddress6
  rw [hcopy]
  show Except.ok (BitVec.ofNat 128 (netValue (addressToBytes addr))) = _
  rw [hvalue, BitVec.ofNat_toNat, BitVec.setWidth_eq]

variable {st : RelayState}

/-- The first relay is read, and the range of the message inside is left. -/
theorem unpackRelayLevel_encode
    (h : ∀ o ∈ relay.options.entries, o.Recovered defs ∧ o.getType ≠ D6O_RELAY_MSG)
    (hfits : (encodeRelay relay inner).length < 65536) (hinner : inner ≠ [])
    (hcount : st.relayInfo.length ≤ HOP_COUNT_LIMIT) (hoffset : st.offset ≤ data.length)
    (hsize : st.bufsize = (encodeRelay relay inner).length)
    (hdrop : data.drop st.offset = encodeRelay relay inner ++ rest) :
    unpackRelayLevel defs data st = .ok {
      offset := st.offset + 34 + ((wireAll relay.options.entries).length + 4)
      bufsize := inner.length
      relayInfo := st.relayInfo ++ [{ relay with relayMsgLen := 0 }] } := by
  rw [length_encodeRelay] at hfits hsize
  have hlength := congrArg length hdrop
  rw [length_drop, length_append, length_encodeRelay] at hlength
  have hpos : 0 < inner.length := length_pos_of_ne_nil hinner
  have haddress (addr : Address 128) : (addressToBytes addr).length = 16 := length_netBytes ..
  have hbytes : data.drop st.offset = relay.msgType :: (relay.hopCount ::
      (addressToBytes relay.linkaddr ++ (addressToBytes relay.peeraddr ++
        ((wireAll relay.options.entries ++ (relayField inner).encode 2) ++ rest)))) := by
    rw [hdrop]
    simp [encodeRelay]
  have hhop := drop_succ hbytes
  have hlink := drop_succ hhop
  have hpeer := drop_add_length hlink
  have hbehind := drop_add_length hpeer
  rw [haddress] at hpeer hbehind
  rw [haddress] at hbehind
  have hcopy := copyRange_of_drop (by omega) hbehind
  have hbuffer : (wireAll relay.options.entries ++ (relayField inner).encode 2).length =
      st.bufsize - DHCPV6_RELAY_HDR_LEN := by
    rw [length_append, length_encode, hsize, DHCPV6_RELAY_HDR_LEN]
    simp [relayField]
  rw [hbuffer] at hcopy
  unfold unpackRelayLevel
  rw [readUint8_of_drop hbytes, readUint8_of_drop hhop]
  simp only [except_ok_bind]
  rw [readAddress6_of_drop (by omega) hlink, except_ok_bind]
  rw [show st.offset + 2 + V6ADDRESS_LEN = st.offset + 1 + 1 + 16 from rfl,
    readAddress6_of_drop (by omega) hpeer, except_ok_bind]
  rw [show st.offset + DHCPV6_RELAY_HDR_LEN = st.offset + 1 + 1 + 16 + 16 from rfl, hcopy,
    except_ok_bind, unpackOptions6_relay h (by omega) (by omega), except_ok_bind]
  simp only [Option.getD_some]
  rw [if_neg (by omega), addRelayInfo, if_neg (by omega), except_ok_bind,
    if_neg (by rw [DHCPV6_RELAY_HDR_LEN]; omega)]
  rfl

theorem drop_inner (hdrop : data.drop offset = encodeRelay relay inner ++ rest) :
    data.drop (offset + 34 + ((wireAll relay.options.entries).length + 4)) = inner ++ rest := by
  obtain ⟨header, hheader, hlength⟩ : ∃ header, encodeRelay relay inner = header ++ inner ∧
      header.length = 34 + ((wireAll relay.options.entries).length + 4) := by
    refine ⟨[relay.msgType, relay.hopCount] ++ addressToBytes relay.linkaddr ++
      addressToBytes relay.peeraddr ++ wireAll relay.options.entries ++
      (netBytes 2 D6O_RELAY_MSG.toNat ++ netBytes 2 inner.length), ?_, ?_⟩
    · simp [encodeRelay, encode, relayField]
    · simp [addressToBytes, V6ADDRESS_LEN]
      omega
  rw [hheader, append_assoc] at hdrop
  have hinner := drop_add_length hdrop
  rwa [hlength, ← Nat.add_assoc] at hinner

/-- A relay whose type and options are read back. -/
structure RelayReadable (defs : OptionDefs) (relay : RelayInfo) : Prop where
  relayType : isRelayType relay.msgType
  options : ∀ o ∈ relay.options.entries, o.Recovered defs ∧ o.getType ≠ D6O_RELAY_MSG

/-- A message of a client or server that is read back. -/
structure MessageReadable (defs : OptionDefs) (p : Pkt6) : Prop where
  msgType : isRelayType p.msgType = false
  transid : p.transid.toNat < 2 ^ 24
  options : ∀ o ∈ p.options.entries, o.Recovered defs ∧ o.getType ≠ D6O_RELAY_MSG

/-- The length of the message inside is not kept. -/
def cleared (relay : RelayInfo) : RelayInfo := { relay with relayMsgLen := 0 }

theorem length_le_encodeRelays (relays : List RelayInfo) (msg : List UInt8) :
    msg.length ≤ (encodeRelays relays msg).length := by
  induction relays with
  | nil => exact le_rfl
  | cons relay relays ih =>
    show _ ≤ (encodeRelay relay (encodeRelays relays msg)).length
    rw [length_encodeRelay]
    omega

/-- The state stands in front of the bytes `message`. -/
structure At (data : List UInt8) (st : RelayState) (message rest : List UInt8) : Prop where
  offset : st.offset ≤ data.length
  size : st.bufsize = message.length
  drop : data.drop st.offset = message ++ rest

theorem enter_relay (hrelay : RelayReadable defs relay)
    (hfits : (encodeRelay relay inner).length < 65536) (hinner : inner ≠ [])
    (hcount : st.relayInfo.length ≤ HOP_COUNT_LIMIT) (hat : At data st (encodeRelay relay inner) rest) :
    (relayLoop defs data).cond st ∧ ∃ st', unpackRelayLevel defs data st = .ok st' ∧
      st'.relayInfo = st.relayInfo ++ [cleared relay] ∧ At data st' inner rest := by
  have hlength := congrArg length hat.drop
  have hsize := hat.size
  have hoffset := hat.offset
  rw [length_encodeRelay] at hsize
  rw [length_drop, length_append, length_encodeRelay] at hlength
  refine ⟨decide_eq_true (by rw [DHCPV6_RELAY_HDR_LEN]; omega), _,
    unpackRelayLevel_encode hrelay.options hfits hinner hcount hoffset hat.size hat.drop, rfl, ?_⟩
  exact {
    offset := by
      dsimp only
      omega
    size := rfl
    drop := drop_inner hat.drop }

/-- The loop reads all relays and the message inside the last one. -/
theorem run_relays (hp : MessageReadable defs p)
    (hrelays : ∀ r ∈ relay :: relays, RelayReadable defs r)
    (hfits : (encodeRelays (relay :: relays) p.encodeMsg).length < 65536)
    (hcount : st.relayInfo.length + relays.length ≤ HOP_COUNT_LIMIT)
    (hat : At data st (encodeRelays (relay :: relays) p.encodeMsg) rest) :
    (relayLoop defs data).run st = .ok (.inr (st.relayInfo ++ (relay :: relays).map cleared,
      { msgType := p.msgType, transid := p.transid, options := p.options })) := by
  -- on the relays, from the outside: the message inside one of them is the rest of them
  induction relays generalizing relay st rest with
  | nil =>
    obtain ⟨hmore, st', hlevel, hinfo, hinner⟩ :=
      enter_relay (hrelays relay mem_cons_self) hfits (by simp [encodeMsg]) hcount hat
    have hmsg : (wireAll p.options.entries).length < 65536 := by
      have h := length_le_encodeRelays [relay] p.encodeMsg
      simp only [encodeMsg, length_append] at h hfits
      omega
    have hinner : At data st' p.encodeMsg rest := hinner
    have hbody : unpackRelay defs data st = .ok (.inr (st'.relayInfo,
        { msgType := p.msgType, transid := p.transid, options := p.options })) := by
      unfold unpackRelay
      rw [hlevel, except_ok_bind, readUint8_of_drop hinner.drop, except_ok_bind, hp.msgType,
        hinner.size, unpackMsg_encode hp.transid hp.options hmsg hinner.offset
          hinner.drop]
      rfl
    rw [Loop.run_return hmore hbody, hinfo]
    rfl
  | cons next relays ih =>
    have hnext := hrelays next (by simp)
    have hinside := length_encodeRelay relay (encodeRelays (next :: relays) p.encodeMsg)
    have hlonger : (encodeRelay relay (encodeRelays (next :: relays) p.encodeMsg)).length < 65536 :=
      hfits
    obtain ⟨hmore, st', hlevel, hinfo, hinner⟩ := enter_relay (hrelays relay mem_cons_self)
      hfits (by simp [encodeRelay]) (by omega) hat
    have hbody : unpackRelay defs data st = .ok (.inl st') := by
      unfold unpackRelay
      rw [hlevel, except_ok_bind, readUint8_of_drop hinner.drop, except_ok_bind,
        if_pos hnext.relayType]
      rfl
    have hcount' : st'.relayInfo.length + relays.length ≤ HOP_COUNT_LIMIT := by
      rw [length_cons] at hcount
      rw [hinfo, length_append, length_singleton]
      omega
    rw [Loop.run_next hmore hbody, ih (fun r hr => hrelays r (mem_cons_of_mem _ hr)) (by omega)
      hcount' hinner, hinfo]
    simp

/-- Unpacking what was written. -/
theorem unpackUDP_encode (hp : MessageReadable defs p) (hproto : p.proto = .udp)
    (hrelays : ∀ r ∈ p.relayInfo, RelayReadable defs r)
    (hlevels : p.relayInfo.length ≤ HOP_COUNT_LIMIT)
    (hfits : (encodeRelays p.relayInfo p.encodeMsg).length < 65536) :
    unpackUDP defs (encodeRelays p.relayInfo p.encodeMsg) =
      .ok { p with relayInfo := p.relayInfo.map cleared } := by
  have hhead : 4 ≤ p.encodeMsg.length := by simp [encodeMsg]
  have hlength := length_le_encodeRelays p.relayInfo p.encodeMsg
  unfold unpackUDP
  rw [if_neg (by omega)]
  cases hinfo : p.relayInfo with
  | nil =>
    rw [hinfo] at hfits
    have hmsg : (wireAll p.options.entries).length < 65536 := by
      simp only [encodeRelays, foldr_nil, encodeMsg, length_append] at hfits
      omega
    have hbytes : (encodeRelays [] p.encodeMsg).drop 0 = p.encodeMsg ++ [] := by
      rw [append_nil]
      rfl
    rw [readUint8_of_drop hbytes, except_ok_bind, hp.msgType]
    have hread := unpackMsg_encode hp.transid hp.options hmsg (Nat.zero_le _) hbytes
    rw [show (encodeRelays [] p.encodeMsg).length = p.encodeMsg.length from rfl, hread, ← hproto]
    rfl
  | cons relay relays =>
    rw [hinfo] at hfits hrelays hlevels
    have hbytes : (encodeRelays (relay :: relays) p.encodeMsg).drop 0 =
        encodeRelays (relay :: relays) p.encodeMsg ++ [] := by
      rw [append_nil]
      rfl
    have hat : At (encodeRelays (relay :: relays) p.encodeMsg)
        ⟨0, (encodeRelays (relay :: relays) p.encodeMsg).length, []⟩
        (encodeRelays (relay :: relays) p.encodeMsg) [] := ⟨Nat.zero_le _, rfl, hbytes⟩
    have hrun := run_relays hp hrelays hfits (by simpa using Nat.le_of_succ_le hlevels) hat
    rw [readUint8_of_drop hbytes, except_ok_bind,
      if_pos (hrelays relay mem_cons_self).relayType]
    unfold unpackRelayMsg
    rw [hrun, ← hproto]
    rfl

end Reading

namespace RelaySample

def option (type : UInt16) : DhcpOption := .generic .v6 type [1, 2, 3] []

def vendorOption : DhcpOption := .vendor 4491 [option 1, option 38]

/-- A Solicit that came through two relays, the outer of which added two options. -/
def solicit : Pkt6 where
  proto := .udp
  msgType := 1
  transid := 0x123456
  relayInfo := [
    { msgType := 12, hopCount := 1, linkaddr := 0x20010db8, peeraddr := 7, relayMsgLen := 0
      options := (empty.insert (option 65001)).insert vendorOption },
    { msgType := 12, hopCount := 0, linkaddr := 0, peeraddr := 9, relayMsgLen := 0
      options := .empty }]
  options := (empty.insert (option 65001)).insert (option 65001)

theorem option_generic : (option 65001).Generic none where
  plain := ⟨65001, [1, 2, 3], rfl⟩
  undefined := rfl
  notVendor := by decide
  notRelayMsg := by decide

theorem vendorOption_recovered : vendorOption.Recovered none := by
  have hsub : ∀ o ∈ ((empty.insert (option 1)).insert (option 38)).entries,
      VendorGeneric (none.vendor 4491) o := by
    intro o ho
    rcases mem_pair.mp ho with rfl | rfl <;> exact ⟨_, _, rfl, rfl⟩
  exact vendor_recovered hsub (by decide)

end RelaySample

end Pkt6

end Dhcp
