import KeaDhcp.Properties.OptionFields

/-!
# Unpacking reads received bytes only

`Pkt6::unpack` of any bytes, with no definitions of options. All loops are total, since each round
of them makes a number smaller; that no byte outside of the buffer is read is a property of how
they end, `Safe`.
-/

namespace Dhcp

open Infra OptionDefs Ends List UInt32 OptionCollection

/-- The computation returns a value with `P` or throws: it reads nothing outside of its buffer. -/
abbrev Safe {α : Type} (P : α → Prop) (x : Except PacketError α) : Prop := Ends P (· ≠ .outside) x

variable {buf : OptionBuffer} {offset length : Nat}

/-- A byte inside the buffer may be read. -/
theorem readUint8_safe (h : offset < buf.length) : Safe (fun _ => True) (readUint8 buf offset) := by
  unfold readUint8
  rw [getElem?_eq_getElem h]
  trivial

theorem copyRange_safe (h : offset + length ≤ buf.length) :
    Safe (· = (buf.drop offset).take length) (copyRange buf offset length) := by
  unfold copyRange
  rw [if_pos h]
  rfl

theorem readAddress6_safe (h : offset + V6ADDRESS_LEN ≤ buf.length) :
    Safe (fun _ => True) (readAddress6 buf offset) :=
  bind (copyRange_safe h) fun _ _ => trivial

/-! ## Options that are cut out of bytes -/

/-- The generic option that a field stands for. -/
def genericOf (f : Tlv) : DhcpOption := .generic .v6 (UInt16.ofNat f.type) f.value []

/-- The collection that options are read into, one after the other. -/
def collected (os : List DhcpOption) : OptionCollection := os.foldl insert .empty

variable {o : DhcpOption}

/-- The collection grows by the option that was read last. -/
theorem collected_concat {os : List DhcpOption} :
    collected (os ++ [o]) = (collected os).insert o := foldl_concat ..

/-- The bytes of fields, one behind the other. -/
def encodeFields (fields : List Tlv) : List UInt8 := fields.flatMap (Tlv.encode 2)

variable {f : Tlv}

theorem encodeFields_concat {fields : List Tlv} :
    encodeFields (fields ++ [f]) = encodeFields fields ++ f.encode 2 := by
  simp [encodeFields]

/-- The option holds the value of the field. A vendor option holds the enterprise number and the
values of the fields behind it, which are all there is. -/
inductive MadeOf : Tlv → DhcpOption → Prop where
  | generic (f : Tlv) : MadeOf f (genericOf f)
  | vendor (vendorId : UInt32) (fields : List Tlv) :
    MadeOf ⟨D6O_VENDOR_OPTS.toNat, netBytes 4 vendorId.toNat ++ encodeFields fields⟩
      (.vendor vendorId (collected (fields.map genericOf)).entries)

/-- The options were read from fields that stand in the bytes: each in one piece, and all of them
one after the other in the order in which they were read. -/
def Carved (bytes : List UInt8) (c : OptionCollection) : Prop :=
  ∃ read : List (Tlv × DhcpOption), c = collected (read.map Prod.snd) ∧
    (∀ r ∈ read, MadeOf r.1 r.2 ∧ r.1.encode 2 <:+: bytes) ∧
    (encodeFields (read.map Prod.fst)).Sublist bytes

namespace Carved

variable {bytes bytes' : List UInt8} {c : OptionCollection}

theorem empty (bytes : List UInt8) : Carved bytes .empty :=
  ⟨[], rfl, nofun, nil_sublist bytes⟩

/-- What is carved out of a part is carved out of the whole. -/
theorem mono (h : Carved bytes c) (hpart : bytes <:+: bytes') : Carved bytes' c := by
  obtain ⟨read, hc, hmade, hall⟩ := h
  refine ⟨read, hc, fun r hr => ?_, hall.trans hpart.sublist⟩
  obtain ⟨hr, hin⟩ := hmade r hr
  exact ⟨hr, hin.trans hpart⟩

/-- One more option behind the fields that were read. -/
theorem insert (h : Carved bytes c) (ho : MadeOf f o) :
    Carved (bytes ++ f.encode 2) (c.insert o) := by
  obtain ⟨read, rfl, hmade, hall⟩ := h
  refine ⟨read ++ [(f, o)], ?_, ?_, ?_⟩
  · rw [map_append]
    exact (collected_concat).symm
  · intro r hr
    rcases mem_append.mp hr with hr | hr
    · obtain ⟨hmadeOf, hin⟩ := hmade r hr
      exact ⟨hmadeOf, hin.trans (prefix_append ..).isInfix⟩
    · rw [mem_singleton.mp hr]
      exact ⟨ho, (suffix_append ..).isInfix⟩
  · rw [map_append, map_singleton, encodeFields_concat]
    exact hall.append (List.Sublist.refl _)

end Carved

/-! ## The readers of options -/

variable {s : Unpacking6}

/-- The bytes up to the end of a field are those before it and its own. -/
theorem take_field {rest : List UInt8} (h : takeField 2 (buf.drop offset) = some (f, rest)) :
    buf.take (offset + 4 + f.value.length) = buf.take offset ++ f.encode 2 := by
  have hdrop := (takeField_eq_some h).2
  have hlength : 4 + f.value.length = (f.encode 2).length := (Tlv.length_encode 2 f).symm
  rw [Nat.add_assoc, take_add, hdrop, hlength, take_left]

/-- The fields that `unpackVendorOptions6` has read are the bytes up to its offset. -/
structure VendorRead (buf : OptionBuffer) (u : Unpacking) : Prop where
  inside : u.offset ≤ buf.length
  fields : ∃ fields : List Tlv, u.options = collected (fields.map genericOf) ∧
    encodeFields fields = buf.take u.offset

/-- One round of the loop over the options of a vendor. -/
theorem unpackVendorOption6_safe {u : Unpacking} (h : VendorRead buf u) :
    Safe (Sum.elim (VendorRead buf) fun _ => False) (unpackVendorOption6 (fun _ => []) buf u) := by
  cases htake : takeField 2 (buf.drop u.offset) with
  | none =>
    obtain ⟨text, hbody⟩ := unpackVendorOption6_truncated htake
    rw [hbody]
    exact nofun
  | some taken =>
    obtain ⟨f, rest⟩ := taken
    obtain ⟨fields, hoptions, hfields⟩ := h.fields
    rw [unpackVendorOption6_field htake]
    exact {
      inside := (readsField htake).inside
      fields := by
        refine ⟨fields ++ [f], ?_, ?_⟩
        · rw [map_append]
          exact (congrArg (·.insert (genericOf f)) hoptions).trans (collected_concat ..).symm
        · rw [encodeFields_concat, hfields]
          exact (take_field htake).symm }

theorem ended_ends {ε σ : Type} {P : σ → Prop} {E : ε → Prop} {result : Except ε (σ ⊕ σ)}
    (h : Ends (Sum.elim P P) E result) : Ends P E (ended result) := by
  obtain e | (s | s) := result <;> exact h

theorem unpackVendorOptions6_safe :
    Safe (fun u => ∃ fields : List Tlv, u.options = collected (fields.map genericOf) ∧
      encodeFields fields = buf) (unpackVendorOptions6 (fun _ => []) buf) := by
  refine ended_ends (Loop.run_ends (I := VendorRead buf) ?_ ?_ ⟨Nat.zero_le _, [], rfl, rfl⟩)
  · intro u hu _
    refine (unpackVendorOption6_safe hu).mono ?_
    rintro (u' | u') h
    · exact h
    · exact h.elim
  · intro u hu hend
    -- The loop ends at the end of the buffer: no byte is left over.
    have hall : buf.length ≤ u.offset := Nat.not_lt.mp (of_decide_eq_false hend)
    obtain ⟨fields, hoptions, hfields⟩ := hu.fields
    exact ⟨fields, hoptions, hfields.trans (take_of_length_le hall)⟩

/-- The data of a vendor option, with the enterprise number in front. -/
theorem unpackVendor_safe (data : OptionBuffer) :
    Safe (MadeOf ⟨D6O_VENDOR_OPTS.toNat, data⟩) (unpackVendor none data) := by
  unfold unpackVendor
  split
  · exact nofun
  rename_i hlength
  obtain ⟨n, rest, hn, rfl⟩ := exists_netBytes (w := 4) (Nat.not_lt.mp hlength)
  have hid : (ofNat n).toNat = n := by
    exact Nat.mod_eq_of_lt hn
  have hread : readUint32 (netBytes 4 n ++ rest) 0 = .ok (ofNat n) :=
    readUint32_of_drop rfl
  have hcopy : ((netBytes 4 n ++ rest).drop 4).take ((netBytes 4 n ++ rest).length - 4) = rest := by
    rw [drop_left' (length_netBytes 4 n), length_append, length_netBytes,
      Nat.add_sub_cancel_left, take_length]
  rw [hread, except_ok_bind]
  refine bind (copyRange_safe (by omega)) ?_
  rintro vendorBuffer rfl
  rw [hcopy]
  refine bind unpackVendorOptions6_safe ?_
  rintro u ⟨fields, hoptions, rfl⟩
  have hmade := MadeOf.vendor (ofNat n) fields
  rwa [hid, ← hoptions] at hmade

/-- Every option is made of the field that was read. -/
theorem readOption6_safe (h : f.Fits 2) :
    Safe (MadeOf f) (readOption6 none (UInt16.ofNat f.type) f.value) := by
  unfold readOption6
  split
  · rename_i hvendor
    have htype : f.type = D6O_VENDOR_OPTS.toNat := by
      rw [← hvendor]
      exact (Nat.mod_eq_of_lt h.type).symm
    have hsafe := unpackVendor_safe f.value
    rw [← htype] at hsafe
    exact hsafe
  · exact MadeOf.generic f

/-- What `unpackOptions6` has read stands in front of its offset. -/
structure OptionsRead (buf : OptionBuffer) (s : Unpacking6) : Prop where
  inside : s.offset ≤ buf.length
  carved : Carved (buf.take s.offset) s.options
  relayMsg : ∀ relayOffset relayLen, s.relayMsg = some (relayOffset, relayLen) →
    relayOffset + relayLen ≤ buf.length

/-- One round of the loop over options. -/
theorem unpackOption6_safe (h : OptionsRead buf s) :
    Safe (Sum.elim (OptionsRead buf) (OptionsRead buf)) (unpackOption6 none buf s) := by
  cases htake : takeField 2 (buf.drop s.offset) with
  | none =>
    rw [unpackOption6_truncated htake]
    exact h
  | some taken =>
    have hinside := (readsField htake).inside
    have hread := take_field htake
    rw [unpackOption6_field htake]
    unfold unpackField6
    dsimp only
    split
    · exact {
        inside := hinside
        carved := by
          refine h.carved.mono ?_
          rw [hread]
          exact (prefix_append ..).isInfix
        relayMsg := by
          rintro relayOffset relayLen heq
          cases heq
          exact hinside }
    · split
      · exact h
      refine bind (readOption6_safe (takeField_eq_some htake).1) fun o ho => ?_
      exact {
        inside := hinside
        carved := hread ▸ h.carved.insert ho
        relayMsg := h.relayMsg }

/-- The range of a relay message, known before or found on the way, is inside the buffer. -/
theorem unpackOptions6_safe {relayMsg : Option (Nat × Nat)}
    (h : ∀ relayOffset relayLen, relayMsg = some (relayOffset, relayLen) →
      relayOffset + relayLen ≤ buf.length) :
    Safe (OptionsRead buf) (unpackOptions6 none buf relayMsg) := by
  have hstart : OptionsRead buf { offset := 0, options := .empty, relayMsg := relayMsg } :=
    ⟨Nat.zero_le _, Carved.empty _, h⟩
  refine ended_ends (Loop.run_ends (I := OptionsRead buf) ?_ ?_ hstart)
  · intro s hs _
    exact (unpackOption6_safe hs).mono fun
      | .inl _, h => h
      | .inr _, h => h
  · intro s hs _
    exact hs

/-! ## The readers of packets -/

theorem take_drop_isInfix {data : List UInt8} : (data.drop offset).take length <:+: data := by
  have htake : (data.drop offset).take length <+: data.drop offset := take_prefix ..
  exact htake.isInfix.trans (drop_suffix ..).isInfix

variable {data : OptionBuffer}

theorem OptionsRead.carved_data (h : OptionsRead ((data.drop offset).take length) s) :
    Carved data s.options := by
  have htake : ((data.drop offset).take length).take s.offset <+: _ := take_prefix ..
  exact h.carved.mono (htake.isInfix.trans take_drop_isInfix)

namespace Pkt6

variable {st : RelayState}

theorem unpackMsg_safe (h : offset + length ≤ data.length) :
    Safe (fun message => Carved data message.options) (unpackMsg none data offset length) := by
  unfold unpackMsg
  split
  · exact nofun
  refine bind (readUint8_safe (by omega)) fun msgType _ => ?_
  refine bind (readUint8_safe (by omega)) fun byte1 _ => ?_
  refine bind (readUint8_safe (by omega)) fun byte2 _ => ?_
  refine bind (readUint8_safe (by omega)) fun byte3 _ => ?_
  refine bind (copyRange_safe (by omega)) ?_
  rintro optBuffer rfl
  refine bind (unpackOptions6_safe nofun) fun unpacked hread => ?_
  exact hread.carved_data

/-- What has been read of a packet when the loop of `unpackRelayMsg` is in a state. -/
structure RelaysRead (data : OptionBuffer) (st : RelayState) : Prop where
  inside : st.offset + st.bufsize ≤ data.length
  carved : ∀ relay ∈ st.relayInfo, Carved data relay.options

theorem addRelayInfo_safe {relayInfo : List RelayInfo} {relay : RelayInfo} :
    Safe (· = relayInfo ++ [relay]) (addRelayInfo relayInfo relay) := by
  unfold addRelayInfo
  split
  · exact nofun
  · rfl

/-- One relay leaves a range of the received bytes for the message inside it. -/
theorem unpackRelayLevel_safe (hsize : DHCPV6_RELAY_HDR_LEN ≤ st.bufsize) (h : RelaysRead data st) :
    Safe (fun inner => RelaysRead data inner ∧ 0 < inner.bufsize)
      (unpackRelayLevel none data st) := by
  have hinside := h.inside
  have hheader : 34 ≤ st.bufsize := hsize
  refine bind (readUint8_safe (by omega)) fun msgType _ => ?_
  refine bind (readUint8_safe (by omega)) fun hopCount _ => ?_
  refine bind (readAddress6_safe (by rw [V6ADDRESS_LEN]; omega)) fun linkaddr _ => ?_
  refine bind (readAddress6_safe (by rw [V6ADDRESS_LEN]; omega)) fun peeraddr _ => ?_
  refine bind (copyRange_safe (by omega)) ?_
  rintro optBuffer rfl
  refine bind (unpackOptions6_safe ?_) fun unpacked hread => ?_
  · rintro relayOffset relayLen heq
    cases heq
    exact Nat.zero_le _
  · have hrelay : (unpacked.relayMsg.getD (0, 0)).1 + (unpacked.relayMsg.getD (0, 0)).2 ≤
        st.bufsize - DHCPV6_RELAY_HDR_LEN := by
      cases heq : unpacked.relayMsg with
      | none => exact Nat.zero_le _
      | some relayMsg =>
        refine (hread.relayMsg _ _ heq).trans ?_
        exact length_take_le ..
    dsimp only
    split
    · exact nofun
    refine bind addRelayInfo_safe ?_
    rintro relayInfo rfl
    split
    · exact nofun
    refine ⟨⟨?_, ?_⟩, ?_⟩
    · show st.offset + 34 + (unpacked.relayMsg.getD (0, 0)).1 +
        (unpacked.relayMsg.getD (0, 0)).2 ≤ data.length
      have hrest : st.bufsize - DHCPV6_RELAY_HDR_LEN = st.bufsize - 34 := rfl
      omega
    · intro relay hmem
      rcases mem_append.mp hmem with hmem | hmem
      · exact h.carved relay hmem
      · rw [mem_singleton.mp hmem]
        exact hread.carved_data
    · show 0 < (unpacked.relayMsg.getD (0, 0)).2
      omega

theorem unpackRelay_safe (hsize : DHCPV6_RELAY_HDR_LEN ≤ st.bufsize) (h : RelaysRead data st) :
    Safe (Sum.elim (RelaysRead data) fun read =>
        (∀ relay ∈ read.1, Carved data relay.options) ∧ Carved data read.2.options)
      (unpackRelay none data st) := by
  refine bind (unpackRelayLevel_safe hsize h) ?_
  rintro inner ⟨hinner, hpos⟩
  have hinside := hinner.inside
  refine bind (readUint8_safe (by omega)) fun innerType _ => ?_
  split
  · exact hinner
  · refine bind (unpackMsg_safe hinside) fun message hmessage => ?_
    exact ⟨hinner.carved, hmessage⟩

/-- The options of a packet and of its relays are fields of the data. -/
structure PacketCarved (data : OptionBuffer) (p : Pkt6) : Prop where
  relays : ∀ relay ∈ p.relayInfo, Carved data relay.options
  options : Carved data p.options

/-- All relays, and the message inside the last one. -/
theorem unpackRelayMsg_safe {msgType : UInt8} :
    Safe (PacketCarved data) (unpackRelayMsg none data msgType) := by
  have hstart : RelaysRead data { offset := 0, bufsize := data.length, relayInfo := [] } :=
    ⟨(Nat.zero_add _).le, nofun⟩
  have hrun : Safe (Sum.elim (RelaysRead data) fun read =>
        (∀ relay ∈ read.1, Carved data relay.options) ∧ Carved data read.2.options)
      ((relayLoop none data).run
        { offset := 0, bufsize := data.length, relayInfo := [] }) := by
    refine Loop.run_ends (I := RelaysRead data) ?_ ?_ hstart
    · intro st hst hmore
      exact unpackRelay_safe (of_decide_eq_true hmore) hst
    · intro st hst _
      exact hst
  refine bind hrun ?_
  rintro (st | ⟨relayInfo, message⟩) hread
  · exact ⟨hread.carved, Carved.empty data⟩
  · exact ⟨hread.1, hread.2⟩

/-- No read of `unpack` is outside of the received bytes. -/
theorem unpack_safe (proto : DHCPv6Proto) (data : OptionBuffer) :
    Safe (PacketCarved data) (unpack none proto data) := by
  cases proto with
  | tcp => exact nofun
  | udp =>
    unfold unpack unpackUDP
    dsimp only
    split
    · exact nofun
    refine bind (readUint8_safe (by omega)) fun msgType _ => ?_
    split
    · exact unpackRelayMsg_safe
    · refine bind (unpackMsg_safe (by omega)) fun message hmessage => ?_
      exact ⟨nofun, hmessage⟩

/-- The ranges that the loop of `unpackRelayMsg` comes to: all of the data, then the message inside
each relay that it has read. -/
inductive RelayRange (data : OptionBuffer) : RelayState → Prop where
  | start : RelayRange data { offset := 0, bufsize := data.length, relayInfo := [] }
  | inner {st inner : RelayState} (h : RelayRange data st)
    (hsize : DHCPV6_RELAY_HDR_LEN ≤ st.bufsize)
    (hlevel : unpackRelayLevel none data st = .ok inner) : RelayRange data inner

theorem RelayRange.read (h : RelayRange data st) : RelaysRead data st := by
  induction h with
  | start => exact ⟨(Nat.zero_add _).le, nofun⟩
  | inner h hsize hlevel ih =>
    have hsafe := unpackRelayLevel_safe hsize ih
    rw [hlevel] at hsafe
    exact hsafe.1

/--
**Unpacking any datagram is safe.** With no definitions of options, `unpack` ends and never reads a
byte outside of the received ones. When it does not throw, the options of the message and of each
relay are fields of the received bytes, in the order in which they were read, and the ranges that
`unpackRelayMsg` keeps are inside the received bytes.
-/
theorem unpack_reads_received (proto : DHCPv6Proto) (data : OptionBuffer) :
    ((∃ e, e ≠ .outside ∧ unpack none proto data = .error e) ∨
      ∃ p, unpack none proto data = .ok p ∧ Carved data p.options ∧
        ∀ relay ∈ p.relayInfo, Carved data relay.options) ∧
      ∀ st, RelayRange data st → st.offset + st.bufsize ≤ data.length := by
  refine ⟨?_, fun st h => h.read.inside⟩
  have hsafe := unpack_safe proto data
  generalize unpack none proto data = result at hsafe ⊢
  cases result with
  | error e => exact .inl ⟨e, hsafe, rfl⟩
  | ok p => exact .inr ⟨p, rfl, hsafe.options, hsafe.relays⟩

end Pkt6

end Dhcp
