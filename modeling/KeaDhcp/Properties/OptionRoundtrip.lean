import KeaDhcp.Properties.OptionFields

/-!
# DHCPv6 options come back

What is written for options and read again. The lengths of options are numbers of 16 bits; they are
those of the bytes as long as these are at most 65535.
-/

namespace Dhcp

open Infra DhcpOption OptionCollection List Loop Tlv UInt16

variable {defs : OptionDefs} {o : DhcpOption} {n : Nat}

namespace DhcpOption

/-- The bytes that are written for an option. -/
def wire (o : DhcpOption) : List UInt8 := o.pack.toOption.getD []

/-- The option is written as a field, with `payload` behind the header. -/
structure Written (o : DhcpOption) (payload : List UInt8) : Prop where
  pack : o.pack = .ok (encode 2 ⟨o.getType.toNat, payload⟩)
  len : o.len = ofNat (4 + payload.length)

/-- The option is made again of the bytes behind its header. -/
def Recovered (defs : OptionDefs) (o : DhcpOption) : Prop :=
  ∃ payload, o.Written payload ∧ readOption6 defs o.getType payload = .ok o

/-- A generic option without sub-options, whose code has no definition and no meaning of its own
in packets. -/
structure Generic (defs : OptionDefs) (o : DhcpOption) : Prop where
  plain : ∃ type data, o = generic .v6 type data []
  undefined : defs.lookup o.getType = []
  notVendor : o.getType ≠ D6O_VENDOR_OPTS
  notRelayMsg : o.getType ≠ D6O_RELAY_MSG

variable (type : UInt16) (data : List UInt8)

theorem len_generic6 : (generic .v6 type data []).len = ofNat (4 + data.length) := by
  simp [len, lenEach, Universe.headerLen]

theorem writeUint16_ofNat : writeUint16 (ofNat n) = netBytes 2 n := by
  rw [writeUint16_eq]
  exact netBytes_mod 2 n

theorem packHeader6 :
    packHeader .v6 type (ofNat (4 + n)) = .ok (netBytes 2 type.toNat ++ netBytes 2 n) := by
  have hsub : ofNat (4 + n) - 4 = ofNat n := by
    rw [ofNat_add]
    grind
  unfold packHeader
  rw [hsub, writeUint16_eq, writeUint16_ofNat]

theorem pack_generic6 : (generic .v6 type data []).pack = .ok (encode 2 ⟨type.toNat, data⟩) := by
  rw [pack, len_generic6, packHeader6]
  simp [packEach, packAll, packAll6, encode, except_ok_bind]

theorem written_generic6 :
    (generic .v6 type data []).Written data := ⟨pack_generic6 type data, len_generic6 type data⟩

/-- An option without a definition comes back. -/
theorem Generic.recovered (h : o.Generic defs) : o.Recovered defs := by
  obtain ⟨type, data, rfl⟩ := h.plain
  refine ⟨data, written_generic6 type data, ?_⟩
  unfold readOption6 createOption
  rw [if_neg h.notVendor, h.undefined]
  rfl

namespace Written

variable {payload : List UInt8} (h : o.Written payload)
include h

theorem wire_eq : o.wire = encode 2 ⟨o.getType.toNat, payload⟩ := by
  unfold wire
  rw [h.pack]
  rfl

theorem wire_length : o.wire.length = 4 + payload.length := by rw [h.wire_eq, length_encode]

theorem len_eq : o.len = ofNat o.wire.length := by rw [h.len, h.wire_length]

end Written

end DhcpOption

/-! ## Collections -/

/-- The bytes of options, one behind the other. -/
def wireAll (os : List DhcpOption) : List UInt8 := os.flatMap wire

variable {os : List DhcpOption}

theorem wireAll_cons : wireAll (o :: os) = o.wire ++ wireAll os := flatMap_cons

/-- All options are written as fields. -/
def AllWritten (os : List DhcpOption) : Prop := ∀ o ∈ os, ∃ payload, o.Written payload

section Writing

variable (h : AllWritten os)
include h

/-- Packing writes the options one after the other. -/
theorem packAll6_eq : packAll6 (packEach os) = .ok (wireAll os) := by
  induction os with
  | nil => rfl
  | cons o os ih =>
    obtain ⟨⟨payload, ho⟩, hrest⟩ := forall_mem_cons.mp h
    rw [packEach, packAll6, ih hrest, wireAll_cons, ho.wire_eq, ho.pack]
    rfl

theorem addLengths_eq : os.foldl (fun length o => length + o.len) (ofNat n) =
    ofNat (n + (wireAll os).length) := by
  induction os generalizing n with
  | nil => rfl
  | cons o os ih =>
    obtain ⟨⟨payload, ho⟩, hrest⟩ := forall_mem_cons.mp h
    rw [foldl_cons, ho.len_eq, ← ofNat_add, ih hrest, wireAll_cons, length_append, Nat.add_assoc]

theorem lenEach_eq : ofNat (n + lenEach os) = ofNat (n + (wireAll os).length) := by
  induction os generalizing n with
  | nil => rfl
  | cons o os ih =>
    obtain ⟨⟨payload, ho⟩, hrest⟩ := forall_mem_cons.mp h
    rw [lenEach, ← Nat.add_assoc, ih hrest, wireAll_cons, length_append, Nat.add_assoc,
      Nat.add_left_comm, UInt16.ofNat_add,
      UInt16.ofNat_toNat, ho.len_eq, ← UInt16.ofNat_add, Nat.add_left_comm]

end Writing

theorem entries_foldl_insert (os : List DhcpOption) (c : OptionCollection) :
    (os.foldl insert c).entries =
      os.foldl (fun l o => linkUpper compareCode o l) c.entries := by
  induction os generalizing c with
  | nil => rfl
  | cons o os ih => exact ih (c.insert o)

variable {c : OptionCollection}

/-- Options that are in order are put back in the same order. -/
theorem foldl_insert : c.entries.foldl insert .empty = c := by
  ext1
  rw [entries_foldl_insert]
  exact foldl_linkUpper (l := []) c.ascending

/-! ## Reading options -/

variable {buf rest : List UInt8}

section Reading

variable {s : Unpacking6}

theorem optionsLoop6_cond {buf : OptionBuffer} :
    (optionsLoop6 defs buf).cond s = decide (s.offset < buf.length) := rfl

/-- An option that was written is the next one that is read. -/
theorem round_option (ho : o.Recovered defs) (hrelay : o.getType ≠ D6O_RELAY_MSG)
    (hfits : o.wire.length < 65536) (hdrop : buf.drop s.offset = o.wire ++ rest) :
    unpackOption6 defs buf s = .ok (.inl {
      s with offset := s.offset + o.wire.length, options := s.options.insert o }) := by
  obtain ⟨payload, hwritten, hread⟩ := ho
  have hlength := hwritten.wire_length
  have hfield : Tlv.Fits 2 ⟨o.getType.toNat, payload⟩ := {
    type := o.getType.toNat_lt
    length := by
      show payload.length < 65536
      omega }
  have htake : takeField 2 (buf.drop s.offset) = some (⟨o.getType.toNat, payload⟩, rest) := by
    rw [hdrop, hwritten.wire_eq]
    exact takeField_encode hfield rest
  have hinside := (readsField htake).inside
  have hroom : ¬(o.getType = D6O_VENDOR_OPTS ∧ s.offset + 8 > buf.length) := by
    rintro ⟨hvendor, hend⟩
    -- The enterprise number of a vendor option is in its payload.
    have hshort : payload.length < 4 := by
      dsimp only at hinside
      omega
    rw [readOption6, if_pos hvendor, unpackVendor, if_pos hshort] at hread
    cases hread
  rw [unpackOption6_field htake]
  unfold unpackField6
  simp only [UInt16.ofNat_toNat, hrelay, hroom, hread, hlength]
  rw [Nat.add_assoc]
  rfl

/-- The loop takes the written options off the buffer. -/
theorem run_options (h : ∀ o ∈ os, o.Recovered defs ∧ o.getType ≠ D6O_RELAY_MSG)
    (hfits : (wireAll os).length < 65536) (hdrop : buf.drop s.offset = wireAll os ++ rest) :
    (optionsLoop6 defs buf).run s = (optionsLoop6 defs buf).run {
      s with
      offset := s.offset + (wireAll os).length
      options := os.foldl insert s.options } := by
  induction os generalizing s with
  | nil => rfl
  | cons o os ih =>
    rw [wireAll_cons, length_append] at hfits
    rw [wireAll_cons, append_assoc] at hdrop
    obtain ⟨ho, hrelay⟩ := h o mem_cons_self
    have hround := round_option ho hrelay (by omega) hdrop
    have hmore : (optionsLoop6 defs buf).cond s := by
      obtain ⟨payload, hwritten, -⟩ := ho
      have hlength := congrArg length hdrop
      have hpos := hwritten.wire_length
      simp only [length_drop, length_append] at hlength
      rw [optionsLoop6_cond]
      exact decide_eq_true (by omega)
    rw [run_next hmore hround, ih (fun o ho => h o (mem_cons_of_mem _ ho)) (by omega)
      (drop_add_length hdrop)]
    simp [wireAll_cons, Nat.add_assoc]

section

variable (h : ∀ o ∈ c.entries, o.Recovered defs ∧ o.getType ≠ D6O_RELAY_MSG)
  (hfits : (wireAll c.entries).length < 65536)

include h hfits

theorem unpackOptions6_wire :
    unpackOptions6 defs (wireAll c.entries) none =
      .ok { offset := (wireAll c.entries).length, options := c, relayMsg := none } := by
  have hwhole : (wireAll c.entries).drop 0 = wireAll c.entries ++ [] := (append_nil _).symm
  unfold unpackOptions6
  rw [run_options h hfits hwhole, run_exit (by simp [optionsLoop6_cond]),
    foldl_insert, Nat.zero_add]
  rfl

/-- The relay message option around the bytes of a message. -/
def relayField (inner : List UInt8) : Tlv := ⟨D6O_RELAY_MSG.toNat, inner⟩

/-- The same with a relay message behind them, for a caller that asks for it. -/
theorem unpackOptions6_relay {inner : List UInt8} (hinner : inner.length < 65536) :
    unpackOptions6 defs (wireAll c.entries ++ (relayField inner).encode 2) (some (0, 0)) =
      .ok {
        offset := (wireAll c.entries).length + (4 + inner.length), options := c
        relayMsg := some ((wireAll c.entries).length + 4, inner.length) } := by
  have hfield : (relayField inner).Fits 2 := ⟨D6O_RELAY_MSG.toNat_lt, hinner⟩
  have hlength : ((relayField inner).encode 2).length = 4 + inner.length := length_encode ..
  let buf := wireAll c.entries ++ (relayField inner).encode 2
  let s : Unpacking6 :=
    { offset := (wireAll c.entries).length, options := c, relayMsg := some (0, 0) }
  have htake : takeField 2 (buf.drop s.offset) = some (relayField inner, []) := by
    have h := takeField_encode hfield []
    rw [append_nil] at h
    rw [drop_left, h]
  have hround : unpackOption6 defs buf s = .ok (.inl {
      s with
      offset := (wireAll c.entries).length + 4 + inner.length
      relayMsg := some ((wireAll c.entries).length + 4, inner.length) }) := by
    have hcode : UInt16.ofNat (relayField inner).type = D6O_RELAY_MSG := UInt16.ofNat_toNat
    rw [unpackOption6_field htake]
    unfold unpackField6
    rfl
  have hmore : (optionsLoop6 defs buf).cond s := by
    rw [optionsLoop6_cond, length_append]
    exact decide_eq_true (show (wireAll c.entries).length < _ by omega)
  unfold unpackOptions6
  rw [run_options h hfits rfl, foldl_insert, Nat.zero_add, run_next hmore hround,
    run_exit (by rw [optionsLoop6_cond, length_append]; simp; omega)]
  rw [Nat.add_assoc]
  rfl

end

end Reading

/-! ## Vendor options -/

/-- The sub-options of a vendor that has no definitions for them. -/
def VendorGeneric (found : UInt16 → List OptionDefinition) (o : DhcpOption) : Prop :=
  ∃ type data, o = .generic .v6 type data [] ∧ found type = []

theorem run_vendorOptions {found : UInt16 → List OptionDefinition} {u : Unpacking}
    (h : ∀ o ∈ os, VendorGeneric found o) (hfits : (wireAll os).length < 65536)
    (hdrop : buf.drop u.offset = wireAll os ++ rest) :
    (vendorLoop6 found buf).run u = (vendorLoop6 found buf).run {
      offset := u.offset + (wireAll os).length
      options := os.foldl insert u.options } := by
  induction os generalizing u with
  | nil => rfl
  | cons o os ih =>
    obtain ⟨type, data, rfl, hfound⟩ := h o mem_cons_self
    have hwire := (written_generic6 type data).wire_eq
    have hlength := (written_generic6 type data).wire_length
    rw [wireAll_cons, length_append] at hfits
    rw [wireAll_cons, append_assoc] at hdrop
    have htake : takeField 2 (buf.drop u.offset) = some (⟨type.toNat, data⟩, wireAll os ++ rest) := by
      rw [hdrop, hwire]
      exact takeField_encode ⟨type.toNat_lt, show data.length < 65536 by omega⟩ _
    have hinside := (readsField htake).inside
    have hround : unpackVendorOption6 found buf u = .ok (.inl {
        offset := u.offset + (generic .v6 type data []).wire.length
        options := u.options.insert (.generic .v6 type data []) }) := by
      rw [unpackVendorOption6_field htake, hlength, ← Nat.add_assoc]
      rw [UInt16.ofNat_toNat, hfound]
      rfl
    have hmore : (vendorLoop6 found buf).cond u :=
      decide_eq_true (show u.offset < buf.length by omega)
    rw [run_next hmore hround, ih (fun o ho => h o (mem_cons_of_mem _ ho)) (by omega)
      (drop_add_length hdrop)]
    simp [wireAll_cons, Nat.add_assoc]

/-- The option of a vendor without definitions comes back as well. -/
theorem vendor_recovered {vendorId : UInt32}
    (h : ∀ o ∈ c.entries, VendorGeneric (defs.vendor vendorId) o)
    (hfits : (wireAll c.entries).length < 65536) : (vendor vendorId c.entries).Recovered defs := by
  have hsub : AllWritten c.entries := by
    intro o ho
    obtain ⟨type, data, rfl, -⟩ := h o ho
    exact ⟨data, written_generic6 type data⟩
  have hlen : (vendor vendorId c.entries).len =
      ofNat (4 + (netBytes 4 vendorId.toNat ++ wireAll c.entries).length) := by
    rw [len, lenEach_eq hsub, length_append, ← Nat.add_assoc]
    rfl
  refine ⟨netBytes 4 vendorId.toNat ++ wireAll c.entries, ⟨?_, hlen⟩, ?_⟩
  · rw [pack, hlen, packHeader6, packAll6_eq hsub, writeUint32_eq]
    simp [encode, except_ok_bind, getType]
  have htype : (vendor vendorId c.entries).getType = D6O_VENDOR_OPTS := rfl
  have hnumber : (netBytes 4 vendorId.toNat ++ wireAll c.entries).drop 0 =
      netBytes 4 vendorId.toNat ++ wireAll c.entries := rfl
  have hbehind := drop_add_length hnumber
  rw [length_netBytes] at hbehind
  have hwhole : (wireAll c.entries).drop 0 = wireAll c.entries ++ [] := (append_nil _).symm
  have hcopy := copyRange_of_drop (by simp) (hbehind.trans hwhole)
  unfold readOption6 unpackVendor
  rw [if_pos htype, if_neg (by simp), readUint32_of_drop hnumber, except_ok_bind,
    UInt32.ofNat_toNat, length_append, length_netBytes, Nat.add_sub_cancel_left, hcopy,
    except_ok_bind]
  unfold unpackVendorOptions6
  rw [run_vendorOptions h hfits hwhole, foldl_insert,
    run_exit (by simp [vendorLoop6, scan])]
  rfl

end Dhcp
