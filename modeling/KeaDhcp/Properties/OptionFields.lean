import KeaDhcp.Infra.Tlv
import KeaDhcp.Dhcp.Pkt6

/-!
# Options as fields

The loops that read options take fields off the rest of the buffer, one in each round. With this the
loops are described without positions.
-/

namespace Dhcp

open Infra UInt16 List

variable {buf rest : List UInt8} {offset : Nat}

/-! ## Reading from the rest of a buffer -/

variable {byte : UInt8} {bytes : List UInt8} {n : Nat}

theorem drop_add_length (h : buf.drop offset = bytes ++ rest) :
    buf.drop (offset + bytes.length) = rest := by
  rw [← drop_drop, h, drop_left]

theorem readUint8_of_drop (h : buf.drop offset = byte :: rest) :
    readUint8 buf offset = .ok byte := by
  have hget : buf[offset]? = some byte := by
    have hzero : (buf.drop offset)[0]? = some byte := by rw [h]; rfl
    rwa [getElem?_drop, Nat.add_zero] at hzero
  unfold readUint8
  rw [hget]

theorem drop_succ (h : buf.drop offset = byte :: rest) : buf.drop (offset + 1) = rest := by
  have hbytes : buf.drop offset = [byte] ++ rest := h
  exact drop_add_length hbytes

theorem copyRange_of_drop (hoffset : offset ≤ buf.length) (h : buf.drop offset = bytes ++ rest) :
    copyRange buf offset bytes.length = .ok bytes := by
  have hlength : buf.length - offset = bytes.length + rest.length := by
    rw [← length_drop, h, length_append]
  unfold copyRange
  rw [if_pos (by omega), h, take_left]

/-! ## Numbers -/

theorem toUInt16_bytes :
    (UInt8.ofNat (n / 256)).toUInt16 <<< 8 ||| (UInt8.ofNat n).toUInt16 = ofNat n := by
  apply UInt16.toNat_inj.mp
  have hor : (n / 256 % 256) <<< 8 ||| n % 256 = (n / 256 % 256) <<< 8 + n % 256 :=
    (Nat.shiftLeft_add_eq_or_of_lt (by omega) _).symm
  have hlt : (n / 256 % 256) <<< 8 < 65536 := by
    omega
  simp only [UInt16.toNat_or, UInt16.toNat_shiftLeft, UInt8.toNat_toUInt16, UInt8.toNat_ofNat',
    UInt16.toNat_ofNat', UInt16.reduceToNat, Nat.reducePow, Nat.mod_eq_of_lt hlt]
  omega

theorem shiftLeft_or_bytes {a : Nat} {b c d : Nat} (hb : b < 256) (hc : c < 256) (hd : d < 256) :
    a <<< 24 ||| b <<< 16 ||| c <<< 8 ||| d = a * 256 ^ 3 + b * 256 ^ 2 + c * 256 + d := by
  have hab : a <<< 24 ||| b <<< 16 = (a * 256 + b) <<< 16 := by
    rw [← Nat.shiftLeft_add_eq_or_of_lt (by rw [Nat.shiftLeft_eq]; omega)]
    omega
  have habc : (a * 256 + b) <<< 16 ||| c <<< 8 = ((a * 256 + b) * 256 + c) <<< 8 := by
    rw [← Nat.shiftLeft_add_eq_or_of_lt (by rw [Nat.shiftLeft_eq]; omega)]
    omega
  rw [hab, habc, ← Nat.shiftLeft_add_eq_or_of_lt hd]
  omega

theorem toUInt32_bytes :
    (UInt8.ofNat (n / 256 ^ 3)).toUInt32 <<< 24 ||| (UInt8.ofNat (n / 256 ^ 2)).toUInt32 <<< 16 |||
      (UInt8.ofNat (n / 256)).toUInt32 <<< 8 ||| (UInt8.ofNat n).toUInt32 = UInt32.ofNat n := by
  apply UInt32.toNat_inj.mp
  have hlt (m k : Nat) (hk : k ≤ 24) : (m % 256) <<< k < 4294967296 := by
    have hpow : 2 ^ k ≤ 2 ^ 24 := Nat.pow_le_pow_right (by decide) hk
    calc (m % 256) <<< k = m % 256 * 2 ^ k := Nat.shiftLeft_eq ..
      _ ≤ 255 * 2 ^ 24 := Nat.mul_le_mul (by omega) hpow
      _ < 4294967296 := by decide
  simp only [UInt32.toNat_or, UInt32.toNat_shiftLeft, UInt8.toNat_toUInt32, UInt8.toNat_ofNat',
    UInt32.toNat_ofNat', UInt32.reduceToNat,
    Nat.mod_eq_of_lt (hlt _ 24 (by omega)), Nat.mod_eq_of_lt (hlt _ 16 (by omega)),
    Nat.mod_eq_of_lt (hlt _ 8 (by omega))]
  rw [shiftLeft_or_bytes (by omega) (by omega) (by omega)]
  omega

theorem readUint16_of_drop (h : buf.drop offset = netBytes 2 n ++ rest) :
    readUint16 buf offset = .ok (ofNat n) := by
  have hhigh : buf.drop offset = UInt8.ofNat (n / 256) :: (UInt8.ofNat n :: rest) := by
    simpa [netBytes] using h
  unfold readUint16
  rw [readUint8_of_drop hhigh, readUint8_of_drop (drop_succ hhigh)]
  exact congrArg Except.ok toUInt16_bytes

theorem readUint32_of_drop (h : buf.drop offset = netBytes 4 n ++ rest) :
    readUint32 buf offset = .ok (UInt32.ofNat n) := by
  have hbyte : buf.drop offset = UInt8.ofNat (n / 256 ^ 3) :: (UInt8.ofNat (n / 256 ^ 2) ::
      (UInt8.ofNat (n / 256) :: (UInt8.ofNat n :: rest))) := by
    simpa [netBytes] using h
  have hbyte₁ := drop_succ hbyte
  have hbyte₂ := drop_succ hbyte₁
  unfold readUint32
  rw [readUint8_of_drop hbyte, readUint8_of_drop hbyte₁, readUint8_of_drop hbyte₂,
    readUint8_of_drop (drop_succ hbyte₂)]
  exact congrArg Except.ok toUInt32_bytes

theorem writeUint16_eq {value : UInt16} : writeUint16 value = netBytes 2 value.toNat := by
  have hhigh : (value >>> 8).toUInt8 = UInt8.ofNat (value.toNat / 256) := by
    apply UInt8.toNat_inj.mp
    simp [Nat.shiftRight_eq_div_pow]
  have hlow : value.toUInt8 = UInt8.ofNat value.toNat := by
    simp
  rw [writeUint16, hhigh]
  simp [netBytes]

theorem writeUint32_eq {value : UInt32} : writeUint32 value = netBytes 4 value.toNat := by
  have hbyte (k : UInt32) (n : Nat) (h : (value >>> k).toNat = value.toNat / n) :
      (value >>> k).toUInt8 = UInt8.ofNat (value.toNat / n) := by
    apply UInt8.toNat_inj.mp
    rw [UInt32.toNat_toUInt8, h, UInt8.toNat_ofNat']
  have hlast : value.toUInt8 = UInt8.ofNat value.toNat := by
    simp
  rw [writeUint32, hbyte 24 (256 ^ 3) (by simp [Nat.shiftRight_eq_div_pow]),
    hbyte 16 (256 ^ 2) (by simp [Nat.shiftRight_eq_div_pow]),
    hbyte 8 256 (by simp [Nat.shiftRight_eq_div_pow])]
  simp [netBytes]

/-! ## DHCPv6: one round -/

/-- The header of a field and the value behind it, as the loops read them. -/
structure ReadsField (buf : List UInt8) (offset : Nat) (f : Tlv) : Prop where
  type : readUint16 buf offset = .ok (ofNat f.type)
  length : readUint16 buf (offset + 2) = .ok (ofNat f.value.length)
  toNat_length : (ofNat f.value.length).toNat = f.value.length
  inside : offset + 4 + f.value.length ≤ buf.length
  value : copyRange buf (offset + 4) f.value.length = .ok f.value

/-- The loops read the field that stands in the buffer. -/
theorem readsField {f : Tlv} (h : takeField 2 (buf.drop offset) = some (f, rest)) :
    ReadsField buf offset f := by
  obtain ⟨hfits, hdrop⟩ := takeField_eq_some h
  rw [Tlv.encode, append_assoc, append_assoc] at hdrop
  have hlength := drop_add_length hdrop
  have hvalue := drop_add_length hlength
  have hinside : buf.length - offset = 4 + f.value.length + rest.length := by
    rw [← length_drop, hdrop]
    simp
    omega
  exact {
    type := readUint16_of_drop hdrop
    length := readUint16_of_drop hlength
    toNat_length := by
      exact Nat.mod_eq_of_lt hfits.length
    inside := by omega
    value := copyRange_of_drop (by omega) hvalue }

/-- Without a whole field the buffer is too short for its header, or for the value. -/
theorem reads_truncated (h : takeField 2 (buf.drop offset) = none) :
    offset + 4 > buf.length ∨ ∃ type length : UInt16, readUint16 buf offset = .ok type ∧
      readUint16 buf (offset + 2) = .ok length ∧ offset + 4 + length.toNat > buf.length := by
  obtain ⟨hshort, -⟩ | ⟨type, length, behind, -, hlength, hdrop, htake⟩ :=
    takeField_cases 2 (buf.drop offset)
  · rw [length_drop] at hshort
    exact .inl (by omega)
  rw [htake] at h
  have hbehind : behind.length < length := by
    by_contra hge
    rw [if_neg hge] at h
    cases h
  have hsize : buf.length - offset = 4 + behind.length := by
    rw [← length_drop, hdrop]
    simp
    omega
  have hrest := drop_add_length hdrop
  have hsame : (ofNat length).toNat = length := by
    exact Nat.mod_eq_of_lt hlength
  exact .inr ⟨_, _, readUint16_of_drop hdrop, readUint16_of_drop hrest, by omega⟩

variable {defs : OptionDefs} {s : Unpacking6}

/-- The rest is ignored when it is too short for a field. -/
theorem unpackOption6_truncated (h : takeField 2 (buf.drop s.offset) = none) :
    unpackOption6 defs buf s = .ok (.inr s) := by
  unfold unpackOption6
  obtain hshort | ⟨type, length, htype, hlength, hlong⟩ := reads_truncated h
  · rw [if_pos hshort]
  split
  · rfl
  rw [htype, hlength]
  simp only [except_ok_bind, if_pos hlong]
  rfl

/-- The option that is made of a field. -/
def readOption6 (defs : OptionDefs) (code : UInt16) (value : List UInt8) :
    Except PacketError DhcpOption :=
  if code = D6O_VENDOR_OPTS then unpackVendor defs value
  else createOption .v6 (defs.lookup code) code value

/-- What one round does with a field. -/
def unpackField6 (defs : OptionDefs) (length : Nat) (s : Unpacking6) (f : Tlv) :
    Except PacketError (Unpacking6 ⊕ Unpacking6) :=
  let code := ofNat f.type
  if code = D6O_RELAY_MSG ∧ s.relayMsg.isSome then
    .ok (.inl { s with
      offset := s.offset + 4 + f.value.length, relayMsg := some (s.offset + 4, f.value.length) })
  else if code = D6O_VENDOR_OPTS ∧ s.offset + 8 > length then .ok (.inr s)
  else do
    let option ← readOption6 defs code f.value
    return .inl {
      s with offset := s.offset + 4 + f.value.length, options := s.options.insert option }

theorem unpackOption6_field {f : Tlv} (h : takeField 2 (buf.drop s.offset) = some (f, rest)) :
    unpackOption6 defs buf s = unpackField6 defs buf.length s f := by
  have hreads := readsField h
  have hinside := hreads.inside
  unfold unpackOption6 unpackField6 readOption6
  rw [if_neg (by omega), hreads.type, hreads.length]
  simp only [except_ok_bind, hreads.toNat_length, hreads.value]
  rw [if_neg (by omega)]
  split
  · rfl
  by_cases hvendor : ofNat f.type = D6O_VENDOR_OPTS
  · simp only [hvendor, true_and]
    rfl
  · simp only [hvendor, if_false, false_and]

/-! ## Vendor options: one round -/

variable {vendorDefs : UInt16 → List OptionDefinition} {u : Unpacking}

/-- Here a rest that is too short for a field is an error. -/
theorem unpackVendorOption6_truncated (h : takeField 2 (buf.drop u.offset) = none) :
    ∃ text, unpackVendorOption6 vendorDefs buf u = .error (.skipRemainingOptions text) := by
  unfold unpackVendorOption6
  obtain hshort | ⟨type, length, htype, hlength, hlong⟩ := reads_truncated h
  · exact ⟨_, if_pos hshort⟩
  split
  · exact ⟨_, rfl⟩
  rw [htype, hlength]
  simp only [except_ok_bind, if_pos hlong]
  exact ⟨_, rfl⟩

theorem unpackVendorOption6_field {f : Tlv} (h : takeField 2 (buf.drop u.offset) = some (f, rest)) :
    unpackVendorOption6 vendorDefs buf u = (do
      let option ← createOption .v6 (vendorDefs (ofNat f.type)) (ofNat f.type) f.value
      return .inl {
        offset := u.offset + 4 + f.value.length, options := u.options.insert option }) := by
  have hreads := readsField h
  have hinside := hreads.inside
  unfold unpackVendorOption6
  rw [if_neg (by omega), hreads.type, hreads.length]
  simp only [except_ok_bind, hreads.toNat_length, hreads.value]
  rw [if_neg (by omega)]

end Dhcp
