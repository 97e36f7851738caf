import KeaDhcp.Dhcp.Pkt6

/-!
# Typed option data

`src/lib/dhcp/option_data_types.cc`: prefixes, port sets and tuples in the data of options, and what
`OptionCustom::bufferLength` takes each of them to occupy. An error is the text of a
`BadDataTypeCast`; the writers return the bytes that they append.
-/

namespace Dhcp

open Infra List

/-! ## Prefixes -/

section Prefixes

variable (prefixLen : UInt8) (bytes : List UInt8)

def zeroPaddedBits : Nat := (8 - prefixLen.toNat % 8) % 8

def prefixLenBytes : Nat := prefixLen.toNat / 8 + if zeroPaddedBits prefixLen > 0 then 1 else 0

/-- The bytes that the prefix reaches into, with the padding of the last one. -/
def prefixBytes : List UInt8 :=
  let bytes := bytes.take (prefixLenBytes prefixLen)
  let bits := UInt8.ofNat (zeroPaddedBits prefixLen)
  if zeroPaddedBits prefixLen ≠ 0 then
    bytes.modify (prefixLenBytes prefixLen - 1) fun byte => byte >>> bits <<< bits
  else bytes

/-- `IOAddress::fromBytes`, of the first 16 bytes. -/
def addressOf : Address 128 := BitVec.ofNat 128 (netValue (bytes.take V6ADDRESS_LEN))

/-- The length may exceed 128: `PrefixLen` does not check it. -/
def readPrefix : OptionBuffer → Except String (UInt8 × Address 128)
  | [] => .error "unable to read prefix length from a truncated buffer"
  | prefixLen :: rest =>
    let lenBytes := prefixLenBytes prefixLen
    if rest.length < lenBytes then
      .error s!"unable to read a prefix having length of {prefixLen.toNat} from a truncated buffer"
    else if rest = [] then .ok (prefixLen, 0)
    else
      let resized := rest ++ replicate (V6ADDRESS_LEN - rest.length) 0
      .ok (prefixLen, addressOf (
        if rest.length < V6ADDRESS_LEN ∧ lenBytes < V6ADDRESS_LEN then
          prefixBytes prefixLen resized ++ replicate (V6ADDRESS_LEN - lenBytes) 0
        else resized))

def writePrefix (addr : Address 128) : List UInt8 :=
  prefixLen :: prefixBytes prefixLen (addressToBytes addr)

end Prefixes

/-! ## Port sets -/

def readPsid : OptionBuffer → Except String (Nat × Nat)
  | psidLen :: high :: low :: _ =>
    let psidLen := psidLen.toNat
    let psid := netValue [high, low]
    if psidLen > 16 then
      .error s!"invalid PSID length value {psidLen}, this value is expected to be in range of 0 to 16"
    else if psidLen > 0 ∧ psid &&& (0xFFFF <<< psidLen % 2 ^ 16) >>> psidLen ≠ 0 then
      .error s!"invalid PSID value {psid} for a specified PSID length {psidLen}"
    -- A shift by 0 is taken for one by 16.
    else .ok (psidLen, if psidLen = 16 then 0 else psid >>> (16 - psidLen))
  | buf => .error (s!"unable to read PSID from the buffer. Invalid buffer size {buf.length}" ++
      ". Expected 3 bytes (PSID length and PSID value)")

def writePsid (psidLen psid : Nat) : Except String (List UInt8) :=
  if psidLen > 16 then
    .error s!"invalid PSID length value {psidLen}, this value is expected to be in range of 0 to 16"
  else if psidLen > 0 ∧ psid > 0xFFFF >>> (16 - psidLen) then
    .error s!"invalid PSID value {psid} for a specified PSID length {psidLen}"
  else .ok (UInt8.ofNat psidLen :: netBytes 2 (psid <<< (16 - psidLen) % 2 ^ 16))

/-! ## Tuples -/

inductive LengthFieldType where
  | length1Byte | length2Bytes

namespace LengthFieldType

def size : LengthFieldType → Nat
  | length1Byte => 1
  | length2Bytes => 2

/-- The largest length as the message has it: that of one byte is printed as a character. -/
def maxText : LengthFieldType → String
  | length1Byte => "\xff"
  | length2Bytes => "65535"

end LengthFieldType

variable (t : LengthFieldType)

def readTuple (buf : OptionBuffer) : Except String (List UInt8) :=
  if buf.length < t.size then
    .error s!"unable to read data from the buffer as tuple (length). Invalid buffer size: {buf.length}"
  else
    let len := netValue (buf.take t.size)
    if buf.length < t.size + len then
      .error (s!"unable to read data from the buffer as tuple (length {len})" ++
        s!". Invalid buffer size: {buf.length}")
    else .ok ((buf.drop t.size).take len)

def writeTuple (value : List UInt8) : Except String (List UInt8) :=
  if value.length > 256 ^ t.size - 1 then
    .error s!"invalid tuple value (size {value.length} larger than {t.maxText})"
  else .ok (netBytes t.size value.length ++ value)

/-! ## The bytes that a value in the buffer occupies, outside of arrays -/

def psidLength : Nat := 3

def prefixLength (buf : OptionBuffer) : Except String Nat :=
  if buf = [] then .ok 0 else do return 1 + ((← readPrefix buf).1.toNat + 7) / 8

def tupleLength (buf : OptionBuffer) : Except String Nat := do
  return (← readTuple t buf).length + t.size

/-! ## What is read -/

variable (bytes : List UInt8) {prefixLen : UInt8} {rest : List UInt8}

/-- The bits from `len` on are cleared. -/
def clearBeyond (len : Nat) (addr : Address 128) : Address 128 := addr >>> (128 - len) <<< (128 - len)

theorem getMsbD_clearBeyond (len : Nat) (addr : Address 128) (i : Nat) :
    (clearBeyond len addr).getMsbD i = (decide (i < len) && addr.getMsbD i) := by
  unfold clearBeyond
  by_cases hi : i < 128
  · have hiff : i + (128 - len) < 128 ↔ i < len := by omega
    simp [hiff]
  · simp [BitVec.getMsbD_of_ge _ _ (not_lt.mp hi)]

theorem clearBeyond_clearBeyond (len : Nat) (addr : Address 128) :
    clearBeyond len (clearBeyond len addr) = clearBeyond len addr := by
  refine BitVec.eq_of_getMsbD_eq fun i _ => ?_
  rw [getMsbD_clearBeyond, getMsbD_clearBeyond, Bool.and_self_left]

theorem getMsbD_addressOf {bytes : List UInt8} (h : V6ADDRESS_LEN ≤ bytes.length) (i : Nat) :
    (addressOf bytes).getMsbD i =
      (decide (i < 128) && (bytes[i / 8]?.getD 0).toNat.testBit (7 - i % 8)) := by
  have hlen : (bytes.take V6ADDRESS_LEN).length = 16 := by
    rw [length_take, Nat.min_eq_left h]
    rfl
  unfold addressOf BitVec.getMsbD
  by_cases hi : i < 128
  · have hbit := @testBit_netValue (bytes.take V6ADDRESS_LEN) i (by omega)
    rw [hlen, getElem?_take_of_lt (show i / 8 < V6ADDRESS_LEN by unfold V6ADDRESS_LEN; omega)] at hbit
    rw [BitVec.getLsbD_ofNat, ← hbit]
    simp [hi]
    omega
  · simp [hi]

theorem eight_mul_prefixLenBytes : zeroPaddedBits prefixLen < 8 ∧
    8 * prefixLenBytes prefixLen = prefixLen.toNat + zeroPaddedBits prefixLen := by
  unfold prefixLenBytes zeroPaddedBits
  split <;> omega

theorem length_prefixBytes :
    (prefixBytes prefixLen bytes).length = min (prefixLenBytes prefixLen) bytes.length := by
  unfold prefixBytes
  split <;> simp

theorem testBit_pad (byte : UInt8) {z j : Nat} (hz : z < 8) (hj : j < 8) :
    (byte >>> UInt8.ofNat z <<< UInt8.ofNat z).toNat.testBit j =
      (decide (z ≤ j) && byte.toNat.testBit j) := by
  have hshift : (UInt8.ofNat z).toNat % 8 = z := by
    rw [UInt8.toNat_ofNat']
    omega
  rw [UInt8.toNat_shiftLeft, UInt8.toNat_shiftRight, hshift, Nat.testBit_mod_two_pow,
    Nat.testBit_shiftLeft]
  by_cases hle : z ≤ j
  · simp [hj, Nat.add_sub_cancel' hle]
  · simp [hle]

theorem getD_append_zeros (k j : Nat) : (bytes ++ replicate k 0)[j]?.getD 0 = bytes[j]?.getD 0 := by
  by_cases hj : j < bytes.length
  · rw [getElem?_append_left hj]
  rw [getElem?_append_right (not_lt.mp hj), getElem?_eq_none (not_lt.mp hj),
    getElem?_replicate]
  split <;> rfl

/-- Of the bytes, the bits in front of the prefix length are left, with zeros behind them. -/
theorem testBit_prefixBytes (k i : Nat) :
    ((prefixBytes prefixLen bytes ++ replicate k 0)[i / 8]?.getD 0).toNat.testBit (7 - i % 8) =
      (decide (i < prefixLen.toNat) && (bytes[i / 8]?.getD 0).toNat.testBit (7 - i % 8)) := by
  obtain ⟨hz, hbytes⟩ := @eight_mul_prefixLenBytes prefixLen
  rw [getD_append_zeros]
  by_cases hi : i / 8 < min (prefixLenBytes prefixLen) bytes.length
  · unfold prefixBytes
    split
    · rw [getElem?_modify, getElem?_take_of_lt (by omega), getElem?_eq_getElem (by omega)]
      by_cases hlast : prefixLenBytes prefixLen - 1 = i / 8
      · have hiff : zeroPaddedBits prefixLen ≤ 7 - i % 8 ↔ i < prefixLen.toNat := by omega
        rw [Option.map_eq_map, Option.map_some, if_pos hlast, Option.getD_some, Option.getD_some,
          testBit_pad _ hz (by omega), decide_eq_decide.mpr hiff]
      · simp [hlast, show i < prefixLen.toNat by omega]
    · rw [getElem?_take_of_lt (by omega)]
      simp [show i < prefixLen.toNat by omega]
  · rw [getElem?_eq_none (by rw [length_prefixBytes]; omega)]
    by_cases hlen : bytes.length ≤ i / 8
    · simp [getElem?_eq_none hlen]
    · simp [show ¬ i < prefixLen.toNat by omega]

theorem prefixBytes_take :
    prefixBytes prefixLen (bytes.take ((prefixLen.toNat + 7) / 8)) = prefixBytes prefixLen bytes := by
  have hbytes : (prefixLen.toNat + 7) / 8 = prefixLenBytes prefixLen := by
    have := @eight_mul_prefixLenBytes prefixLen
    omega
  unfold prefixBytes
  rw [hbytes, take_take, Nat.min_self]

theorem addressOf_prefixBytes {k : Nat} (hk : V6ADDRESS_LEN ≤ (prefixBytes prefixLen bytes).length + k)
    {bytes' : List UInt8} (h : V6ADDRESS_LEN ≤ bytes'.length)
    (hbytes : ∀ j : Nat, bytes'[j]?.getD 0 = bytes[j]?.getD 0) :
    addressOf (prefixBytes prefixLen bytes ++ replicate k 0) =
      clearBeyond prefixLen.toNat (addressOf bytes') := by
  refine BitVec.eq_of_getMsbD_eq fun i _ => ?_
  rw [getMsbD_clearBeyond, getMsbD_addressOf h, getMsbD_addressOf (by simpa using hk),
    testBit_prefixBytes, hbytes, Bool.and_left_comm]

theorem readPrefix_eq (h : prefixLenBytes prefixLen ≤ rest.length) :
    readPrefix (prefixLen :: rest) = .ok (prefixLen,
      if rest.length < V6ADDRESS_LEN then
        clearBeyond prefixLen.toNat (addressOf (rest ++ replicate (V6ADDRESS_LEN - rest.length) 0))
      else addressOf rest) := by
  have hbytes := @eight_mul_prefixLenBytes prefixLen
  unfold readPrefix
  dsimp only
  rw [if_neg (Nat.not_lt.mpr h)]
  split
  · next hnil =>
    subst hnil
    have hzero : prefixLen.toNat = 0 := by
      rw [length_nil] at h
      omega
    rw [hzero]
    exact congrArg (fun addr => Except.ok (prefixLen, addr)) (by decide)
  · split
    · next hlt =>
      rw [if_pos hlt.1, addressOf_prefixBytes _ _ (by simp; omega) fun _ => rfl]
      rw [length_prefixBytes]
      simp
      omega
    · rw [if_neg (by omega), Nat.sub_eq_zero_of_le (by omega), replicate_zero, append_nil]

/-- The prefix that a length and the bytes that it reaches into stand for. -/
def canonicalPrefix (prefixLen : UInt8) (rest : List UInt8) : Address 128 :=
  addressOf (prefixBytes prefixLen (rest.take ((prefixLen.toNat + 7) / 8)) ++
    replicate V6ADDRESS_LEN 0)

theorem canonicalPrefix_eq {k : Nat} (hk : V6ADDRESS_LEN ≤ rest.length + k) :
    canonicalPrefix prefixLen rest =
      clearBeyond prefixLen.toNat (addressOf (rest ++ replicate k 0)) := by
  rw [canonicalPrefix, prefixBytes_take]
  exact addressOf_prefixBytes _ (Nat.le_add_left ..) (by simpa using hk) (getD_append_zeros rest k)

theorem clearBeyond_eq_self_iff {len : Nat} {addr : Address 128} :
    clearBeyond len addr = addr ↔ ∀ i, len ≤ i → addr.getMsbD i = false := by
  refine ⟨fun h i hi => ?_, fun hzero => BitVec.eq_of_getMsbD_eq fun i _ => ?_⟩
  · rw [← h, getMsbD_clearBeyond, decide_eq_false (Nat.not_lt.mpr hi), Bool.false_and]
  rw [getMsbD_clearBeyond]
  by_cases hi : i < len
  · rw [decide_eq_true hi, Bool.true_and]
  · rw [hzero i (not_lt.mp hi), Bool.and_false]

/-- The prefix that is read is the one of its own bytes if fewer than 16 bytes follow the length, and
otherwise only if the bits behind the prefix, which belong to the next field, are zero. -/
theorem readPrefix_canonical_iff {len : UInt8} {addr : Address 128}
    (h : readPrefix (prefixLen :: rest) = .ok (len, addr)) :
    len = prefixLen ∧
      (∀ i, prefixLen.toNat ≤ i → (canonicalPrefix prefixLen rest).getMsbD i = false) ∧
      (addr = canonicalPrefix prefixLen rest ↔ rest.length < V6ADDRESS_LEN ∨
        ∀ i, prefixLen.toNat ≤ i → (addressOf rest).getMsbD i = false) := by
  have hle : prefixLenBytes prefixLen ≤ rest.length := by
    by_contra hlt
    unfold readPrefix at h
    dsimp only at h
    rw [if_pos (Nat.lt_of_not_le hlt)] at h
    cases h
  rw [readPrefix_eq hle] at h
  cases h
  refine ⟨rfl, clearBeyond_eq_self_iff.mp ?_, ?_⟩
  · rw [canonicalPrefix_eq (Nat.le_add_left ..), clearBeyond_clearBeyond]
  split
  · next hlt => exact iff_of_true (canonicalPrefix_eq (by omega)).symm (.inl hlt)
  · next hge =>
    rw [or_iff_right hge, ← clearBeyond_eq_self_iff, @canonicalPrefix_eq _ _ 0 (by omega),
      replicate_zero, append_nil, eq_comm]

def longRecord : OptionBuffer := 8 :: 0x20 :: replicate 15 1

/-- The prefix of a record whose other fields follow it is not a canonical one. -/
theorem longRecord_prefix :
    ∃ addr, readPrefix longRecord = .ok (8, addr) ∧ addr.getMsbD 15 = true :=
  ⟨addressOf (0x20 :: replicate 15 1), rfl, by decide⟩

theorem shortRecord_prefix :
    ∃ addr, readPrefix [8, 0x20, 1] = .ok (8, addr) ∧ addr = canonicalPrefix 8 [0x20, 1] := by
  refine ⟨addressOf (0x20 :: replicate 15 0), by decide, ?_⟩
  have hread : readPrefix [8, 0x20, 1] = .ok (8, addressOf (0x20 :: replicate 15 0)) := by decide
  exact (readPrefix_canonical_iff hread).2.2.mpr (.inl (by decide))

/-! ## What is written is read back -/

theorem addressOf_addressToBytes (addr : Address 128) : addressOf (addressToBytes addr) = addr := by
  unfold addressOf addressToBytes
  rw [take_of_length_le (by rw [length_netBytes]), netValue_netBytes addr.isLt, BitVec.ofNat_toNat,
    BitVec.setWidth_eq]

theorem length_prefixBytes_address (hlen : prefixLen.toNat ≤ 128) (addr : Address 128) :
    (prefixBytes prefixLen (addressToBytes addr)).length = prefixLenBytes prefixLen := by
  have hbytes := @eight_mul_prefixLenBytes prefixLen
  rw [length_prefixBytes, addressToBytes, length_netBytes]
  unfold V6ADDRESS_LEN
  omega

theorem readPrefix_writePrefix (hlen : prefixLen.toNat ≤ 128) (addr : Address 128) :
    readPrefix (writePrefix prefixLen addr) = .ok (prefixLen, clearBeyond prefixLen.toNat addr) := by
  have hlength := length_prefixBytes_address hlen addr
  have hread : addressOf (prefixBytes prefixLen (addressToBytes addr) ++
      replicate (V6ADDRESS_LEN - prefixLenBytes prefixLen) 0) = clearBeyond prefixLen.toNat addr := by
    rw [addressOf_prefixBytes _ (by omega) (by simp [addressToBytes]) fun _ => rfl,
      addressOf_addressToBytes]
  unfold writePrefix
  rw [readPrefix_eq hlength.ge, hlength]
  split
  · rw [hread, clearBeyond_clearBeyond]
  · rw [← hread, Nat.sub_eq_zero_of_le (by omega), replicate_zero, append_nil]

theorem readPsid_writePsid {psidLen psid : Nat} (hlen : psidLen ≤ 16) (hpsid : psid < 2 ^ psidLen) :
    ∃ bytes, writePsid psidLen psid = .ok bytes ∧ bytes.length = 3 ∧
      (readPsid bytes = .ok (psidLen, psid) ↔ psidLen < 16 ∨ psid = 0) := by
  have hmax : ∀ n ≤ 16, 0xFFFF >>> (16 - n) = 2 ^ n - 1 := by decide
  have hmask : ∀ n ≤ 16, (0xFFFF <<< n % 2 ^ 16) >>> n = 2 ^ (16 - n) - 1 := by decide
  have hshift : psid <<< (16 - psidLen) < 2 ^ 16 := by
    rw [Nat.shiftLeft_eq, ← Nat.add_sub_cancel' hlen, Nat.pow_add, Nat.add_sub_cancel_left]
    exact Nat.mul_lt_mul_of_pos_right hpsid (Nat.two_pow_pos _)
  refine ⟨UInt8.ofNat psidLen :: netBytes 2 (psid <<< (16 - psidLen)), ?_, by simp, ?_⟩
  · unfold writePsid
    rw [if_neg (by omega), hmax _ hlen, if_neg (by omega), Nat.mod_eq_of_lt hshift]
  have hvalue := netValue_netBytes (w := 2) hshift
  unfold netBytes netBytes netBytes at hvalue ⊢
  unfold readPsid
  dsimp only
  rw [hvalue, UInt8.toNat_ofNat', Nat.mod_eq_of_lt (by omega : psidLen < 2 ^ 8),
    if_neg (by omega), hmask _ hlen, if_neg (by simp [Nat.shiftLeft_eq])]
  split
  · rw [Except.ok.injEq, Prod.mk.injEq, or_iff_right (by omega)]
    exact ⟨fun h => h.2.symm, fun h => ⟨rfl, h.symm⟩⟩
  · exact iff_of_true (by rw [Nat.shiftLeft_shiftRight]) (.inl (by omega))

theorem readTuple_writeTuple {value : List UInt8} (h : value.length < 256 ^ t.size) :
    ∃ bytes, writeTuple t value = .ok bytes ∧ bytes.length = value.length + t.size ∧
      readTuple t bytes = .ok value := by
  refine ⟨_, if_neg (by omega), by simp [Nat.add_comm], ?_⟩
  unfold readTuple
  rw [take_left' (length_netBytes ..), netValue_netBytes h, length_append, length_netBytes,
    if_neg (by omega), if_neg (by omega), drop_left' (length_netBytes ..), take_length]

/-- What is written is read back, and the bytes that it occupies are those that were written, except
for the port sets of 16 bits: their number is read as zero. -/
theorem typed_data_read_back (prefixLen : UInt8) (addr : Address 128) (psidLen psid : Nat)
    (t : LengthFieldType) (value : List UInt8) :
    (prefixLen.toNat ≤ 128 →
      readPrefix (writePrefix prefixLen addr) = .ok (prefixLen, clearBeyond prefixLen.toNat addr) ∧
      prefixLength (writePrefix prefixLen addr) = .ok (writePrefix prefixLen addr).length) ∧
    (psidLen ≤ 16 → psid < 2 ^ psidLen →
      ∃ bytes, writePsid psidLen psid = .ok bytes ∧ bytes.length = psidLength ∧
        (readPsid bytes = .ok (psidLen, psid) ↔ psidLen < 16 ∨ psid = 0)) ∧
    (value.length < 256 ^ t.size →
      ∃ bytes, writeTuple t value = .ok bytes ∧ readTuple t bytes = .ok value ∧
        tupleLength t bytes = .ok bytes.length) := by
  refine ⟨fun hlen => ?_, readPsid_writePsid, fun h => ?_⟩
  · have hread := readPrefix_writePrefix hlen addr
    have hbytes := @eight_mul_prefixLenBytes prefixLen
    refine ⟨hread, ?_⟩
    unfold prefixLength
    rw [hread]
    refine congrArg Except.ok ?_
    rw [writePrefix, length_cons, length_prefixBytes_address hlen]
    dsimp only
    omega
  · obtain ⟨bytes, hwrite, hlength, hread⟩ := readTuple_writeTuple t h
    refine ⟨bytes, hwrite, hread, ?_⟩
    unfold tupleLength
    rw [hread, hlength]
    rfl

theorem psid_lost : writePsid 16 1 = .ok [16, 0, 1] ∧ readPsid [16, 0, 1] = .ok (16, 0) := by decide

end Dhcp
