import Mathlib.Data.Option.Basic
import KeaDhcp.Dhcpsrv.CsvLeaseFile
import KeaDhcp.Dhcpsrv.LeaseFile

/-!
# Reading back the rows of lease files

A row that `append` writes is read by `next` as the same lease, without the timers T1 and T2, if
its expiration time fits into 32 bits and no value has a comma or a NUL in it. Otherwise it is not.
-/

namespace Dhcp

open Infra Util CSVLeaseFile4 CSVLeaseFile6 HWAddr StoredLease Option List

/-! ## The texts of the fields -/

/-- A hardware address that its text determines. -/
structure HWAddr.Convertible (h : HWAddr) : Prop where
  ethernet : h.htype = 1
  length_le : h.hwaddr.length ≤ MAX_HWADDR_LEN

theorem HWAddr.fromText_toText {h : HWAddr} (hconv : h.Convertible) :
    fromText h.toText = some h := by
  obtain ⟨htype, hlen⟩ := hconv
  obtain ⟨type, bytes⟩ := h
  subst htype
  simp [fromText, toText, decodeColonSeparatedHexString_bytesText, hlen]

theorem DUID.fromText_toText {d : DUID} (hlen : d.duid.length ≤ MAX_DUID_LEN) :
    fromText d.toText = some d := by
  have hne : d.duid ≠ [] := ne_nil_of_length_pos d.min_len
  simp [fromText, toText, decodeFormattedHexString_bytesText hne, d.min_len, hlen]

theorem ClientId.toText_ne_nil (c : ClientId) : c.toText ≠ [] :=
  bytesText_ne_nil (ne_nil_of_length_pos (Nat.lt_of_succ_lt c.min_len))

theorem ClientId.fromText_toText {c : ClientId} (hlen : c.clientid.length ≤ DUID.MAX_DUID_LEN) :
    fromText c.toText = some c := by
  have hne : c.clientid ≠ [] := ne_nil_of_length_pos (Nat.lt_of_succ_lt c.min_len)
  simp [fromText, toText, decodeFormattedHexString_bytesText hne, c.min_len, hlen]

variable {c : Option ClientId}

theorem CSVLeaseFile4.readClientId_getD (hlen : ∀ id ∈ c, id.clientid.length ≤ DUID.MAX_DUID_LEN) :
    readClientId ((c.map ClientId.toText).getD []) = some c := by
  cases c with
  | none => rfl
  | some id =>
    show readClientId id.toText = some (some id)
    rw [readClientId, if_neg id.toText_ne_nil, ClientId.fromText_toText (hlen id rfl)]
    rfl

theorem LeaseType.ofInt_toNat {t : LeaseType} : ofInt t.toNat = some t := by
  cases t <;> rfl

section Context

variable {Context : Type} (J : ContextText Context)

theorem readContext_getD {c : Option Context} : readContext J ((c.map J.str).getD []) = some c := by
  cases c with
  | none => rfl
  | some c =>
    show readContext J (J.str c) = some (some c)
    rw [readContext, if_neg (J.str_ne_nil c), J.fromJSON_str]
    rfl

/-- The text of a context that is not whole in its row is not read as that context. -/
theorem readContext_upTo {c : Context} (hbroken : ¬Whole (J.str c)) :
    readContext J (upTo ',' (writeAt (J.str c))) ≠ some (some c) := by
  unfold readContext
  split
  · simp
  rw [J.fromJSON_cut c _ upTo_writeAt_prefix (mt upTo_writeAt_eq_iff.mp hbroken)]
  simp

end Context

/-! ## The expiration time -/

theorem readUint32_intText {n : Int} (h : 0 ≤ n) :
    Util.readUint32 (intText n) = if n < 2 ^ 32 then some (UInt32.ofNat n.toNat) else none := by
  obtain ⟨n, rfl⟩ := Int.eq_ofNat_of_zero_le h
  show Util.readUint32 (natText n) = _
  rw [readUint32_natText]
  by_cases hlt : n < 2 ^ 32
  · rw [if_pos hlt, if_pos (by omega)]
    rfl
  · rw [if_neg hlt, if_neg (by omega)]

variable {validLft : UInt32}

theorem readCltt_expire {cltt : Int} (h0 : 0 ≤ cltt) (hlt : cltt + validLft.toNat < 2 ^ 32) :
    readCltt (intText (cltt + validLft.toNat)) (natText validLft.toNat) = some cltt := by
  obtain ⟨n, rfl⟩ := Int.eq_ofNat_of_zero_le h0
  have hsum : ((n : Int) + validLft.toNat).toNat = n + validLft.toNat := by omega
  have hsub : (UInt32.ofNat (n + validLft.toNat) - validLft).toNat = n := by
    rw [UInt32.ofNat_add, UInt32.ofNat_toNat, UInt32.add_sub_cancel]
    have hn : n < 2 ^ 32 := by omega
    exact UInt32.toNat_ofNat_of_lt' hn
  unfold readCltt
  rw [readUint32_intText (by omega), if_pos hlt, readUint32_toNat]
  show some (((UInt32.ofNat (n + validLft.toNat) - validLft).toNat : Nat) : Int) = some (n : Int)
  rw [hsub]

theorem readCltt_eq_none {expire : Int} {validLft : Text} (h : 2 ^ 32 ≤ expire) :
    readCltt (intText expire) validLft = none := by
  unfold readCltt
  rw [readUint32_intText (by omega), if_neg (by omega)]
  rfl

/-! ## Leases that the server stores -/

variable {v : Text}

namespace StoredLease

variable {w : Nat} {Context : Type}

structure Storable (l : StoredLease w Context) : Prop where
  cltt_nonneg : 0 ≤ l.cltt
  cltt_lt : l.cltt < (2 ^ 32 : Int)
  hostname : '\n' ∉ l.hostname
  hwaddr : ∀ h ∈ l.hwaddr, h.Convertible
  hwaddr_blank : ∀ h ∈ l.hwaddr, h.hwaddr = [] → l.state = STATE_DECLINED

/-- The values of a lease keep to their columns. -/
structure FitsRow (J : ContextText Context) (l : StoredLease w Context) : Prop where
  expire : l.expire < (2 ^ 32 : Int)
  hostname : Whole l.hostname
  context : ∀ c ∈ l.context, Whole (J.str c)

variable {l : StoredLease w Context} {J : ContextText Context}

theorem Storable.readCltt (h : l.Storable) (hfits : l.FitsRow J) :
    Dhcp.readCltt (intText l.expire) (natText l.validLft.toNat) = some l.cltt :=
  readCltt_expire h.cltt_nonneg hfits.expire

theorem newline_not_mem_context {c : Option Context} :
    '\n' ∉ (c.map J.str).getD [] := by
  cases c with
  | none => exact not_mem_nil
  | some c => exact J.newline_not_mem c

theorem FitsRow.whole_context (h : l.FitsRow J) : Whole ((l.context.map J.str).getD []) := by
  cases hc : l.context with
  | none => exact plain_nil.1
  | some c => exact h.context c hc

variable {cltt : Time}

theorem fitsRow_of_columns {validLft : Text}
    (hcltt : Dhcp.readCltt (intText l.expire) validLft = some cltt)
    (hhost : upTo ',' (writeAt l.hostname) = l.hostname) (hctx : Whole l.hostname →
      readContext J (upTo ',' (writeAt ((l.context.map J.str).getD []))) = some l.context) :
    l.FitsRow J := by
  have hwhole := upTo_writeAt_eq_iff.mp hhost
  refine ⟨?_, hwhole, ?_⟩
  · by_contra hlt
    rw [readCltt_eq_none (Int.not_lt.mp hlt)] at hcltt
    cases hcltt
  · intro c hc
    have hc' : l.context = some c := hc
    have hread := hctx hwhole
    rw [hc'] at hread
    by_contra hbroken
    exact readContext_upTo J hbroken hread

/-- The values of a row: the host name and the context stand among values that are plain. -/
structure RowOf (J : ContextText Context) (l : StoredLease w Context)
    (front middle values : List Text) : Prop where
  values_eq : values =
    front ++ writeAt l.hostname :: (middle ++ [writeAt ((l.context.map J.str).getD [])])
  front : ∀ v ∈ front, Plain v
  middle : ∀ v ∈ middle, Plain v

namespace RowOf

variable {front middle values : List Text}
  (h : RowOf J l front middle values)

include h

theorem of_mem (hv : v ∈ values) :
    Plain v ∨ v = writeAt l.hostname ∨ v = writeAt ((l.context.map J.str).getD []) := by
  rw [h.values_eq] at hv
  simp only [mem_append, mem_cons, not_mem_nil, or_false] at hv
  rcases hv with hv | hv | hv | hv
  · exact .inl (h.front v hv)
  · exact .inr (.inl hv)
  · exact .inl (h.middle v hv)
  · exact .inr (.inr hv)

theorem newline_not_mem (hl : l.Storable) (hv : v ∈ values) : '\n' ∉ v := by
  rcases h.of_mem hv with hplain | rfl | rfl
  · exact hplain.2
  · exact newline_not_mem_writeAt hl.hostname
  · exact newline_not_mem_writeAt newline_not_mem_context

theorem comma_not_mem (hfits : l.FitsRow J) (hv : v ∈ values) : ',' ∉ v := by
  rcases h.of_mem hv with hplain | rfl | rfl
  · exact hplain.1.1
  · rw [hfits.hostname.writeAt_eq]
    exact hfits.hostname.1
  · rw [hfits.whole_context.writeAt_eq]
    exact hfits.whole_context.1

/-- If the columns of the row are those of the lease, its values keep to them. -/
theorem fitsRow {i : Nat} (hi : front[i]? = some (intText l.expire)) {e vl t : Text}
    (he : (values.flatMap (splitOn ','))[i]? = some e) (hcltt : Dhcp.readCltt e vl = some cltt)
    (hhost : (values.flatMap (splitOn ','))[front.length]? = some l.hostname)
    (ht : (values.flatMap (splitOn ','))[front.length + 1 + middle.length]? = some t)
    (hctx : readContext J t = some l.context) : l.FitsRow J := by
  have hfront (u : Text) (hu : u ∈ front) : ',' ∉ u := (h.front u hu).1.1
  have hlt := (List.getElem?_eq_some_iff.mp hi).1
  obtain rfl := h.values_eq
  rw [getElem?_flatMap_splitOn (v := writeAt l.hostname) (by simp) (by simpa using hfront)] at hhost
  rw [getElem?_flatMap_splitOn ((getElem?_append_left hlt).trans hi) fun u hu =>
    hfront u (mem_of_mem_take ((take_append_of_le_length hlt.le) ▸ hu)),
    upTo_of_not_mem intText_plain.1.1] at he
  obtain rfl := some.inj he
  refine fitsRow_of_columns hcltt (some.inj hhost) fun hwhole => ?_
  rw [Nat.add_assoc, Nat.add_comm 1,
    getElem?_flatMap_splitOn (v := writeAt ((l.context.map J.str).getD [])) (by simp)] at ht
  · obtain rfl := some.inj ht
    exact hctx
  · simp only [take_length_add_append, take_succ_cons, take_left, mem_append, mem_cons]
    rintro u (hu | rfl | hu)
    exacts [hfront u hu, hwhole.writeAt_eq.symm ▸ hwhole.1, (h.middle u hu).1.1]

end RowOf

end StoredLease

/-! ## DHCPv4 -/

namespace StoredLease4

variable {Context : Type}

structure Storable (l : StoredLease4 Context) : Prop extends l.toStoredLease.Storable where
  hwaddr_isSome : l.hwaddr.isSome
  clientId : ∀ c ∈ l.clientId, c.clientid.length ≤ DUID.MAX_DUID_LEN

/-- The lease as it can come back: T1 and T2 are not written. -/
def withoutTimers (l : StoredLease4 Context) : StoredLease4 Context := { l with t1 := 0, t2 := 0 }

end StoredLease4

variable {rest : Text} {row : List Text}

namespace CSVLeaseFile4

variable {Context : Type} {A : AddressText 32} {J : ContextText Context}
  {l : StoredLease4 Context} {hw : HWAddr}

theorem clientIdText_plain : Plain ((c.map ClientId.toText).getD []) := by
  cases c with
  | none => exact plain_nil
  | some c => exact bytesText_plain

theorem plain_of_mem_take (h : v ∈ (values A J l hw).take 8) : Plain v := by
  simp only [values, take_succ_cons, take_zero, mem_cons, not_mem_nil,
    or_false] at h
  rcases h with rfl | rfl | rfl | rfl | rfl | rfl | rfl | rfl
  · exact (A.plain _).writeAt
  · exact bytesText_plain.writeAt
  · exact clientIdText_plain.writeAt
  · exact natText_plain _
  · exact intText_plain
  · exact natText_plain _
  all_goals exact boolText_plain _

theorem rowOf : RowOf J l.toStoredLease ((values A J l hw).take 8) [natText l.state.toNat]
    (values A J l hw) where
  values_eq := rfl
  front _ := plain_of_mem_take
  middle _ hv := mem_singleton.mp hv ▸ natText_plain _

theorem append_eq (hhw : l.hwaddr = some hw) :
    append A J l = some (appendLine (render (values A J l hw))) := by
  unfold append
  rw [hhw]
  rfl

/-- `next` sees the values of a row in the parts that their commas make. -/
theorem next_line (h : l.Storable) :
    next A J (appendLine (render (values A J l hw)) ++ rest) =
      (readLease A J ((values A J l hw).flatMap (splitOn ','))).map some := by
  have hne : values A J l hw ≠ [] := cons_ne_nil _ _
  unfold next
  rw [if_pos (newline_mem_appendLine _),
    parse_getline_render hne fun _ hv => rowOf.newline_not_mem h.toStorable hv]

theorem readLease_values (h : l.Storable) (hfits : l.FitsRow J) (hhw : l.hwaddr = some hw) :
    readLease A J (values A J l hw) = some l.withoutTimers := by
  have hblank : (guard (hw.hwaddr = [] → l.state = STATE_DECLINED) : Option Unit) = some () :=
    if_pos (h.hwaddr_blank hw hhw)
  simp [readLease, values, readAt, Column.ctorIdx, (A.plain l.addr).1.writeAt_eq,
    (show Plain hw.toText from bytesText_plain).1.writeAt_eq, clientIdText_plain.1.writeAt_eq,
    hfits.hostname.writeAt_eq, hfits.whole_context.writeAt_eq, readClientId_getD h.clientId,
    fromText_toText (h.hwaddr hw hhw), readUint32_toNat, hblank, readContext_getD,
    A.fromText_toText, h.readCltt hfits, readBool_boolText, StoredLease4.withoutTimers, hhw]

/-- **A row whose values keep to their columns comes back.** -/
theorem next_append (h : l.Storable) (hfits : l.FitsRow J) (rest : Text) :
    ∃ text, append A J l = some text ∧ next A J (text ++ rest) = some (some l.withoutTimers) := by
  obtain ⟨hw, hhw⟩ := isSome_iff_exists.mp h.hwaddr_isSome
  refine ⟨_, append_eq hhw, ?_⟩
  rw [next_line h, flatMap_splitOn fun _ hv => rowOf.comma_not_mem hfits hv,
    readLease_values h hfits hhw]
  rfl

/-- What a lease that was read has in common with its row. -/
theorem readLease_eq_some {r : StoredLease4 Context} (h : readLease A J row = some r) :
    (∃ e v, readAt row .expire = some e ∧ readCltt e v = some r.cltt) ∧
    readAt row .hostname = some r.hostname ∧
    ∃ t, readAt row .userContext = some t ∧ readContext J t = some r.context := by
  -- the client identifier, the hardware address and the state
  iterate 7 obtain ⟨_, -, h⟩ := bind_eq_some_iff.mp h
  obtain ⟨ctxText, hctxText, h⟩ := bind_eq_some_iff.mp h
  obtain ⟨ctx, hctx, h⟩ := bind_eq_some_iff.mp h
  iterate 4 obtain ⟨_, -, h⟩ := bind_eq_some_iff.mp h
  obtain ⟨e, he, h⟩ := bind_eq_some_iff.mp h
  obtain ⟨v, -, h⟩ := bind_eq_some_iff.mp h
  obtain ⟨cltt, hcltt, h⟩ := bind_eq_some_iff.mp h
  -- the subnet and the two flags
  iterate 6 obtain ⟨_, -, h⟩ := bind_eq_some_iff.mp h
  obtain ⟨host, hhost, h⟩ := bind_eq_some_iff.mp h
  cases h
  exact ⟨⟨e, v, he, hcltt⟩, hhost, ctxText, hctxText, hctx⟩

/-- **A row that comes back has values that keep to their columns.** -/
theorem fitsRow_of_next {text : Text} (h : l.Storable) (happend : append A J l = some text)
    (hnext : next A J (text ++ rest) = some (some l.withoutTimers)) : l.FitsRow J := by
  obtain ⟨hw, hhw⟩ := isSome_iff_exists.mp h.hwaddr_isSome
  rw [append_eq hhw] at happend
  cases happend
  rw [next_line h, map_eq_some_iff] at hnext
  obtain ⟨r, hread, hr⟩ := hnext
  obtain rfl := some.inj hr
  obtain ⟨⟨e, v, he, hcltt⟩, hhost, t, ht, hctx⟩ := readLease_eq_some hread
  exact rowOf.fitsRow rfl he hcltt hhost ht hctx

end CSVLeaseFile4

/-! ## DHCPv6 -/

namespace StoredLease6

variable {Context : Type}

structure Storable (l : StoredLease6 Context) : Prop extends l.toStoredLease.Storable where
  duid : l.duid.duid.length ≤ DUID.MAX_DUID_LEN
  duid_empty : l.duid = DUID.empty → l.state = STATE_DECLINED

def withoutTimers (l : StoredLease6 Context) : StoredLease6 Context := { l with t1 := 0, t2 := 0 }

end StoredLease6

namespace CSVLeaseFile6

variable {Context : Type} {A : AddressText 128} {J : ContextText Context} {l : StoredLease6 Context}
  {h : Option HWAddr}

theorem hwaddrText_plain : Plain ((h.map toText).getD []) := by
  cases h with
  | none => exact plain_nil
  | some h => exact bytesText_plain

theorem readHWAddr_getD (hconv : ∀ hw ∈ h, hw.Convertible) :
    readHWAddr (some ((h.map toText).getD [])) =
      h.filter fun hw => hw.hwaddr ≠ [] := by
  cases h with
  | none => rfl
  | some hw =>
    show (fromText hw.toText).filter _ = _
    rw [fromText_toText (hconv hw rfl)]

theorem plain_of_mem_take (h : v ∈ (values A J l).take 11) : Plain v := by
  simp only [values, take_succ_cons, take_zero, mem_cons, not_mem_nil,
    or_false] at h
  rcases h with rfl | rfl | rfl | rfl | rfl | rfl | rfl | rfl | rfl | rfl | rfl
  · exact (A.plain _).writeAt
  · exact bytesText_plain.writeAt
  · exact natText_plain _
  · exact intText_plain
  · exact natText_plain _
  · exact natText_plain _
  · exact natText_plain _
  · exact natText_plain _
  · exact natText_plain _
  all_goals exact boolText_plain _

theorem rowOf : RowOf J l.toStoredLease ((values A J l).take 11)
    [writeAt ((l.hwaddr.map toText).getD []), natText l.state.toNat] (values A J l) where
  values_eq := rfl
  front _ := plain_of_mem_take
  middle v hv := by
    rcases mem_pair.mp hv with rfl | rfl
    exacts [hwaddrText_plain.writeAt, natText_plain _]

theorem next_append_eq (h : l.Storable) :
    next A J (append A J l ++ rest) =
      (readLease A J ((values A J l).flatMap (splitOn ','))).map some := by
  have hne : values A J l ≠ [] := cons_ne_nil _ _
  unfold next append
  rw [if_pos (newline_mem_appendLine _),
    parse_getline_render hne fun _ hv => rowOf.newline_not_mem h.toStorable hv]

theorem readLease_values (h : l.Storable) (hfits : l.FitsRow J) :
    readLease A J (values A J l) =
      some { l.withoutTimers with hwaddr := l.hwaddr.filter fun hw => hw.hwaddr ≠ [] } := by
  have hempty : (guard (l.duid = DUID.empty → l.state = STATE_DECLINED) : Option Unit) = some () :=
    if_pos h.duid_empty
  have htype : readInt (natText l.type.toNat) = some (l.type.toNat : Int) :=
    readInt_natText (by cases l.type <;> decide)
  have hlen : readInt (natText l.prefixlen.toNat) = some (l.prefixlen.toNat : Int) :=
    readInt_natText (Nat.lt_trans l.prefixlen.toNat_lt (by decide))
  have hprefixlen : UInt8.ofInt (l.prefixlen.toNat : Int) = l.prefixlen := by
    have hmod : (l.prefixlen.toNat : Int) % 2 ^ 8 = l.prefixlen.toNat := by
      have := l.prefixlen.toNat_lt
      omega
    rw [UInt8.ofInt, hmod, Int.toNat_natCast, UInt8.ofNat_toNat]
  simp [readLease, values, readAt, Column.ctorIdx, (A.plain l.addr).1.writeAt_eq,
    (show Plain l.duid.toText from bytesText_plain).1.writeAt_eq, hwaddrText_plain.1.writeAt_eq,
    hfits.hostname.writeAt_eq, hfits.whole_context.writeAt_eq, htype, LeaseType.ofInt_toNat,
    A.fromText_toText, DUID.fromText_toText h.duid, readUint32_toNat, hlen, hprefixlen,
    h.readCltt hfits, readBool_boolText, hempty, readContext_getD, readHWAddr_getD h.hwaddr,
    StoredLease6.withoutTimers]

/-- **A row whose values keep to their columns comes back**, but for an empty hardware address. -/
theorem next_append (h : l.Storable) (hfits : l.FitsRow J) (rest : Text) :
    next A J (append A J l ++ rest) =
      some (some { l.withoutTimers with
        hwaddr := l.hwaddr.filter fun hw => hw.hwaddr ≠ [] }) := by
  rw [next_append_eq h, flatMap_splitOn fun _ hv => rowOf.comma_not_mem hfits hv,
    readLease_values h hfits]
  rfl

theorem readLease_eq_some {r : StoredLease6 Context} (h : readLease A J row = some r) :
    (∃ e v, readAt row .expire = some e ∧ readCltt e v = some r.cltt) ∧
    readAt row .hostname = some r.hostname ∧
    ∃ t, readAt row .userContext = some t ∧ readContext J t = some r.context := by
  -- the fields up to the prefix length
  iterate 17 obtain ⟨_, -, h⟩ := bind_eq_some_iff.mp h
  obtain ⟨e, he, h⟩ := bind_eq_some_iff.mp h
  obtain ⟨v, -, h⟩ := bind_eq_some_iff.mp h
  obtain ⟨cltt, hcltt, h⟩ := bind_eq_some_iff.mp h
  iterate 4 obtain ⟨_, -, h⟩ := bind_eq_some_iff.mp h
  obtain ⟨host, hhost, h⟩ := bind_eq_some_iff.mp h
  -- the state and the check of an empty DUID
  iterate 3 obtain ⟨_, -, h⟩ := bind_eq_some_iff.mp h
  obtain ⟨ctxText, hctxText, h⟩ := bind_eq_some_iff.mp h
  obtain ⟨ctx, hctx, h⟩ := bind_eq_some_iff.mp h
  cases h
  exact ⟨⟨e, v, he, hcltt⟩, hhost, ctxText, hctxText, hctx⟩

theorem fitsRow_of_next (h : l.Storable)
    (hnext : next A J (append A J l ++ rest) = some (some l.withoutTimers)) : l.FitsRow J := by
  rw [next_append_eq h, map_eq_some_iff] at hnext
  obtain ⟨r, hread, hr⟩ := hnext
  obtain rfl := some.inj hr
  obtain ⟨⟨e, v, he, hcltt⟩, hhost, t, ht, hctx⟩ := readLease_eq_some hread
  exact rowOf.fitsRow rfl he hcltt hhost ht hctx

/-- **Which rows come back.** -/
theorem next_append_iff (h : l.Storable) :
    next A J (append A J l ++ rest) = some (some l.withoutTimers) ↔
      l.FitsRow J ∧ ∀ hw ∈ l.hwaddr, hw.hwaddr ≠ [] := by
  constructor
  · intro hnext
    have hfits := fitsRow_of_next h hnext
    refine ⟨hfits, fun hw hhw => ?_⟩
    rw [next_append h hfits, some.injEq, some.injEq] at hnext
    have hfilter : l.hwaddr.filter (fun hw => hw.hwaddr ≠ []) = l.hwaddr :=
      congrArg (fun r => r.hwaddr) hnext
    rw [mem_def.mp hhw] at hfilter
    simpa using hfilter
  · rintro ⟨hfits, hblank⟩
    have hfilter : l.hwaddr.filter (fun hw => hw.hwaddr ≠ []) = l.hwaddr := by
      cases hhw : l.hwaddr with
      | none => rfl
      | some hw => simpa using hblank hw hhw
    rw [next_append h hfits, hfilter]
    rfl

end CSVLeaseFile6

/-! ## Both families -/

/-- **The rows that come back are those whose expiration time fits into 32 bits and whose host name
and context have no comma and no NUL.** A DHCPv6 lease must not have an empty hardware address
either. -/
theorem encodings_lossless_iff {Context : Type} (A4 : AddressText 32) (A6 : AddressText 128)
    (J : ContextText Context) (rest : Text) :
    (∀ l : StoredLease4 Context, l.Storable → ((∃ text, append A4 J l = some text ∧
          next A4 J (text ++ rest) = some (some l.withoutTimers)) ↔
        l.FitsRow J)) ∧ (∀ l : StoredLease6 Context, l.Storable →
      (next A6 J (append A6 J l ++ rest) =
          some (some l.withoutTimers) ↔
        l.FitsRow J ∧ ∀ hw ∈ l.hwaddr, hw.hwaddr ≠ [])) := by
  refine ⟨fun l h => ⟨?_, fun hfits => next_append h hfits rest⟩,
    fun l h => next_append_iff h⟩
  rintro ⟨text, happend, hnext⟩
  exact fitsRow_of_next h happend hnext

namespace CsvSample

/-- Addresses as decimal numbers. -/
def addresses (w : Nat) : AddressText w where
  toText a := natText a.toNat
  fromText t := (readDigits t).map (BitVec.ofNat w)
  plain a := natText_plain a.toNat
  fromText_toText a := by simp [readDigits_natText]

/-- Only the empty map is a context. -/
def contexts : ContextText Unit where
  str _ := ['\x7b', '\x7d']
  fromJSON t := if t = ['\x7b', '\x7d'] then some () else none
  str_ne_nil _ := by decide
  newline_not_mem _ := by decide
  fromJSON_str _ := rfl
  fromJSON_cut _ _ _ h := if_neg h

def lease4 (cltt : Time) (validLft : UInt32) (hostname : Text) : StoredLease4 Unit :=
  { addr := 0xC0000201#32, t1 := 0, t2 := 0, validLft, cltt, subnetId := 1, hostname,
    fqdnFwd := false, fqdnRev := false, hwaddr := some { htype := 1, hwaddr := [2, 0] },
    state := 0, context := some (), clientId := none }

def lease6 : StoredLease6 Unit :=
  { addr := 1#128, t1 := 0, t2 := 0, validLft := 100, cltt := 7, subnetId := 1,
    hostname := ['a'], fqdnFwd := true, fqdnRev := false, hwaddr := none, state := 0,
    context := none, type := .na, prefixlen := 128, iaid := 5,
    duid := { duid := [0, 1, 2], min_len := by decide }, preferredLft := 50 }

theorem lease4_storable {cltt : Int} {hostname : Text} (h0 : 0 ≤ cltt) (hlt : cltt < 2 ^ 32)
    (hnl : '\n' ∉ hostname) : (lease4 cltt validLft hostname).Storable where
  cltt_nonneg := h0
  cltt_lt := hlt
  hostname := hnl
  hwaddr := by
    rintro h ⟨⟩
    exact ⟨rfl, by decide⟩
  hwaddr_blank := by
    rintro h ⟨⟩ hnil
    cases hnil
  hwaddr_isSome := rfl
  clientId := by
    intro c hc
    cases hc

theorem lease6_storable : lease6.Storable where
  cltt_nonneg := by decide
  cltt_lt := by decide
  hostname := by decide
  hwaddr := by
    intro h hh
    cases hh
  hwaddr_blank := by
    intro h hh
    cases hh
  duid := by decide
  duid_empty := by decide

end CsvSample

open CsvSample in
theorem encodings_lossless_sample :
    (∃ text, append (addresses 32) contexts (lease4 7 100 ['a']) = some text ∧
      next (addresses 32) contexts (text ++ []) =
        some (some (lease4 7 100 ['a']).withoutTimers)) ∧
    next (addresses 128) contexts (append (addresses 128) contexts lease6 ++ []) =
      some (some lease6.withoutTimers) := by
  obtain ⟨h4, h6⟩ := encodings_lossless_iff (addresses 32) (addresses 128) contexts []
  refine ⟨(h4 (lease4 7 100 ['a']) (lease4_storable (by decide) (by decide) (by decide))).mpr
    ⟨by decide, by decide, ?_⟩, (h6 lease6 lease6_storable).mpr ⟨⟨by decide, by decide, ?_⟩, ?_⟩⟩
  · intro c _
    show Whole ['\x7b', '\x7d']
    decide
  · intro c hc
    cases hc
  · intro hw hhw
    cases hhw

namespace CsvSample

/-- The lease may be stored, and its row is not read back as the lease. -/
def Unread (l : StoredLease4 Unit) : Prop :=
  l.Storable ∧ ¬∃ text, append (addresses 32) contexts l = some text ∧
    next (addresses 32) contexts text = some (some l.withoutTimers)

theorem unread_of_not_fits {l : StoredLease4 Unit} (hl : l.Storable) (hfits : ¬l.FitsRow contexts) :
    Unread l := by
  refine ⟨hl, ?_⟩
  rintro ⟨text, happend, hnext⟩
  rw [← append_nil text] at hnext
  exact hfits (fitsRow_of_next hl happend hnext)

end CsvSample

open CsvSample in
/-- A comma or a NUL in the host name, or a lease that expires behind the 32-bit times, is enough. -/
theorem hostname_comma_not_read :
    Unread (lease4 7 100 ['a', ',', 'b']) ∧ Unread (lease4 7 100 ['a', '\x00', 'b']) ∧
      Unread (lease4 1 0xFFFFFFFF []) := by
  refine ⟨unread_of_not_fits ?_ fun h => ?_, unread_of_not_fits ?_ fun h => ?_,
    unread_of_not_fits ?_ fun h => ?_⟩
  · exact lease4_storable (by decide) (by decide) (by decide)
  · exact absurd h.hostname (by decide)
  · exact lease4_storable (by decide) (by decide) (by decide)
  · exact absurd h.hostname (by decide)
  · exact lease4_storable (by decide) (by decide) (by decide)
  · exact absurd h.expire (by decide)

end Dhcp
