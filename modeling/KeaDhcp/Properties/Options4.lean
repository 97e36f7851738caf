import Mathlib.Data.List.Induction
import KeaDhcp.Properties.OptionFields

/-!
# DHCPv4 options are sent back

The options that `unpackOptions4` reads, written by `packOptions4`. The reader takes one field in
each round and stops at END, for which it adds nothing; the collection orders the options by their
codes; the writer puts the relay agent information last.
-/

namespace Dhcp

open Infra DhcpOption OptionDefs OptionCollection Tlv List UInt16 Packing4

variable {defs : OptionDefs} {space : String} {buf rest : List UInt8} {s : Unpacking4} {f : Tlv}

/-- The generic option that a field stands for. -/
def genericOf4 (f : Tlv) : DhcpOption := .generic .v4 (ofNat f.type) f.value []

/-- A field whose code is that of an option without a definition. -/
structure Sent4 (defs : OptionDefs) (f : Tlv) : Prop where
  positive : 1 ≤ f.type
  type_le : f.type ≤ 254
  length_le : f.value.length ≤ 255
  undefined : defs.lookup (ofNat f.type) = []

/-! ## Reading -/

theorem createOption4_generic (htype : f.type ≤ 255) (hlength : f.value.length ≤ 255) :
    createOption .v4 [] (ofNat f.type) f.value = .ok (genericOf4 f) := by
  have hsmall : ¬ofNat f.type > 255 := by
    exact Nat.not_lt.mpr ((Nat.mod_le ..).trans htype)
  unfold createOption make
  rw [if_neg hsmall, if_neg (by omega)]
  rfl

theorem round_option4 (hf : Sent4 defs f) (hdrop : buf.drop s.offset = f.encode 1 ++ rest) :
    ∃ s', unpackOption4 defs space buf s = .ok (.inl s') ∧
      s'.offset = s.offset + (f.encode 1).length ∧
      s'.options = s.options.insert (genericOf4 f) := by
  have hpositive := hf.positive
  have htype := hf.type_le
  have hlength := hf.length_le
  have hbytes : buf.drop s.offset =
      UInt8.ofNat f.type :: (UInt8.ofNat f.value.length :: (f.value ++ rest)) := by
    rw [hdrop]
    simp [encode, netBytes]
  have hlen := drop_succ hbytes
  have hvalue := drop_succ hlen
  have hsize := congrArg length hbytes
  simp only [length_drop, length_cons, length_append] at hsize
  have htoNat : (UInt8.ofNat f.value.length).toNat = f.value.length := by
    rw [UInt8.toNat_ofNat']
    omega
  have hcode : (UInt8.ofNat f.type).toUInt16 = ofNat f.type := by
    apply UInt16.toNat_inj.mp
    simp only [UInt8.toNat_toUInt16, UInt8.toNat_ofNat', UInt16.toNat_ofNat']
    omega
  have hspecial (code : UInt8) (h : code.toNat ≠ f.type) : UInt8.ofNat f.type ≠ code := by
    rintro rfl
    rw [UInt8.toNat_ofNat'] at h
    omega
  have hend := hspecial DHO_END (by rw [show DHO_END.toNat = 255 from rfl]; omega)
  have hpad := hspecial DHO_PAD (by rw [show DHO_PAD.toNat = 0 from rfl]; omega)
  have hmake := createOption4_generic (by omega) hlength
  unfold unpackOption4
  rw [readUint8_of_drop hbytes, except_ok_bind]
  dsimp only
  rw [if_neg hend, if_neg hpad, if_neg (by omega), readUint8_of_drop hlen, except_ok_bind, htoNat,
    if_neg (by omega), copyRange_of_drop (by omega) hvalue, except_ok_bind, hcode, hf.undefined,
    ite_self, hmake]
  refine ⟨_, rfl, ?_, rfl⟩
  rw [length_encode]
  dsimp only
  omega

/-- The bytes of fields, one behind the other. -/
def encodeFields4 (fields : List Tlv) : List UInt8 := fields.flatMap (encode 1)

theorem optionsLoop4_cond {buf : OptionBuffer} :
    (optionsLoop4 defs space buf).cond s = decide (s.offset < buf.length) := rfl

/-- The loop reads the fields up to the end option. -/
theorem run_options4 {fields : List Tlv} (h : ∀ f ∈ fields, Sent4 defs f)
    (hdrop : buf.drop s.offset = encodeFields4 fields ++ DHO_END :: rest) :
    ∃ u, ended ((optionsLoop4 defs space buf).run s) = .ok u ∧
      u.options = (fields.map genericOf4).foldl insert s.options := by
  induction fields generalizing s with
  | nil =>
    have hmore : (optionsLoop4 defs space buf).cond s := by
      have hsize := congrArg length hdrop
      simp only [encodeFields4, flatMap_nil, nil_append, length_drop,
        length_cons] at hsize
      rw [optionsLoop4_cond]
      exact decide_eq_true (by omega)
    have hround : unpackOption4 defs space buf s = .ok (.inr s) := by
      unfold unpackOption4
      rw [readUint8_of_drop hdrop, except_ok_bind]
      rfl
    rw [Loop.run_return hmore hround]
    exact ⟨s, rfl, rfl⟩
  | cons f fields ih =>
    rw [encodeFields4, flatMap_cons, append_assoc] at hdrop
    obtain ⟨s', hround, hoffset, hoptions⟩ := round_option4 (h f mem_cons_self) hdrop
    have hmore : (optionsLoop4 defs space buf).cond s := by
      have hsize := congrArg length hdrop
      rw [length_append, length_encode, length_drop] at hsize
      rw [optionsLoop4_cond]
      exact decide_eq_true (by omega)
    have hrest := drop_add_length hdrop
    rw [← hoffset] at hrest
    obtain ⟨u, hrun, hu⟩ := ih (fun f hf => h f (mem_cons_of_mem _ hf)) hrest
    rw [Loop.run_next hmore hround]
    exact ⟨u, hrun, by rw [hu, hoptions]; rfl⟩

theorem unpackOptions4_encode {fields : List Tlv} (h : ∀ f ∈ fields, Sent4 defs f) :
    ∃ u, unpackOptions4 defs space (encodeFields4 fields ++ DHO_END :: rest) = .ok u ∧
      u.options = (fields.map genericOf4).foldl insert .empty :=
  run_options4 (s := ⟨⟨0, .empty⟩, []⟩) h rfl

/-! ## Writing -/

theorem len_generic4 (f : Tlv) : (genericOf4 f).len = ofNat (2 + f.value.length) := by
  simp [genericOf4, len, lenEach, Universe.headerLen]

theorem toUInt8_ofNat {n : Nat} : (ofNat n).toUInt8 = UInt8.ofNat n := by
  apply UInt8.toNat_inj.mp
  simp only [toNat_toUInt8, UInt16.toNat_ofNat', UInt8.toNat_ofNat']
  omega

theorem pack_generic4 (hlength : f.value.length ≤ 253) :
    (genericOf4 f).pack = .ok (f.encode 1) := by
  have hsmall : ¬ofNat (2 + f.value.length) > 255 := by
    exact Nat.not_lt.mpr ((Nat.mod_le ..).trans (show 2 + f.value.length ≤ 255 by omega))
  have hsub : ofNat (2 + f.value.length) - 2 = ofNat f.value.length := by
    rw [ofNat_add]
    grind
  have hheader : packHeader .v4 (ofNat f.type) (genericOf4 f).len =
      .ok [UInt8.ofNat f.type, UInt8.ofNat f.value.length] := by
    unfold packHeader
    rw [len_generic4]
    rw [if_neg hsmall, hsub, toUInt8_ofNat, toUInt8_ofNat]
  rw [genericOf4] at hheader
  rw [genericOf4, pack, hheader]
  simp [except_ok_bind, packAll, packEach, packAll4, encode, netBytes]

/-- The relay agent information goes behind the other options. -/
def agentLast (fields : List Tlv) : List Tlv :=
  fields.filter (·.type ≠ 82) ++ fields.filter (·.type = 82)

/-- What one option does to the loop of `packOptions4`. -/
theorem add_generic4 (htype : f.type ≤ 254) (hlength : f.value.length ≤ 253) {packing : Packing4} :
    packing.add ((genericOf4 f).getType, (genericOf4 f).pack) = .ok (
      if f.type = 82 then { packing with agent := some (.ok (f.encode 1)) }
      else { packing with buf := packing.buf ++ f.encode 1 }) := by
  have hcode (code : UInt8) : (genericOf4 f).getType = code.toUInt16 ↔ f.type = code.toNat := by
    show ofNat f.type = code.toUInt16 ↔ _
    rw [← UInt16.toNat_inj, UInt16.toNat_ofNat', UInt8.toNat_toUInt16]
    omega
  have hagent := hcode DHO_DHCP_AGENT_OPTIONS
  have hend : ¬(genericOf4 f).getType = DHO_END.toUInt16 := by
    rw [hcode, show DHO_END.toNat = 255 from rfl]
    omega
  unfold add
  rw [pack_generic4 hlength]
  by_cases h82 : f.type = 82
  · rw [if_pos (hagent.mpr h82), if_pos h82]
  · rw [if_neg (fun h => h82 (hagent.mp h)), if_neg hend, if_neg h82]
    rfl

theorem foldlM_add {fields : List Tlv}
    (h : ∀ f ∈ fields, f.type ≤ 254 ∧ f.value.length ≤ 253) {packing : Packing4} :
    (packEach (fields.map genericOf4)).foldlM add packing = .ok {
      packing with
      buf := packing.buf ++ encodeFields4 (fields.filter (·.type ≠ 82))
      agent := ((fields.filter (·.type = 82)).getLast?.map fun f => .ok (f.encode 1)).or
        packing.agent } := by
  induction fields generalizing packing with
  | nil => simp [encodeFields4]; rfl
  | cons f fields ih =>
    obtain ⟨htype, hlength⟩ := h f mem_cons_self
    rw [map_cons, packEach, foldlM_cons, add_generic4 htype hlength,
      except_ok_bind, ih fun f hf => h f (mem_cons_of_mem _ hf)]
    by_cases h82 : f.type = 82
    · simp [h82, getLast?_cons]
    · simp [h82, encodeFields4]

theorem last_agent {agents : List Tlv} (h : ∀ f ∈ agents, f.type = 82)
    (hnodup : (agents.map type).Nodup) :
    (agents.getLast?.map fun f =>
      (Except.ok (f.encode 1) : Except PacketError (List UInt8))).getD (.ok []) =
        .ok (encodeFields4 agents) := by
  match agents with
  | [] => rfl
  | [f] => simp [encodeFields4]
  | f :: g :: rest =>
    have hf := h f mem_cons_self
    have hg := h g (mem_cons_of_mem _ mem_cons_self)
    simp [hf, hg] at hnodup

/-- Packing writes the relay agent information last. -/
theorem packAll4_eq {fields : List Tlv} (h : ∀ f ∈ fields, f.type ≤ 254 ∧ f.value.length ≤ 253)
    (hnodup : (fields.map type).Nodup) :
    packAll4 (packEach (fields.map genericOf4)) =
      .ok (encodeFields4 (agentLast fields)) := by
  have hagents : ∀ f ∈ fields.filter (·.type = 82), f.type = 82 := by simp
  have hagent := last_agent hagents (hnodup.sublist (filter_sublist.map _))
  unfold packAll4
  rw [foldlM_add h, except_ok_bind]
  rw [Option.or_none, hagent]
  simp [agentLast, encodeFields4, except_ok_bind]

/-! ## The order of the collection -/

theorem entries_generic4 (fields : List Tlv) : ∃ sorted : List Tlv, sorted.Perm fields ∧
    ((fields.map genericOf4).foldl insert .empty).entries =
      sorted.map genericOf4 := by
  -- on the last field: it is linked somewhere between the others
  induction fields using reverseRecOn with
  | nil => exact ⟨[], .nil, rfl⟩
  | append_singleton fields f ih =>
    obtain ⟨sorted, hperm, hentries⟩ := ih
    obtain ⟨pre, post, hsplit, hlink⟩ :=
      linkUpper_split compareCode (genericOf4 f) (sorted.map genericOf4)
    obtain ⟨sorted₁, sorted₂, rfl, rfl, rfl⟩ := map_eq_append_iff.mp hsplit
    refine ⟨sorted₁ ++ f :: sorted₂, ?_, ?_⟩
    · exact (perm_middle.trans (hperm.cons f)).trans (perm_append_singleton f fields).symm
    rw [map_append, map_singleton, foldl_concat]
    show linkUpper compareCode (genericOf4 f) _ = _
    rw [hentries, hlink, map_append, map_cons]

theorem sorted_strictly {sorted : List Tlv} (h : Ascending compareCode (sorted.map genericOf4))
    (htype : ∀ f ∈ sorted, f.type ≤ 254) (hnodup : (sorted.map type).Nodup) :
    sorted.Pairwise (·.type < ·.type) := by
  have hle : sorted.Pairwise fun f g => f.type ≤ g.type := by
    refine (pairwise_map.mp h).imp_of_mem ?_
    intro f g hf hg hfg
    have hf := htype f hf
    have hfg : (ofNat f.type).toNat ≤ (ofNat g.type).toNat := Nat.isLE_compare.mp hfg
    rw [UInt16.toNat_ofNat', UInt16.toNat_ofNat'] at hfg
    omega
  have hne : sorted.Pairwise fun f g => f.type ≠ g.type := pairwise_map.mp hnodup
  exact (hle.and hne).imp fun ⟨hle, hne⟩ => Nat.lt_of_le_of_ne hle hne

/--
**Received options are sent back.** Fields with different codes from 1 to 254 that have no
definition, with values of at most 253 bytes and followed by END, are written as the same fields
ordered by their codes, with the relay agent information last. `Pkt4::pack` adds END.
-/
theorem options4_sent_back (defs : OptionDefs) (space : String) (fields : List Tlv)
    (rest : List UInt8) (hfields : ∀ f ∈ fields, Sent4 defs f)
    (hlength : ∀ f ∈ fields, f.value.length ≤ 253) (hnodup : (fields.map type).Nodup) :
    ∃ u sorted, unpackOptions4 defs space (encodeFields4 fields ++ DHO_END :: rest) = .ok u ∧
      sorted.Perm fields ∧ sorted.Pairwise (·.type < ·.type) ∧
      packOptions4 u.options = .ok (encodeFields4 (agentLast sorted)) ∧
      Pkt4.packOptions u.options = .ok (encodeFields4 (agentLast sorted) ++ [DHO_END]) := by
  obtain ⟨u, hread, hoptions⟩ := unpackOptions4_encode hfields
  obtain ⟨sorted, hperm, hentries⟩ := entries_generic4 fields
  have hsorted : ∀ f ∈ sorted, f.type ≤ 254 ∧ f.value.length ≤ 253 := by
    intro f hf
    have hf := hperm.mem_iff.mp hf
    exact ⟨(hfields f hf).type_le, hlength f hf⟩
  have hdifferent : (sorted.map type).Nodup := (hperm.map type).nodup_iff.mpr hnodup
  have hascending : Ascending compareCode (sorted.map genericOf4) := by
    rw [← hentries]
    exact ascending _
  have hpack : packOptions4 u.options = .ok (encodeFields4 (agentLast sorted)) := by
    unfold packOptions4
    rw [hoptions, hentries]
    exact packAll4_eq hsorted hdifferent
  refine ⟨u, sorted, hread, hperm, ?_, hpack, ?_⟩
  · exact sorted_strictly hascending (fun f hf => (hsorted f hf).1) hdifferent
  unfold Pkt4.packOptions
  rw [hpack]
  rfl

namespace SentBackSample

def fields : List Tlv := [⟨82, [1, 2]⟩, ⟨254, []⟩, ⟨12, [97]⟩]

theorem fields_sent : ∀ f ∈ fields, Sent4 none f := by
  intro f hf
  rw [fields, mem_cons, mem_pair] at hf
  rcases hf with rfl | rfl | rfl <;>
    exact ⟨by decide, by decide, by decide, rfl⟩

end SentBackSample

open SentBackSample in
theorem options4_sent_back_sample : ∃ u,
    unpackOptions4 none "dhcp4" (encodeFields4 fields ++ [DHO_END]) = .ok u ∧
      packOptions4 u.options = .ok [12, 1, 97, 254, 0, 82, 2, 1, 2] := by
  obtain ⟨u, sorted, hread, hperm, hsorted, hpack, -⟩ := options4_sent_back none "dhcp4"
    fields [] fields_sent (by decide) (by decide)
  have hfields : [⟨12, [97]⟩, ⟨82, [1, 2]⟩, ⟨254, []⟩].Perm fields := by decide
  have heq : sorted = [⟨12, [97]⟩, ⟨82, [1, 2]⟩, ⟨254, []⟩] :=
    (hperm.trans hfields.symm).eq_of_pairwise (fun _ _ _ _ h h' => absurd h (Nat.lt_asymm h'))
      hsorted (by simp)
  rw [heq] at hpack
  exact ⟨u, hread, hpack⟩

/-- The length with the header does not fit into an octet. -/
theorem pack_generic4_long (hlong : 254 ≤ f.value.length) (hlength : f.value.length ≤ 255) :
    ∃ text, (genericOf4 f).pack = .error (.outOfRange text) := by
  have hbig : ofNat (2 + f.value.length) > 255 := by
    rw [gt_iff_lt, lt_iff_toNat_lt, UInt16.toNat_ofNat', show (255 : UInt16).toNat = 255 from rfl]
    omega
  have hlen := len_generic4 f
  rw [genericOf4] at hlen
  rw [genericOf4, pack, hlen]
  unfold packHeader
  rw [if_pos hbig]
  exact ⟨_, rfl⟩

/-- The END that was read is not written, and an option of 254 bytes that was read is refused. -/
theorem options4_not_sent_back :
    (∃ u, unpackOptions4 none "dhcp4" [12, 1, 97, 255] = .ok u ∧
      packOptions4 u.options = .ok [12, 1, 97]) ∧
    ∃ u text, unpackOptions4 none "dhcp4"
        (encodeFields4 [⟨12, replicate 254 0⟩] ++ [DHO_END]) = .ok u ∧
      packOptions4 u.options = .error (.outOfRange text) := by
  have hread (value : List UInt8) (h : value.length ≤ 255) :
      ∃ u, unpackOptions4 none "dhcp4" (encodeFields4 [⟨12, value⟩] ++ [DHO_END]) =
        .ok u ∧ packOptions4 u.options = packAll4 [(12, (genericOf4 ⟨12, value⟩).pack)] := by
    have hsent : ∀ f ∈ [(⟨12, value⟩ : Tlv)], Sent4 none f := by
      intro f hf
      rw [mem_singleton.mp hf]
      exact ⟨show 1 ≤ 12 by decide, show 12 ≤ 254 by decide, h, rfl⟩
    obtain ⟨u, hread, hoptions⟩ := unpackOptions4_encode hsent
    exact ⟨u, hread, by rw [hoptions]; rfl⟩
  constructor
  · obtain ⟨u, hread, hpack⟩ := hread [97] (by decide)
    exact ⟨u, hread, hpack⟩
  have hlength : (replicate 254 (0 : UInt8)).length = 254 := length_replicate
  obtain ⟨u, hread, hpack⟩ := hread (replicate 254 0) (by omega)
  obtain ⟨text, hrefused⟩ := pack_generic4_long (f := ⟨12, replicate 254 0⟩) hlength.ge
    (show (replicate 254 (0 : UInt8)).length ≤ 255 by omega)
  rw [hrefused] at hpack
  exact ⟨u, text, hread, hpack⟩

end Dhcp
