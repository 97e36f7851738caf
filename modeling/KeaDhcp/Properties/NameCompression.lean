import KeaDhcp.Dns.MessageRenderer
import KeaDhcp.Properties.NameWire

/-!
# Compressed names are read back

Every entry of the renderer's table points at a name in the rendered data (`TableOk`), and stays
there when more is written. `NameCompare` compares with that name, and a pointer to it stands for
labels that are equal to those to be written. So each `writeName` leaves a name that the constructor
of `Name` reads.
-/

namespace Dns

open Infra Util Name LabelSequence WireParser List UInt8 MessageRenderer

variable {c : UInt8} {i n : Nat} {r : MessageRenderer} {hashes : List UInt64} {tail : List UInt8}
    {prior : List Label}

/-! ## Names in rendered data -/

/-- The name at `pos` as the renderer writes it: a `WireName` whose pointers lead to labels. -/
inductive Rendered (data : List UInt8) :
    (bound pos : Nat) → (labels : List Label) → (stop : Nat) → Prop
  | root {bound pos : Nat} (h : data[pos]? = some 0) : Rendered data bound pos [] (pos + 1)
  | label {bound pos : Nat} {label : Label} {labels : List Label} {stop : Nat}
      (hlength : data[pos]? = some (ofNat label.length))
      (hlabel : label ≠ [] ∧ label.length ≤ maxLabellen)
      (hdata : (data.drop (pos + 1)).take label.length = label)
      (hrest : Rendered data bound (pos + 1 + label.length) labels stop) :
      Rendered data bound pos (label :: labels) stop
  | pointer {bound pos target : Nat} {hi lo c : UInt8} {labels : List Label} {stop : Nat}
      (hhi : data[pos]? = some hi)
      (hmark : hi &&& compressPointerMark8 = compressPointerMark8)
      (hlo : data[pos + 1]? = some lo)
      (htarget : (hi &&& ~~~ compressPointerMark8).toNat * 256 + lo.toNat = target)
      (hbound : target < bound) (hc : data[target]? = some c) (hlabel : c.toNat ≤ maxLabellen)
      (hrest : Rendered data target target labels stop) : Rendered data bound pos labels (pos + 2)

variable {labels : List Label} {bound pos stop : Nat} {data : List UInt8}

namespace Rendered

section

variable (h : Rendered data bound pos labels stop)
include h

theorem wireName : WireName data bound pos labels stop := by
  induction h with
  | root h => exact .root h
  | label hlength hlabel hdata hrest ih => exact .label hlength hlabel hdata ih
  | pointer hhi hmark hlo htarget hbound hc hlabel hrest ih =>
    subst htarget
    exact .pointer hhi hmark hlo hbound ih

theorem mono {bound' : Nat} (hle : bound ≤ bound') : Rendered data bound' pos labels stop := by
  induction h generalizing bound' with
  | root h => exact .root h
  | label hlength hlabel hdata hrest ih => exact .label hlength hlabel hdata (ih hle)
  | pointer hhi hmark hlo htarget hbound hc hlabel hrest ih =>
    exact .pointer hhi hmark hlo htarget (hbound.trans_le hle) hc hlabel hrest

theorem append (more : List UInt8) : Rendered (data ++ more) bound pos labels stop := by
  have hkeep {i : Nat} {c : UInt8} (hi : data[i]? = some c) : (data ++ more)[i]? = some c := by
    rw [List.getElem?_append_left (List.getElem?_eq_some_iff.mp hi).1, hi]
  induction h with
  | root h => exact .root (hkeep h)
  | @label bound pos label labels stop hlength hlabel hdata hrest ih =>
    refine .label (hkeep hlength) hlabel ?_ ih
    have hlt := (List.getElem?_eq_some_iff.mp hlength).1
    have hlen := congrArg List.length hdata
    rw [length_take, length_drop] at hlen
    rw [drop_append_of_le_length hlt, take_append_of_le_length, hdata]
    rw [length_drop]
    omega
  | pointer hhi hmark hlo htarget hbound hc hlabel hrest ih =>
    exact .pointer (hkeep hhi) hmark (hkeep hlo) htarget hbound (hkeep hc) hlabel ih

theorem label_valid : ∀ label ∈ labels, IsLabel label := by
  induction h with
  | root h => exact nofun
  | label hlength hlabel hdata hrest ih =>
    intro l hl
    rcases mem_cons.mp hl with rfl | hl
    · exact hlabel
    · exact ih l hl
  | pointer hhi hmark hlo htarget hbound hc hlabel hrest ih => exact ih

end

end Rendered

/-! ## Comparing with a name in the data -/

variable {caseSensitive : Bool} {buffer : List UInt8}

section Compare

open NameCompare

theorem bufferAt_eq (h : buffer[pos]? = some c) : bufferAt buffer pos = .ok c := by
  unfold bufferAt
  rw [h]

theorem followPointers_label (hc : buffer[pos]? = some c) (hlabel : c.toNat ≤ maxLabellen) :
    followPointers buffer pos i = .ok pos := by
  rw [followPointers, bufferAt_eq hc, except_ok_bind, if_neg fun hmark => (mark_large hmark).1 hlabel]
  rfl

theorem nextPosition_label (hc : buffer[pos]? = some c) (hlabel : c.toNat ≤ maxLabellen) :
    nextPosition buffer pos 0 = .ok (pos, c.toNat) := by
  unfold nextPosition
  rw [followPointers_label hc hlabel, except_ok_bind, bufferAt_eq hc]
  rfl

theorem nextPosition_pointer {target : Nat} {hi lo : UInt8} (hhi : buffer[pos]? = some hi)
    (hmark : hi &&& compressPointerMark8 = compressPointerMark8) (hlo : buffer[pos + 1]? = some lo)
    (htarget : (hi &&& ~~~ compressPointerMark8).toNat * 256 + lo.toNat = target)
    (hc : buffer[target]? = some c) (hlabel : c.toNat ≤ maxLabellen) :
    nextPosition buffer pos 0 = nextPosition buffer target 0 := by
  have hsmall : uint16 target = target := by
    have := (mark_large hmark).2
    have := lo.toNat_lt
    exact Nat.mod_eq_of_lt (by omega)
  have hfollow : followPointers buffer pos 0 = .ok target := by
    rw [followPointers, bufferAt_eq hhi, except_ok_bind, if_pos hmark, bufferAt_eq hlo,
      except_ok_bind, htarget, hsmall]
    rw [dif_pos (by decide), followPointers_label hc hlabel]
  unfold nextPosition
  rw [if_pos rfl, if_pos rfl, hfollow, followPointers_label hc hlabel]

/-- Equality in the compress mode. -/
def sameBytes (caseSensitive : Bool) (bytes bytes' : List UInt8) : Bool :=
  bytes.map (convert (!caseSensitive)) = bytes'.map (convert (!caseSensitive))

theorem compareFrom_cons {llen pos' llen' : Nat} {ch1 : UInt8}
    (hnext : nextPosition buffer pos llen = .ok (pos', llen')) (hc : buffer[pos']? = some ch1)
    (hsmall : pos' + 1 < 2 ^ 16) (ch2 : UInt8) (name : List UInt8) :
    compareFrom buffer caseSensitive (ch2 :: name) pos llen
      = if sameBytes caseSensitive [ch2] [ch1] then
          compareFrom buffer caseSensitive name (pos' + 1) llen'
        else .ok false := by
  have huint : uint16 (pos' + 1) = pos' + 1 := Nat.mod_eq_of_lt hsmall
  rw [compareFrom, hnext]
  show (bufferAt buffer pos' >>= _) = _
  rw [bufferAt_eq hc, huint, except_ok_bind]
  by_cases hsame : convert (!caseSensitive) ch1 = convert (!caseSensitive) ch2
  · simp [sameBytes, hsame]
  · simp [sameBytes, hsame, Ne.symm hsame]
    rfl

theorem sameBytes_append {front front' : List UInt8} (h : front.length = front'.length)
    {back back' : List UInt8} :
    sameBytes caseSensitive (front ++ back) (front' ++ back')
      = (sameBytes caseSensitive front front' && sameBytes caseSensitive back back') := by
  unfold sameBytes
  rw [map_append, map_append, ← Bool.decide_and]
  congr 1
  refine propext ⟨fun heq => append_inj heq (by simpa using h), ?_⟩
  rintro ⟨hfront, hback⟩
  rw [hfront, hback]

theorem sameBytes_cons {ch ch' : UInt8} (bytes bytes' : List UInt8) :
    sameBytes caseSensitive (ch :: bytes) (ch' :: bytes')
      = (sameBytes caseSensitive [ch] [ch'] && sameBytes caseSensitive bytes bytes') := by
  show sameBytes caseSensitive ([ch] ++ bytes) ([ch'] ++ bytes') = _
  exact sameBytes_append (by rfl)

/-- The characters of a label. -/
theorem compareFrom_chars (front back label : List UInt8) (hlength : front.length = label.length)
    (hlabel : (buffer.drop pos).take label.length = label) (hsmall : pos + label.length < 2 ^ 16) :
    compareFrom buffer caseSensitive (front ++ back) pos label.length
      = if sameBytes caseSensitive front label then
          compareFrom buffer caseSensitive back (pos + label.length) 0
        else .ok false := by
  induction label generalizing front pos with
  | nil =>
    have hnil : front = [] := length_eq_zero_iff.mp hlength
    subst hnil
    rfl
  | cons ch1 label ih =>
    obtain ⟨ch2, front, rfl⟩ : ∃ c t, front = c :: t := by
      cases front with
      | nil => cases hlength
      | cons c t => exact ⟨c, t, rfl⟩
    have hlt : pos < buffer.length := by
      have hlen := congrArg List.length hlabel
      rw [List.length_take, List.length_drop, List.length_cons] at hlen
      omega
    rw [drop_eq_getElem_cons hlt, length_cons, take_succ_cons, cons.injEq]
      at hlabel
    have hc : buffer[pos]? = some ch1 := by rw [getElem?_eq_getElem hlt, hlabel.1]
    simp only [length_cons] at hsmall hlength
    have hnext : nextPosition buffer pos (label.length + 1) = .ok (pos, label.length) := rfl
    rw [cons_append, length_cons, compareFrom_cons hnext hc (by omega),
      ih front (by omega) hlabel.2 (by omega), sameBytes_cons front, Nat.add_assoc, Nat.add_comm 1]
    cases sameBytes caseSensitive [ch2] [ch1] <;> rfl

/-- `NameCompare` compares with the name that stands at the position. -/
theorem compareFrom_rendered (h : Rendered buffer bound pos labels stop) {name : List UInt8}
    (hlength : name.length = (encodeLabels labels).length + 1)
    (hsmall : pos + name.length ≤ maxCompressPointer + maxWire) (hwire : name.length ≤ maxWire) :
    compareFrom buffer caseSensitive name pos 0
      = .ok (sameBytes caseSensitive name (encodeLabels labels ++ [0])) := by
  induction h generalizing name with
  | @root bound pos hc =>
    obtain ⟨ch, rfl⟩ := length_eq_one_iff.mp hlength
    have hpos : pos + 1 ≤ 0x3fff + 255 := hsmall
    rw [compareFrom_cons (nextPosition_label hc (by decide)) hc (by omega), encodeLabels_nil,
      nil_append]
    cases sameBytes caseSensitive [ch] [0] <;> rfl
  | @label bound pos label labels stop hbyte hlabel hdata hrest ih =>
    have hnat := toNat_ofNat_length hlabel.2
    have hsize : maxCompressPointer + maxWire < 2 ^ 16 := by decide
    rw [encodeLabels_cons, length_append, length_cons] at hlength
    obtain ⟨ch, rest, rfl⟩ := exists_cons_of_length_eq_add_one hlength
    rw [length_cons] at hlength hsmall hwire
    -- the characters of the label, and those of the names behind it
    obtain ⟨front, back, rfl, hfront⟩ : ∃ front back, rest = front ++ back ∧
        front.length = label.length := by
      refine ⟨rest.take label.length, rest.drop label.length, by simp, ?_⟩
      rw [length_take]
      omega
    rw [length_append] at hlength hsmall hwire
    have hback : compareFrom buffer caseSensitive back (pos + 1 + label.length) 0
        = .ok (sameBytes caseSensitive back (encodeLabels labels ++ [0])) :=
      ih (by omega) (by omega) (by omega)
    rw [compareFrom_cons (nextPosition_label hbyte (by rw [hnat]; exact hlabel.2)) hbyte (by omega),
      hnat, compareFrom_chars front back label hfront hdata (by omega), hback, encodeLabels_cons,
      cons_append, cons_append, append_assoc, sameBytes_cons (front ++ back),
      sameBytes_append hfront]
    cases sameBytes caseSensitive [ch] [ofNat label.length] <;>
      cases sameBytes caseSensitive front label <;> rfl
  | @pointer bound pos target hi lo c labels stop hhi hmark hlo htarget hbound hc hlabel hrest ih =>
    have htargetle : target ≤ 0x3fff := by
      have := (mark_large hmark).2
      have := lo.toNat_lt
      omega
    obtain ⟨ch, rest, rfl⟩ := exists_cons_of_length_eq_add_one hlength
    have hsame : compareFrom buffer caseSensitive (ch :: rest) pos 0
        = compareFrom buffer caseSensitive (ch :: rest) target 0 := by
      rw [compareFrom, compareFrom, nextPosition_pointer hhi hmark hlo htarget hc hlabel]
    rw [hsame]
    exact ih hlength (Nat.add_le_add htargetle hwire) hwire

end Compare

/-! ## Equal labels -/

/-- Labels that are equal in the compress mode. -/
def SameLabels (caseSensitive : Bool) (labels labels' : List Label) : Prop :=
  labels.map (·.map (convert (!caseSensitive))) = labels'.map (·.map (convert (!caseSensitive)))

theorem convert_length (downcase : Bool) {label : Label} (h : label.length ≤ maxLabellen) :
    convert downcase (ofNat label.length) = ofNat label.length := by
  have hnat := toNat_ofNat_length h
  unfold convert maptolower
  split
  · refine if_neg fun hletter => ?_
    have hle : (0x41 : UInt8).toNat ≤ (ofNat label.length).toNat := hletter.1
    have hsmall : label.length ≤ 63 := h
    have : (0x41 : UInt8).toNat = 65 := rfl
    omega
  · rfl

variable {downcase : Bool}

theorem map_encodeLabels (h : ∀ label ∈ labels, IsLabel label) :
    (encodeLabels labels ++ [0]).map (convert downcase)
      = encodeLabels (labels.map (·.map (convert downcase))) ++ [0] := by
  induction labels with
  | nil => cases downcase <;> rfl
  | cons label labels ih =>
    have hrest := ih fun l hl => h l (mem_cons_of_mem _ hl)
    have hlength := convert_length downcase (h label mem_cons_self).2
    simp only [encodeLabels_cons, append_assoc, map_cons,
      map_append, hlength, length_map] at hrest ⊢
    rw [hrest]

theorem length_encode_map :
    (encodeLabels (labels.map (·.map (convert downcase)))).length
      = (encodeLabels labels).length := by
  induction labels with
  | nil => rfl
  | cons label labels ih =>
    simp only [map_cons, encodeLabels_cons, length_append, length_cons,
      length_map, ih]

variable {front labels' : List Label}

namespace SameLabels

theorem refl (labels : List Label) : SameLabels caseSensitive labels labels := rfl

theorem append {front' : List Label} (hfront : SameLabels caseSensitive front front')
    (h : SameLabels caseSensitive labels labels') :
    SameLabels caseSensitive (front ++ labels) (front' ++ labels') := by
  unfold SameLabels at hfront h ⊢
  rw [map_append, map_append, hfront, h]

theorem length_encode (h : SameLabels caseSensitive labels labels') :
    (encodeLabels labels).length = (encodeLabels labels').length := by
  rw [← length_encode_map, h, length_encode_map]

theorem of_sameBytes (hlabels : ∀ label ∈ labels, IsLabel label)
    (hlabels' : ∀ label ∈ labels', IsLabel label)
    (h : sameBytes caseSensitive (encodeLabels labels ++ [0]) (encodeLabels labels' ++ [0])) :
    SameLabels caseSensitive labels labels' := by
  have heq := of_decide_eq_true h
  rw [map_encodeLabels hlabels, map_encodeLabels hlabels'] at heq
  have hmapped {ls : List Label}
      (hls : ∀ label ∈ ls, IsLabel label) :
      ∀ label ∈ ls.map (·.map (convert (!caseSensitive))), label ≠ [] ∧ label.length < 256 := by
    intro label hl
    obtain ⟨original, horiginal, rfl⟩ := mem_map.mp hl
    have hvalid := hls original horiginal
    refine ⟨by simpa using hvalid.1, ?_⟩
    rw [length_map]
    exact hvalid.2.trans_lt (by decide)
  exact encodeLabels_injective (hmapped hlabels) (hmapped hlabels') heq

end SameLabels

/-! ## The table -/

/-- The item stands for the name at its position, which begins there with a label. -/
structure ItemOk (buffer : List UInt8) (item : OffsetItem) : Prop where
  pos_le : item.pos ≤ maxCompressPointer
  wire : item.len ≤ maxWire
  name : ∃ labels stop, Rendered buffer item.pos item.pos labels stop ∧
    item.len = (encodeLabels labels).length + 1
  label : ∃ c, buffer[item.pos]? = some c ∧ c.toNat ≤ maxLabellen

def TableOk (r : MessageRenderer) : Prop := ∀ b, ∀ item ∈ r.table b, ItemOk r.buffer item

variable {hash : UInt64} {item : OffsetItem}

theorem ItemOk.append (h : ItemOk buffer item) (more : List UInt8) :
    ItemOk (buffer ++ more) item where
  pos_le := h.pos_le
  wire := h.wire
  name := by
    obtain ⟨labels, stop, hname, hlen⟩ := h.name
    exact ⟨labels, stop, hname.append more, hlen⟩
  label := by
    obtain ⟨c, hc, hlabel⟩ := h.label
    exact ⟨c, by rw [List.getElem?_append_left (List.getElem?_eq_some_iff.mp hc).1, hc], hlabel⟩

theorem findIf_eq {α : Type} {p : α → Except Failure Bool} {as : List α}
    (h : ∀ a ∈ as, ∃ b, p a = .ok b) :
    ∃ found, findIf p as = .ok found ∧ ∀ a, found = some a → a ∈ as ∧ p a = .ok true := by
  induction as with
  | nil => exact ⟨none, rfl, nofun⟩
  | cons a as ih =>
    obtain ⟨b, hb⟩ := h a mem_cons_self
    cases b with
    | true =>
      refine ⟨some a, by rw [findIf, hb]; rfl, fun a' heq => ?_⟩
      cases heq
      exact ⟨mem_cons_self, hb⟩
    | false =>
      obtain ⟨found, hfound, hspec⟩ := ih fun a' ha' => h a' (mem_cons_of_mem _ ha')
      refine ⟨found, by rw [findIf, hb]; exact hfound, fun a' heq => ?_⟩
      exact ⟨mem_cons_of_mem _ (hspec a' heq).1, (hspec a' heq).2⟩

/-- A position to which a pointer may lead instead of the labels. -/
structure Target (r : MessageRenderer) (labels : List Label) (pos : Nat) : Prop where
  pos_le : pos ≤ maxCompressPointer
  name : ∃ labels' stop, Rendered r.buffer pos pos labels' stop ∧
    SameLabels r.caseSensitive labels labels'
  label : ∃ c, r.buffer[pos]? = some c ∧ c.toNat ≤ maxLabellen

theorem compare_item (hitem : ItemOk r.buffer item) (hlabels : ∀ label ∈ labels, IsLabel label) :
    ∃ same, NameCompare.compare r.buffer (encodeLabels labels ++ [0]) hash r.caseSensitive item
        = .ok same ∧ (same = true → Target r labels item.pos) := by
  unfold NameCompare.compare
  by_cases hdiffers : item.hash ≠ hash ∨ item.len ≠ (encodeLabels labels ++ [0]).length
  · exact ⟨false, if_pos hdiffers, nofun⟩
  rw [if_neg hdiffers]
  obtain ⟨labels', stop, hname, hlen⟩ := hitem.name
  have hlength : item.len = (encodeLabels labels ++ [0]).length := by
    by_contra hne
    exact hdiffers (.inr hne)
  refine ⟨_, compareFrom_rendered hname (hlength.symm.trans hlen) ?_ ?_, fun hsame => ?_⟩
  · exact Nat.add_le_add hitem.pos_le (hlength ▸ hitem.wire)
  · exact hlength ▸ hitem.wire
  · exact ⟨hitem.pos_le,
      ⟨labels', stop, hname, .of_sameBytes hlabels hname.label_valid hsame⟩, hitem.label⟩

theorem findOffset_eq (h : TableOk r) (hlabels : ∀ label ∈ labels, IsLabel label) :
    ∃ found, r.findOffset (encodeLabels labels ++ [0]) hash = .ok found ∧
      ∀ pos, found = some pos → Target r labels pos := by
  have hcompare : ∀ item ∈ (r.table (bucketOf hash)).reverse, ∃ same,
      NameCompare.compare r.buffer (encodeLabels labels ++ [0]) hash r.caseSensitive item
        = .ok same := by
    intro item hmem
    obtain ⟨same, heq, -⟩ := compare_item (h _ item (mem_reverse.mp hmem)) hlabels
    exact ⟨same, heq⟩
  obtain ⟨found, hfound, hspec⟩ := findIf_eq hcompare
  refine ⟨found.map (·.pos), by unfold findOffset; rw [hfound]; rfl, ?_⟩
  intro pos hpos
  obtain ⟨item, hitem, rfl⟩ := Option.map_eq_some_iff.mp hpos
  obtain ⟨hmem, htrue⟩ := hspec item hitem
  obtain ⟨same, heq, htarget⟩ := compare_item (h _ item (mem_reverse.mp hmem)) hlabels
  rw [heq] at htrue
  exact htarget (Except.ok.inj htrue)

/-! ## Label sequences of a name -/

/-- The labels `i`, …, `j` of a name, the root label counted. -/
def sequenceOf (name : Name) (i j : Nat) : LabelSequence :=
  { ofName name with firstLabel := i, lastLabel := j }

variable {name : Name}

section Sequences

section

variable (h : name.Represents labels)

include h

theorem Name.Represents.ndata_all : name.ndata = encodeLabels (labels ++ [[]]) := by
  rw [h.ndata, encodeLabels_append]
  rfl

theorem Name.Represents.offset (hi : i ≤ labels.length) :
    ∃ offset, elementAt name.offsets i = .ok offset ∧
      offset.toNat = (encodeLabels ((labels ++ [[]]).take i)).length := by
  have hlt : i < (labels ++ [[]]).length := by
    rw [length_append]
    exact Nat.lt_succ_of_le hi
  have hget := labelOffsets_getElem 0 hlt
  rw [← h.offsets, getElem?_map] at hget
  obtain ⟨offset, hoffset, heq⟩ := Option.map_eq_some_iff.mp hget
  refine ⟨offset, ?_, heq.trans (Nat.zero_add _)⟩
  unfold elementAt
  rw [hoffset]

/-- The data of a part of the labels, which ends with the label `last`. -/
theorem Name.Represents.getData {inner back : List Label} {last : Label}
    (hall : labels ++ [[]] = front ++ (inner ++ last :: back)) :
    (sequenceOf name front.length (front.length + inner.length)).getDataLength
        = .ok (encodeLabels (inner ++ [last])).length ∧
      (sequenceOf name front.length (front.length + inner.length)).getData
        = .ok (encodeLabels (inner ++ [last])) := by
  have hcount : labels.length + 1 = front.length + (inner.length + (back.length + 1)) := by
    simpa using congrArg List.length hall
  obtain ⟨first, hfirst, hfirstNat⟩ := h.offset (i := front.length) (by omega)
  obtain ⟨final, hfinal, hfinalNat⟩ := h.offset (i := front.length + inner.length) (by omega)
  rw [hall, take_left] at hfirstNat
  rw [hall, ← append_assoc, ← length_append, take_left, encodeLabels_append,
    length_append] at hfinalNat
  have hlast : last.length ≤ maxLabellen := by
    have hmem : last ∈ labels ++ [[]] := by simp [hall]
    rcases mem_append.mp hmem with hmem | hmem
    · exact (h.label last hmem).2
    · rw [mem_singleton.mp hmem]
      exact Nat.zero_le _
  have hdata : name.ndata = encodeLabels front ++ (encodeLabels (inner ++ [last])
      ++ encodeLabels back) := by
    rw [h.ndata_all, hall]
    simp only [encodeLabels_append, encodeLabels_cons, encodeLabels_nil, append_assoc,
      append_nil]
  have hbyte : elementAt name.ndata final.toNat = .ok (ofNat last.length) := by
    unfold elementAt
    rw [hdata, hfinalNat, encodeLabels_append]
    simp
  have hlen : final.toNat - first.toNat + ((ofNat last.length).toNat + 1)
      = (encodeLabels (inner ++ [last])).length := by
    rw [toNat_ofNat_length hlast]
    simp only [encodeLabels_append, encodeLabels_cons, encodeLabels_nil, length_append,
      length_cons, append_nil]
    omega
  have hlength : (sequenceOf name front.length (front.length + inner.length)).getDataLength
      = .ok (encodeLabels (inner ++ [last])).length := by
    show (elementAt name.offsets (front.length + inner.length) >>= _) = _
    rw [hfinal]
    show (elementAt name.ndata final.toNat >>= _) = _
    rw [hbyte]
    show (elementAt name.offsets front.length >>= _) = _
    rw [hfirst, ← hlen]
    rfl
  refine ⟨hlength, ?_⟩
  show (getDataLength _ >>= _) = _
  rw [hlength]
  show (elementAt name.offsets front.length >>= _) = _
  rw [hfirst, except_ok_bind, hfirstNat]
  show (if _ ≤ name.ndata.length then _ else _) = _
  rw [if_pos (by rw [hdata]; simp only [length_append]; omega)]
  show Except.ok ((name.ndata.drop _).take _) = _
  rw [hdata, drop_left, take_left]

theorem Name.Represents.ofName_eq : ofName name = sequenceOf name 0 labels.length := by
  unfold sequenceOf ofName
  rw [h.labelcount]
  rfl

end

end Sequences

/-! ## The search -/

/-- What the search finds: nothing, when it stops at the root label, or a target for the labels that
are left. -/
inductive Searched (r : MessageRenderer) (labels : List Label) :
    Nat × Option Nat × List UInt64 → Prop
  | none {hashes : List UInt64} (hhashes : hashes.length = labels.length) :
      Searched r labels (labels.length + 1, none, hashes)
  | some {front rest : List Label} {pos : Nat} {hashes : List UInt64}
      (hsplit : labels = front ++ rest) (hrest : rest ≠ [])
      (hhashes : hashes.length = front.length + 1) (htarget : Target r rest pos) :
      Searched r labels (front.length, some pos, hashes)

variable {k : Nat}

theorem strip_next (hk : k ≤ n) {β : Type} {f : LabelSequence → Except Failure β} :
    (if k > 0 then (sequenceOf name (k - 1) n).stripLeft 1 >>= f
      else Except.ok (sequenceOf name (k - 1) n) >>= f) = f (sequenceOf name k n) := by
  cases k with
  | zero => rfl
  | succ k =>
    have hcount : ¬ 1 ≥ (sequenceOf name k n).getLabelCount := by
      show ¬ 1 ≥ n - k + 1
      omega
    rw [if_pos (Nat.succ_pos k)]
    unfold stripLeft
    rw [if_neg (by exact hcount)]
    rfl

variable {rest : List Label} {combine : UInt64 → UInt8 → UInt64}

theorem search_eq (h : TableOk r) (hname : name.Represents (front ++ rest))
    (hhashes : hashes.length = front.length) :
    ∃ found, r.search combine (rest.length + 1)
        (sequenceOf name (front.length - 1) (front ++ rest).length) front.length hashes
          = .ok found ∧ Searched r (front ++ rest) found := by
  induction rest generalizing front hashes with
  | nil =>
    have hall : front ++ [] ++ [[]] = front ++ ([] ++ [[]]) := by simp
    have hdata := (hname.getData hall).2
    rw [search, strip_next (by simp), append_nil]
    rw [length_nil, Nat.add_zero] at hdata
    dsimp only
    rw [hdata]
    exact ⟨_, rfl, .none hhashes⟩
  | cons label rest ih =>
    have hall : front ++ label :: rest ++ [[]] = front ++ (label :: rest ++ [[]]) := by simp
    have hdata := (hname.getData hall).2
    have hlast : encodeLabels (label :: rest ++ [[]]) = encodeLabels (label :: rest) ++ [0] := by
      rw [encodeLabels_append]
      rfl
    have hvalid : ∀ l ∈ label :: rest, IsLabel l :=
      fun l hl => hname.label l (mem_append_right _ hl)
    have hmore : (encodeLabels (label :: rest) ++ [0]).length ≠ 1 := by simp
    have hroom : ¬ front.length ≥ maxLabels := by
      have hle := hname.labelcount_le
      rw [hname.labelcount, length_append] at hle
      omega
    rw [← length_append, hlast] at hdata
    obtain ⟨found, hfound, htarget⟩ := findOffset_eq h hvalid
    rw [search, strip_next (by simp)]
    dsimp only
    rw [hdata, except_ok_bind, if_neg hmore, if_neg hroom, hfound, except_ok_bind]
    cases found with
    | some pos =>
      refine ⟨_, rfl, .some rfl (cons_ne_nil _ _) ?_ (htarget pos rfl)⟩
      rw [length_append, hhashes]
      rfl
    | none =>
      have hhashes' (hash : UInt64) : (hashes ++ [hash]).length = (front ++ [label]).length := by
        rw [length_append, length_append, hhashes]
        rfl
      have hname' : name.Represents ((front ++ [label]) ++ rest) := by simpa using hname
      have hnext := ih hname' (hhashes' (getHash combine
        (encodeLabels (label :: rest) ++ [0]) r.caseSensitive))
      simpa using hnext

/-! ## What is written -/

variable {before : List UInt8}

/-- Labels that are written before a name in the data. -/
theorem Rendered.written {front : List UInt8} (hprior : ∀ label ∈ prior, IsLabel label)
    (hfront : front = encodeLabels prior) (hdata : data = before ++ (front ++ tail))
    (h : Rendered data bound (before.length + front.length) labels stop) :
    Rendered data bound before.length (prior ++ labels) stop := by
  subst hfront
  induction prior generalizing before with
  | nil => exact h
  | cons label prior ih =>
    have hbyte : data[before.length]? = some (ofNat label.length) := by
      rw [hdata]
      simp
    have hchars : (data.drop (before.length + 1)).take label.length = label := by
      rw [hdata, ← drop_drop, drop_left, encodeLabels_cons, append_assoc,
        cons_append, drop_succ_cons, drop_zero, take_left]
    refine .label hbyte (hprior label mem_cons_self) hchars ?_
    have hnext : before.length + 1 + label.length
        = (before ++ ofNat label.length :: label).length := by
      simp only [length_append, length_cons]
      omega
    rw [hnext]
    refine ih (fun l hl => hprior l (mem_cons_of_mem _ hl)) ?_ ?_
    · rw [hdata, encodeLabels_cons]
      simp only [append_assoc]
    rw [← hnext]
    rw [encodeLabels_cons, length_append, length_cons] at h
    have hpos : before.length + (label.length + 1 + (encodeLabels prior).length)
        = before.length + 1 + label.length + (encodeLabels prior).length := by omega
    rwa [hpos] at h

/-- The bytes of a pointer. -/
theorem pointer_bytes (h : pos ≤ maxCompressPointer) :
    ofNat ((pos ||| compressPointerMark16) / 256) &&& compressPointerMark8
        = compressPointerMark8 ∧ (ofNat ((pos ||| compressPointerMark16) / 256)
          &&& ~~~ compressPointerMark8).toNat * 256
        + (ofNat (pos ||| compressPointerMark16)).toNat = pos := by
  have hlt : pos < 2 ^ 14 := h.trans_lt (by decide)
  have hor : pos ||| compressPointerMark16 = 0xc000 + pos := by
    rw [Nat.or_comm]
    exact (Nat.two_pow_add_eq_or_of_lt hlt 3).symm
  have hhi : (0xc000 + pos) / 256 = pos / 256 + 0xc0 := by omega
  have hbyte : ∀ n : Fin 64,
      ofNat (n.val + 0xc0) &&& compressPointerMark8 = compressPointerMark8 ∧
        (ofNat (n.val + 0xc0) &&& ~~~ compressPointerMark8).toNat = n.val := by
    decide +kernel
  have hsmall : pos / 256 < 64 := by omega
  have hlow : (ofNat (0xc000 + pos)).toNat = pos % 256 := by
    rw [toNat_ofNat']
    omega
  obtain ⟨hmark, hvalue⟩ := hbyte ⟨pos / 256, hsmall⟩
  rw [hor, hhi, hlow]
  exact ⟨hmark, by rw [hvalue]; show pos / 256 * 256 + pos % 256 = pos; omega⟩

theorem TableOk.addOffset (h : TableOk r) {offset len : Nat}
    (hitem : ItemOk r.buffer { hash := hash, pos := uint16 offset, len := uint16 len }) :
    TableOk (r.addOffset hash offset len) := by
  intro b item hmem
  have hcases : item ∈ r.table b ∨ item = ⟨hash, uint16 offset, uint16 len⟩ := by
    by_cases hb : b = bucketOf hash
    · subst hb
      simpa [MessageRenderer.addOffset] using hmem
    · left
      simpa [MessageRenderer.addOffset, Function.update_of_ne hb] using hmem
  rcases hcases with hold | rfl
  · exact h b item hold
  · exact hitem

variable {start seqlen : Nat}

/--
What the last loop is about to add: the names that begin with labels of `prior`, which stand behind
`before` in the buffer, with `labels` behind them, written or pointed to.
-/
structure Pending (r : MessageRenderer) (start stop : Nat) (before tail : List UInt8)
    (prior labels : List Label) (n : Nat) (hashes : List UInt64) (seqlen : Nat) : Prop where
  table : TableOk r
  isLabel : ∀ label ∈ prior, IsLabel label
  buffer : r.buffer = before ++ (encodeLabels prior ++ tail)
  start_le : start ≤ before.length
  rest : Rendered r.buffer start (before.length + (encodeLabels prior).length) labels stop
  count : n = prior.length ∨ n = prior.length + 1 ∧ tail[0]? = some 0
  enough : prior.length ≤ hashes.length
  length : seqlen = (encodeLabels (prior ++ labels)).length + 1
  wire : seqlen ≤ maxWire

section Pending

variable {label : Label}

theorem Pending.byte (h : Pending r start stop before tail (label :: prior) labels n hashes seqlen) :
    r.buffer[before.length]? = some (ofNat label.length) := by
  rw [h.buffer]
  simp

/-- The entry for the name that begins with the first label. -/
theorem Pending.itemOk
    (h : Pending r start stop before tail (label :: prior) labels n hashes seqlen)
    (hclose : before.length ≤ maxCompressPointer) :
    ItemOk r.buffer ⟨hash, uint16 before.length, uint16 seqlen⟩ := by
  have hoffset : uint16 before.length = before.length :=
    Nat.mod_eq_of_lt (hclose.trans_lt (by decide))
  have hlen : uint16 seqlen = seqlen := Nat.mod_eq_of_lt (h.wire.trans_lt (by decide))
  have hlabel := h.isLabel label mem_cons_self
  have hwritten := Rendered.written h.isLabel rfl h.buffer h.rest
  rw [hoffset, hlen]
  refine ⟨hclose, h.wire, ⟨_, stop, hwritten.mono h.start_le, h.length⟩, _, h.byte, ?_⟩
  rw [toNat_ofNat_length hlabel.2]
  exact hlabel.2

/-- A round adds the entry and goes on behind the label. -/
theorem Pending.next
    (h : Pending r start stop before tail (label :: prior) labels (n + 1) (hash :: hashes) seqlen)
    (hclose : before.length ≤ maxCompressPointer) :
    Pending (r.addOffset hash before.length seqlen) start stop
      (before ++ ofNat label.length :: label) tail prior labels n hashes
      (seqlen - (label.length + 1)) := by
  have hbefore : (before ++ ofNat label.length :: label).length
      = before.length + (label.length + 1) := by simp
  have hseqlen : seqlen - (label.length + 1) = (encodeLabels (prior ++ labels)).length + 1 := by
    rw [h.length, cons_append, encodeLabels_cons, length_append, length_cons]
    omega
  refine ⟨h.table.addOffset (h.itemOk hclose), fun l hl => h.isLabel l (mem_cons_of_mem _ hl), ?_, ?_,
    ?_, by simpa using h.count, Nat.le_of_succ_le_succ h.enough, hseqlen,
    (Nat.sub_le _ _).trans h.wire⟩
  · show r.buffer = _
    rw [h.buffer]
    simp
  · rw [hbefore]
    exact h.start_le.trans (Nat.le_add_right _ _)
  · have hrest := h.rest
    rw [encodeLabels_cons, length_append, length_cons, ← Nat.add_assoc] at hrest
    rw [hbefore]
    exact hrest

/-- The last loop keeps the table in order. -/
theorem addOffsets_eq (h : Pending r start stop before tail prior labels n hashes seqlen) :
    ∃ r', r.addOffsets n hashes before.length seqlen = .ok r' ∧ TableOk r' ∧
      r'.buffer = r.buffer ∧ r'.caseSensitive = r.caseSensitive := by
  induction prior generalizing r before n hashes seqlen with
  | nil =>
    rcases h.count with rfl | ⟨rfl, hroot⟩
    · exact ⟨r, rfl, h.table, rfl, rfl⟩
    have hbyte : r.buffer[before.length]? = some 0 := by
      rw [h.buffer, getElem?_append_right le_rfl, Nat.sub_self]
      exact hroot
    refine ⟨r, ?_, h.table, rfl, rfl⟩
    rw [addOffsets, bufferAt_eq hbyte, except_ok_bind]
    rfl
  | cons label prior ih =>
    obtain ⟨n, rfl⟩ : ∃ n', n = n' + 1 := by
      rcases h.count with rfl | ⟨rfl, -⟩ <;> exact ⟨_, rfl⟩
    obtain ⟨hash, hashes, rfl⟩ := exists_cons_of_length_pos
      (Nat.lt_of_lt_of_le (Nat.succ_pos _) h.enough)
    have hlabel := h.isLabel label mem_cons_self
    rw [addOffsets, bufferAt_eq h.byte, except_ok_bind, if_neg (ofNat_length_ne_zero hlabel),
      toNat_ofNat_length hlabel.2]
    split
    · exact ⟨r, rfl, h.table, rfl, rfl⟩
    next hfar =>
      obtain ⟨r', heq, hrest⟩ := ih (h.next (not_lt.mp hfar))
      rw [length_append, length_cons] at heq
      exact ⟨r', heq, hrest⟩

end Pending

/-! ## Writing a name -/

/-- What a `writeName` does: the data that it appends are the name, and the table stays in order. -/
structure Wrote (r : MessageRenderer) (labels : List Label) (r' : MessageRenderer) : Prop where
  table : TableOk r'
  mode : r'.caseSensitive = r.caseSensitive
  appended : ∃ more, r'.buffer = r.buffer ++ more
  name : ∃ labels', SameLabels r.caseSensitive labels labels' ∧
    Rendered r'.buffer r.buffer.length r.buffer.length labels' r'.buffer.length

/-- The labels of `prior` and the bytes that stand for the labels behind them. -/
theorem wrote_of_rendered (h : TableOk r) {rest' : List Label}
    (hname : name.Represents (prior ++ rest)) (hsame : SameLabels r.caseSensitive rest rest')
    (hrest : Rendered (r.buffer ++ (encodeLabels prior ++ tail)) r.buffer.length
      (r.buffer.length + (encodeLabels prior).length) rest'
      (r.buffer ++ (encodeLabels prior ++ tail)).length)
    (hn : n = prior.length ∨ n = prior.length + 1 ∧ tail[0]? = some 0)
    (hhashes : prior.length ≤ hashes.length) :
    ∃ r', addOffsets { r with buffer := r.buffer ++ (encodeLabels prior ++ tail) }
        n hashes r.buffer.length (encodeLabels (prior ++ rest ++ [[]])).length = .ok r' ∧
      Wrote r (prior ++ rest) r' := by
  have hprior : ∀ label ∈ prior, IsLabel label :=
    fun label hl => hname.label label (mem_append_left _ hl)
  have hsames : SameLabels r.caseSensitive (prior ++ rest) (prior ++ rest') :=
    (SameLabels.refl prior).append hsame
  have hlength : (encodeLabels (prior ++ rest ++ [[]])).length
      = (encodeLabels (prior ++ rest')).length + 1 := by
    rw [encodeLabels_append, length_append, hsames.length_encode]
    rfl
  have hwire : (encodeLabels (prior ++ rest ++ [[]])).length ≤ maxWire := by
    rw [← hname.ndata_all, ← hname.length]
    exact hname.wire
  have htable : TableOk { r with buffer := r.buffer ++ (encodeLabels prior ++ tail) } :=
    fun b item hmem => (h b item hmem).append _
  obtain ⟨r', heq, htable', hbuffer, hmode⟩ := addOffsets_eq
    ⟨htable, hprior, rfl, le_rfl, hrest, hn, hhashes, hlength, hwire⟩
  refine ⟨r', heq, htable', hmode, ⟨_, hbuffer⟩, prior ++ rest', hsames, ?_⟩
  rw [hbuffer]
  exact Rendered.written hprior rfl rfl hrest

theorem searchName_eq (h : TableOk r) (hname : name.Represents labels) :
    ∃ found, r.search combine (sequenceOf name 0 labels.length).getLabelCount
        (sequenceOf name 0 labels.length) 0 [] = .ok found ∧ Searched r labels found :=
  search_eq h (show name.Represents ([] ++ labels) from hname) rfl

variable {compress : Bool}

section Written

open MessageRenderer

theorem Name.Represents.getData_all (h : name.Represents labels) :
    (sequenceOf name 0 labels.length).getDataLength = .ok (encodeLabels (labels ++ [[]])).length ∧
      (sequenceOf name 0 labels.length).getData = .ok (encodeLabels (labels ++ [[]])) := by
  have hdata := h.getData (show labels ++ [[]] = [] ++ (labels ++ [] :: []) from rfl)
  rwa [length_nil, Nat.zero_add] at hdata

theorem uncompressed_all (h : name.Represents labels) (hk : k > 0 ∨ compress = false)
    (hall : compress = false ∨ labels.length < k) :
    uncompressed (sequenceOf name 0 labels.length) compress k
      = .ok (encodeLabels (labels ++ [[]])) := by
  have hcount : (sequenceOf name 0 labels.length).getLabelCount = labels.length + 1 := rfl
  unfold uncompressed
  rw [if_pos (by simpa using hk), if_neg, h.getData_all.2]
  rintro ⟨hcompress, hmore⟩
  rcases hall with hall | hall
  · rw [hall] at hcompress
    cases hcompress
  · omega

theorem stripRight_eq (hi : i ≤ n) :
    (sequenceOf name 0 n).stripRight i = .ok (sequenceOf name 0 (n - i)) := by
  exact if_neg (Nat.not_le_of_lt (Nat.lt_succ_of_le hi))

/-- Before a pointer stand the labels that have not been found. -/
theorem uncompressed_front (h : name.Represents (front ++ rest)) :
    uncompressed (sequenceOf name 0 (front ++ rest).length) true front.length
      = .ok (encodeLabels front) := by
  have hcount : (sequenceOf name 0 (front ++ rest).length).getLabelCount
      = (front ++ rest).length + 1 := rfl
  unfold uncompressed
  rw [hcount]
  rcases eq_nil_or_concat' front with rfl | ⟨inner, last, rfl⟩
  · rfl
  have hdata := (h.getData (show inner ++ [last] ++ rest ++ [[]]
    = [] ++ (inner ++ last :: (rest ++ [[]])) by simp)).2
  have hlength : (inner ++ [last] ++ rest).length = inner.length + 1 + rest.length := by
    rw [length_append, length_append]
    rfl
  have hfront : (inner ++ [last]).length = inner.length + 1 := by simp
  rw [hlength, hfront, if_pos (.inl (Nat.succ_pos _)), if_pos ⟨rfl, by omega⟩,
    stripRight_eq (by omega), except_ok_bind]
  rw [length_nil, Nat.zero_add] at hdata
  have hlast : inner.length + 1 + rest.length
      - (inner.length + 1 + rest.length + 1 - (inner.length + 1)) = inner.length := by omega
  rw [hlast, hdata]

end Written

theorem Rendered.whole (h : ∀ label ∈ labels, IsLabel label) (before : List UInt8) (bound : Nat) :
    Rendered (before ++ (encodeLabels labels ++ [0])) bound before.length labels
      (before ++ (encodeLabels labels ++ [0])).length := by
  have hbyte : (before ++ (encodeLabels labels ++ [0]))[before.length
      + (encodeLabels labels).length]? = some 0 := by
    simp
  have hroot : Rendered _ bound _ [] _ := .root hbyte
  have hwritten := Rendered.written h rfl rfl hroot
  rw [append_nil] at hwritten
  have hstop : (before ++ (encodeLabels labels ++ [0])).length
      = before.length + (encodeLabels labels).length + 1 := by
    simp only [length_append, length_cons, length_nil]
    omega
  rwa [hstop]

/-- A pointer behind what has been written. -/
theorem Target.rendered (h : Target r labels pos) {front : List UInt8} :
    ∃ labels', SameLabels r.caseSensitive labels labels' ∧
      Rendered (r.buffer ++ (front ++ pointer true (some pos))) r.buffer.length
        (r.buffer.length + front.length) labels'
        (r.buffer ++ (front ++ pointer true (some pos))).length := by
  obtain ⟨labels', stop, hname, hsame⟩ := h.name
  obtain ⟨c, hc, hlabel⟩ := h.label
  obtain ⟨hmark, htarget⟩ := pointer_bytes h.pos_le
  have hlt := (List.getElem?_eq_some_iff.mp hc).1
  have hbyte (i : Nat) : (r.buffer ++ (front ++ pointer true (some pos)))[
      r.buffer.length + front.length + i]? = (pointer true (some pos))[i]? := by
    rw [← append_assoc, ← length_append, getElem?_append_right (by omega),
      Nat.add_sub_cancel_left]
  have hstop : (r.buffer ++ (front ++ pointer true (some pos))).length
      = r.buffer.length + front.length + 2 := by
    rw [length_append, length_append]
    rfl
  rw [hstop]
  refine ⟨labels', hsame, .pointer (hbyte 0) hmark (hbyte 1) htarget hlt ?_ hlabel
    (hname.append _)⟩
  rw [getElem?_append_left hlt, hc]

theorem writeName_eq (h : TableOk r) (hname : name.Represents labels) :
    ∃ r', r.writeName combine name compress = .ok r' ∧ Wrote r labels r' := by
  obtain ⟨found, hfound, hsearched⟩ := searchName_eq h hname
  unfold writeName writeSequence
  rw [hname.ofName_eq, hfound, except_ok_bind]
  dsimp only
  rw [hname.getData_all.1]
  cases hsearched with
  | @none hashes hhashes =>
    have hpointer : pointer compress none = [] := by cases compress <;> rfl
    have hbytes : encodeLabels (labels ++ [[]]) ++ [] = encodeLabels labels ++ [0] := by
      rw [append_nil, encodeLabels_append]
      rfl
    rw [uncompressed_all hname (.inl (Nat.succ_pos _)) (.inr (Nat.lt_succ_self _)),
      except_ok_bind, hpointer, hbytes]
    have hname' : name.Represents (labels ++ []) := by rwa [append_nil]
    have hroot : Rendered (r.buffer ++ (encodeLabels labels ++ [0])) r.buffer.length
        (r.buffer.length + (encodeLabels labels).length) []
        (r.buffer ++ (encodeLabels labels ++ [0])).length := by
      have hnone : ∀ label ∈ ([] : List Label), IsLabel label :=
        nofun
      rw [← append_assoc, ← length_append]
      exact Rendered.whole hnone (r.buffer ++ encodeLabels labels) r.buffer.length
    have hwrote := wrote_of_rendered h hname' (.refl []) hroot (.inr ⟨rfl, rfl⟩)
      hhashes.ge
    rwa [append_nil] at hwrote
  | @some front rest pos hashes hsplit hrest hhashes htarget =>
    subst hsplit
    have hle : front.length ≤ hashes.length := by omega
    cases compress with
    | false =>
      have hbytes : encodeLabels (front ++ rest ++ [[]]) ++ pointer false (some pos)
          = encodeLabels front ++ (encodeLabels rest ++ [0]) := by
        rw [encodeLabels_append, encodeLabels_append, append_assoc, append_assoc]
        rfl
      rw [uncompressed_all hname (.inr rfl) (.inl rfl), except_ok_bind, hbytes]
      have hvalid : ∀ label ∈ rest, IsLabel label :=
        fun label hl => hname.label label (mem_append_right _ hl)
      have hwhole := Rendered.whole hvalid (r.buffer ++ encodeLabels front) r.buffer.length
      have hlength : (r.buffer ++ encodeLabels front).length
          = r.buffer.length + (encodeLabels front).length := length_append
      rw [append_assoc, hlength] at hwhole
      exact wrote_of_rendered h hname (.refl rest) hwhole (.inl rfl) hle
    | true =>
      obtain ⟨rest', hsame, hpointer⟩ := htarget.rendered
      rw [uncompressed_front hname]
      exact wrote_of_rendered h hname hsame hpointer (.inl rfl) hle

/-! ## Writing names one after another -/

section Run

open MessageRenderer

variable (combine : UInt64 → UInt8 → UInt64)

theorem writeNames_append (r : MessageRenderer) (before after : List (Name × Bool)) :
    r.writeNames combine (before ++ after)
      = r.writeNames combine before >>= fun r => r.writeNames combine after := by
  induction before generalizing r with
  | nil => rfl
  | cons entry before ih =>
    rw [cons_append, writeNames, writeNames]
    cases r.writeName combine entry.1 entry.2 with
    | error e => rfl
    | ok r' => exact ih r'

theorem writeNames_eq (h : TableOk r) {names : List (Name × Bool)}
    (hnames : ∀ entry ∈ names, ∃ labels, entry.1.Represents labels) :
    ∃ r', r.writeNames combine names = .ok r' ∧ TableOk r' ∧
      r'.caseSensitive = r.caseSensitive ∧ ∃ more, r'.buffer = r.buffer ++ more := by
  induction names generalizing r with
  | nil => exact ⟨r, rfl, h, rfl, [], (append_nil _).symm⟩
  | cons entry names ih =>
    obtain ⟨labels, hlabels⟩ := hnames entry mem_cons_self
    obtain ⟨r₁, hwrite, hwrote⟩ := writeName_eq h hlabels
    obtain ⟨r₂, hrun, htable, hmode, hmore⟩ := ih hwrote.table
      fun e he => hnames e (mem_cons_of_mem _ he)
    obtain ⟨part, hpart⟩ := hwrote.appended
    obtain ⟨more, hmore⟩ := hmore
    refine ⟨r₂, ?_, htable, hmode.trans hwrote.mode, part ++ more, ?_⟩
    · rw [writeNames, hwrite, except_ok_bind, hrun]
    · rw [hmore, hpart, append_assoc]

end Run

/-! ## Reading the names -/

/-- The names are equal but for the letter case of the data. -/
structure Name.SameUpToCase (name name' : Name) : Prop where
  ndata : name.ndata.map maptolower = name'.ndata.map maptolower
  offsets : name.offsets = name'.offsets
  length : name.length = name'.length
  labelcount : name.labelcount = name'.labelcount

theorem labelOffsets_map {f : UInt8 → UInt8} :
    labelOffsets start (labels.map (·.map f)) = labelOffsets start labels := by
  induction labels generalizing start with
  | nil => rfl
  | cons label labels ih => simp only [map_cons, labelOffsets, length_map, ih]

theorem Name.Represents.sameUpToCase {name' : Name} (h : name.Represents labels)
    (h' : name'.Represents labels') (hsame : SameLabels caseSensitive labels labels') :
    if caseSensitive then name = name' else name.SameUpToCase name' := by
  have hndata : name.ndata.map (convert (!caseSensitive))
      = name'.ndata.map (convert (!caseSensitive)) := by
    rw [h.ndata, h'.ndata, map_encodeLabels h.label, map_encodeLabels h'.label, hsame]
  have hcount : labels.length = labels'.length := by
    simpa using congrArg List.length hsame
  have hoffsets : name.offsets = name'.offsets := by
    have hstarts : labelOffsets 0 (labels ++ [[]]) = labelOffsets 0 (labels' ++ [[]]) := by
      rw [← labelOffsets_map, map_append, hsame,
        ← map_append, labelOffsets_map]
    rw [← h.offsets, ← h'.offsets] at hstarts
    exact map_injective_iff.mpr (fun a b hab => UInt8.toNat_inj.mp hab) hstarts
  have hlength : name.length = name'.length := by
    rw [h.length, h'.length]
    simpa using congrArg List.length hndata
  have hlabelcount : name.labelcount = name'.labelcount := by
    rw [h.labelcount, h'.labelcount, hcount]
  cases caseSensitive with
  | false => exact ⟨hndata, hoffsets, hlength, hlabelcount⟩
  | true =>
    have hid : convert (!true) = id := rfl
    rw [hid, map_id, map_id] at hndata
    rw [if_pos rfl]
    cases name
    simp only at hndata hoffsets hlength hlabelcount
    rw [hndata, hoffsets, hlength, hlabelcount]

/-- The constructor of `Name` reads what a `writeName` wrote, whatever was written later. -/
theorem Wrote.read {r' : MessageRenderer} (h : Wrote r labels r') (hname : name.Represents labels)
    {input : InputBuffer} (hposition : input.position = r.buffer.length)
    (hdata : ∃ more, input.data = r'.buffer ++ more) (hsize : input.data.length < 2 ^ 32) :
    ∃ read, ofWire input false = .ok (read, r'.buffer.length) ∧
      if r.caseSensitive then read = name else read.SameUpToCase name := by
  obtain ⟨labels', hsame, hrendered⟩ := h.name
  obtain ⟨more, hmore⟩ := hdata
  have hwire : WireName input.data input.position input.position labels' r'.buffer.length := by
    rw [hposition, hmore]
    exact (hrendered.append more).wireName
  have hroom : (encodeLabels labels').length + 1 ≤ maxWire := by
    have hlength : name.length = (encodeLabels labels).length + 1 := by
      rw [hname.length, hname.ndata]
      simp
    rw [← hsame.length_encode, ← hlength]
    exact hname.wire
  obtain ⟨read, hread, hrepresents⟩ := ofWire_of_wireName hsize hwire hroom
  have hid : labels'.map (·.map (convert false)) = labels' := by
    have hconvert : convert false = id := rfl
    simp [hconvert]
  rw [hid] at hrepresents
  exact ⟨read, hread, hrepresents.sameUpToCase hname hsame.symm⟩

/-- Each of the names that are written one after another is read back, if less than 4 GiB are
rendered. -/
theorem names_read_back (combine : UInt64 → UInt8 → UInt64) (caseSensitive : Bool)
    (names : List (Name × Bool)) (hnames : ∀ entry ∈ names, ∃ labels, entry.1.Represents labels) :
    ∃ r, writeNames combine { caseSensitive := caseSensitive } names = .ok r ∧
      (r.buffer.length < 2 ^ 32 →
        ∀ before name compress after, names = before ++ (name, compress) :: after →
          ∃ r₁ r₂ more, writeNames combine { caseSensitive := caseSensitive } before
              = .ok r₁ ∧
            r₁.writeName combine name compress = .ok r₂ ∧ r₂.buffer = r₁.buffer ++ more ∧
            ∃ (input : InputBuffer) (read : Name), input.data = r.buffer ∧
              input.position = r₁.buffer.length ∧
              ofWire input false = .ok (read, r₁.buffer.length + more.length) ∧
              if caseSensitive then read = name else read.SameUpToCase name) := by
  have hempty : TableOk { caseSensitive := caseSensitive } := nofun
  obtain ⟨r, hrun, -⟩ := writeNames_eq combine hempty hnames
  refine ⟨r, hrun, ?_⟩
  rintro hsize before name compress after rfl
  obtain ⟨labels, hlabels⟩ := hnames (name, compress) (by simp)
  obtain ⟨r₁, hbefore, htable₁, hmode, -⟩ := writeNames_eq combine hempty
    fun e he => hnames e (mem_append_left _ he)
  obtain ⟨r₂, hwrite, hwrote⟩ := writeName_eq htable₁ hlabels
  obtain ⟨r₃, hafter, -, -, later, hlater⟩ := writeNames_eq combine hwrote.table
    fun e he => hnames e (mem_append_right _ (mem_cons_of_mem _ he))
  have hlast : r = r₃ := by
    rw [writeNames_append, hbefore, except_ok_bind, writeNames, hwrite,
      except_ok_bind, hafter] at hrun
    exact (Except.ok.inj hrun).symm
  subst hlast
  obtain ⟨more, hmore⟩ := hwrote.appended
  have hinside : r₁.buffer.length ≤ r.buffer.length := by
    rw [hlater, hmore]
    simp only [length_append]
    omega
  let input : InputBuffer := ⟨r.buffer, r₁.buffer.length, hinside⟩
  have hposition : input.position = r₁.buffer.length := rfl
  obtain ⟨read, hread, hequal⟩ := hwrote.read hlabels hposition ⟨later, hlater⟩ hsize
  rw [hmode] at hequal
  rw [hmore, length_append] at hread
  exact ⟨r₁, r₂, more, hbefore, hwrite, hmore, input, read, rfl, rfl, hread, hequal⟩

/-- The names `a.b.` and `B.`. -/
def abName : Name where
  ndata := [1, 0x61, 1, 0x62, 0]
  offsets := [0, 2, 4]
  length := 5
  labelcount := 3

def upperName : Name where
  ndata := [1, 0x42, 0]
  offsets := [0, 2]
  length := 3
  labelcount := 2

theorem abName_represents : abName.Represents [[0x61], [0x62]] where
  ndata := rfl
  offsets := rfl
  length := rfl
  labelcount := rfl
  label := by decide
  wire := by decide

theorem upperName_represents : upperName.Represents [[0x42]] where
  ndata := rfl
  offsets := rfl
  length := rfl
  labelcount := rfl
  label := by decide
  wire := by decide

theorem names_read_back_sample :
    (∀ entry ∈ [(abName, true), (upperName, true)], ∃ labels, entry.1.Represents labels) ∧
      ∃ r, writeNames (fun hash c => hash + c.toUInt64) { caseSensitive := false }
          [(abName, true), (upperName, true)] = .ok r ∧
        (r.buffer.length < 2 ^ 32 →
          ∀ before name compress after,
            [(abName, true), (upperName, true)] = before ++ (name, compress) :: after →
              ∃ r₁ r₂ more, writeNames (fun hash c => hash + c.toUInt64)
                  { caseSensitive := false } before = .ok r₁ ∧
                r₁.writeName (fun hash c => hash + c.toUInt64) name compress = .ok r₂ ∧
                r₂.buffer = r₁.buffer ++ more ∧
                ∃ (input : InputBuffer) (read : Name), input.data = r.buffer ∧
                  input.position = r₁.buffer.length ∧
                  ofWire input false = .ok (read, r₁.buffer.length + more.length) ∧
                  if false then read = name else read.SameUpToCase name) := by
  have hnames : ∀ entry ∈ [(abName, true), (upperName, true)],
      ∃ labels, entry.1.Represents labels := by
    intro entry hmem
    rcases mem_cons.mp hmem with rfl | hmem
    · exact ⟨_, abName_represents⟩
    · rw [mem_singleton.mp hmem]
      exact ⟨_, upperName_represents⟩
  exact ⟨hnames, names_read_back _ false _ hnames⟩

/-- The second name is a pointer to the last label of the first. -/
example : (writeNames (fun hash c => hash + c.toUInt64) {}
    [(abName, true), (upperName, true)]).toOption.map (·.buffer)
      = some [1, 0x61, 1, 0x62, 0, 0xc0, 2] := by
  decide +kernel

/-- The root name, `n` times without compression. -/
def roots (n : Nat) : List (Name × Bool) :=
  replicate n ({ ndata := [0], offsets := [0], length := 1, labelcount := 1 }, false)

theorem writeName_root (r : MessageRenderer) :
    r.writeName (fun hash _ => hash)
        { ndata := [0], offsets := [0], length := 1, labelcount := 1 } false
      = .ok { r with buffer := r.buffer ++ [0] } := by
  have hbyte : (r.buffer ++ [0])[r.buffer.length]? = some 0 := by simp
  have hadd : addOffsets { r with buffer := r.buffer ++ [0] } 1 [] r.buffer.length 1
      = .ok { r with buffer := r.buffer ++ [0] } := by
    rw [addOffsets, bufferAt_eq hbyte]
    rfl
  exact hadd

theorem writeNames_roots (r : MessageRenderer) (n : Nat) :
    r.writeNames (fun hash _ => hash) (roots n)
      = .ok { r with buffer := r.buffer ++ replicate n 0 } := by
  induction n generalizing r with
  | zero => rw [replicate_zero, append_nil]; rfl
  | succ n ih =>
    show (r.writeName _ _ _ >>= _) = _
    rw [writeName_root]
    refine (ih _).trans ?_
    rw [append_assoc]
    rfl

/-- A name that begins behind 4 GiB is read, but the position is not left after it. -/
theorem far_name_misread :
    ∃ r₁ r₂ input, writeNames (fun hash _ => hash) {} (roots (2 ^ 32)) = .ok r₁ ∧
      r₁.writeName (fun hash _ => hash)
        { ndata := [0], offsets := [0], length := 1, labelcount := 1 } false = .ok r₂ ∧
      input.data = r₂.buffer ∧ input.position = r₁.buffer.length ∧
      r₁.buffer.length = 2 ^ 32 ∧ r₂.buffer.length = 2 ^ 32 + 1 ∧
      ofWire input false
        = .ok ({ ndata := [0], offsets := [0], length := 1, labelcount := 1 }, 1) := by
  have h : uint (2 ^ 32) = 0 := by decide
  -- the rest holds for any such number, and nothing is computed with this one
  generalize 2 ^ 32 = n at h ⊢
  have hlength : (replicate n (0 : UInt8)).length = n := length_replicate
  refine ⟨_, _, zeros n, writeNames_roots {} n, writeName_root _, ?_, hlength.symm, hlength, ?_,
    ofWire_zeros h⟩
  · exact replicate_succ'
  show ([] ++ replicate n (0 : UInt8) ++ [0]).length = n + 1
  rw [nil_append, length_append, hlength]
  rfl

end Dns
