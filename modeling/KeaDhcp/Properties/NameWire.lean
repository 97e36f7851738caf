import KeaDhcp.Dns.NameLabels

/-!
# Names from wire data

`WireName` says which labels stand at a position of wire data, and where the part of the name ends
that stands there. The constructor reads exactly the names for which it holds and which fit into 255
bytes (`run_ends`, `ofWire_of_wireName`); everything else is a format error.
-/

namespace Dns

open Infra Util Name List UInt8

/-- The name at `pos`: labels, then the root label or a pointer to a position before `bound` where
the name goes on. `stop` is the end of the part at `pos`. -/
inductive WireName (data : List UInt8) :
    (bound pos : Nat) → (labels : List Label) → (stop : Nat) → Prop
  | root {bound pos : Nat} (h : data[pos]? = some 0) : WireName data bound pos [] (pos + 1)
  | label {bound pos : Nat} {label : Label} {labels : List Label} {stop : Nat}
      (hlength : data[pos]? = some (ofNat label.length))
      (hlabel : label ≠ [] ∧ label.length ≤ maxLabellen)
      (hdata : (data.drop (pos + 1)).take label.length = label)
      (hrest : WireName data bound (pos + 1 + label.length) labels stop) :
      WireName data bound pos (label :: labels) stop
  | pointer {bound pos : Nat} {hi lo : UInt8} {labels : List Label} {stop : Nat}
      (hhi : data[pos]? = some hi)
      (hmark : hi &&& compressPointerMark8 = compressPointerMark8)
      (hlo : data[pos + 1]? = some lo)
      (hbound : (hi &&& ~~~ compressPointerMark8).toNat * 256 + lo.toNat < bound)
      (hrest : WireName data ((hi &&& ~~~ compressPointerMark8).toNat * 256 + lo.toNat)
        ((hi &&& ~~~ compressPointerMark8).toNat * 256 + lo.toNat) labels stop) :
      WireName data bound pos labels (pos + 2)

variable {labels : List Label} {stop bound pos : Nat} {data : List UInt8}

theorem WireName.stop_bounds (h : WireName data bound pos labels stop) :
    pos < stop ∧ stop ≤ data.length := by
  induction h with
  | root h =>
    have := (List.getElem?_eq_some_iff.mp h).1
    omega
  | label hlength hlabel hdata hrest ih => omega
  | pointer hhi hmark hlo hbound hrest ih =>
    have := (List.getElem?_eq_some_iff.mp hlo).1
    omega

variable {downcase : Bool} {n : Nat} {p : WireParser}

namespace WireParser

variable {p' : WireParser}

/-! ## What is left of a parse -/

/-- The loop from here on, and the test that follows it. -/
def run (downcase : Bool) (data : List UInt8) (p : WireParser) : Except Failure WireParser := do
  match ← (loop downcase data).run p with
  | .inl p => if !p.done then formerr "incomplete wire-format name" else return p

theorem run_step (hcurrent : p.current < data.length) (hdone : p.done = false)
    (h : p.step downcase data = .ok p') : run downcase data p = run downcase data p' := by
  have hcond : (loop downcase data).cond p = true := by simp [loop, hcurrent, hdone]
  have hbody : (loop downcase data).body p = .ok (.inl p') := by
    show Sum.inl <$> p.step downcase data = _
    rw [h]
    rfl
  unfold run
  rw [Loop.run_next hcond hbody]

theorem run_throw {failure : Failure} (hcurrent : p.current < data.length) (hdone : p.done = false)
    (h : p.step downcase data = .error failure) : run downcase data p = .error failure := by
  have hcond : (loop downcase data).cond p = true := by simp [loop, hcurrent, hdone]
  have hbody : (loop downcase data).body p = .error failure := by
    show Sum.inl <$> p.step downcase data = _
    rw [h]
    rfl
  unfold run
  rw [Loop.run_throw hcond hbody]
  rfl

theorem run_short (hcurrent : data.length ≤ p.current) (hdone : p.done = false) :
    run downcase data p = formerr "incomplete wire-format name" := by
  have hcond : (loop downcase data).cond p = false := by
    simp only [loop, decide_eq_false_iff_not]
    omega
  unfold run
  rw [Loop.run_exit hcond]
  exact if_pos (by rw [hdone]; rfl)

theorem run_done (hdone : p.done = true) : run downcase data p = .ok p := by
  have hcond : (loop downcase data).cond p = false := by simp [loop, hdone]
  unfold run
  rw [Loop.run_exit hcond]
  exact if_neg (by rw [hdone]; decide)

/-! ## One byte -/

/-- The state in which the `switch` begins, one byte further. -/
def advance (p : WireParser) : WireParser :=
  { p with position := p.position + 1, current := uint (p.current + 1),
           cused := if p.seenPointer then p.cused else uint (p.cused + 1) }

variable {c : UInt8}

theorem step_eq (h : data[p.position]? = some c) :
    p.step downcase data
      = match p.state with
        | .start => p.advance.caseStart c
        | .ordinary => .ok (p.advance.caseOrdinary downcase c)
        | .newcurrent => p.advance.caseNewcurrent data c := by
  unfold step readUint8
  rw [h]
  rfl

theorem uint_of_lt (h : n < 2 ^ 32) : uint n = n := Nat.mod_eq_of_lt h

/-- The bytes used at the place of the name when `n` more are read. -/
def usedAfter (p : WireParser) (n : Nat) : Nat := if p.seenPointer then p.cused else p.cused + n

theorem usedAfter_add (p q : WireParser) (hseen : q.seenPointer = p.seenPointer)
    (hused : q.cused = p.usedAfter n) (m : Nat) : q.usedAfter m = p.usedAfter (n + m) := by
  unfold usedAfter at hused ⊢
  rw [hseen, hused]
  split <;> omega

/-- What holds in every round: the counters agree and are no greater than the data. -/
structure Counts (data : List UInt8) (p : WireParser) : Prop where
  done : p.done = false
  current : p.current = p.position
  inRange : p.position ≤ data.length
  used : p.seenPointer = false → p.cused ≤ p.position
  bound : p.biggestPointer ≤ data.length

theorem Counts.used_after (h : Counts data p) (hseen : p.seenPointer = false) :
    p.usedAfter n ≤ p.position + n := by
  have hold := h.used hseen
  unfold usedAfter
  rw [hseen, if_neg (by decide)]
  omega

theorem Counts.advance_eq (h : Counts data p) (hdata : data.length < 2 ^ 32)
    (hlt : p.position < data.length) :
    p.advance = { p with position := p.position + 1, current := p.position + 1,
                         cused := p.usedAfter 1 } := by
  have hcurrent : uint (p.current + 1) = p.position + 1 := by
    rw [h.current, uint_of_lt (by omega)]
  unfold advance usedAfter
  rw [hcurrent]
  cases hseen : p.seenPointer with
  | true => rfl
  | false =>
    have hused := h.used hseen
    rw [if_neg (by decide), if_neg (by decide), uint_of_lt (by omega)]

/-! ## The bytes of a label -/

/-- The state after bytes of a label, of which `n` are left. -/
def read (p : WireParser) (bytes : List UInt8) (n : Nat) (state : FwState) : WireParser :=
  { p with ndata := p.ndata ++ bytes, n := n, state := state,
           position := p.position + bytes.length, current := p.position + bytes.length,
           cused := p.usedAfter bytes.length }

theorem read_read {bytes bytes' : List UInt8} {n' : Nat} {state state' : FwState} :
    (p.read bytes n state).read bytes' n' state' = p.read (bytes ++ bytes') n' state' := by
  have hused : (p.read bytes n state).usedAfter bytes'.length
      = p.usedAfter (bytes ++ bytes').length := by
    rw [length_append]
    exact usedAfter_add p (p.read bytes n state) rfl rfl _
  unfold read at hused ⊢
  rw [hused]
  simp only [append_assoc, length_append, Nat.add_assoc]

theorem Counts.read (h : Counts data p) (bytes : List UInt8)
    (hle : p.position + bytes.length ≤ data.length) (n : Nat) (state : FwState) :
    Counts data (p.read bytes n state) where
  done := h.done
  current := rfl
  inRange := hle
  used := h.used_after
  bound := h.bound

section

variable {k : Nat} (hdata : data.length < 2 ^ 32) (h : Counts data p) (hstate : p.state = .ordinary)
  (hn : p.n = k + 1)

include hdata h hstate hn

theorem step_ordinary (hc : data[p.position]? = some c) :
    p.step downcase data
      = .ok (p.read [convert downcase c] k (if k = 0 then .start else .ordinary)) := by
  have hlt := (List.getElem?_eq_some_iff.mp hc).1
  have hdec : decrement p.n = k := by
    rw [hn]
    rfl
  rw [step_eq hc, hstate, h.advance_eq hdata hlt]
  simp only [caseOrdinary, hdec]
  split
  · rfl
  · rw [hstate]
    rfl

theorem run_next_ordinary (hlt : p.position < data.length) :
    run downcase data p = run downcase data
      (p.read [convert downcase data[p.position]] k (if k = 0 then .start else .ordinary)) :=
  run_step (h.current ▸ hlt) h.done
    (step_ordinary hdata h hstate hn (getElem?_eq_getElem hlt))

/-- The bytes of the label are read when the data have them. -/
theorem run_ordinary (downcase : Bool) (hle : p.position + (k + 1) ≤ data.length) :
    run downcase data p
      = run downcase data
          (p.read (((data.drop p.position).take (k + 1)).map (convert downcase)) 0 .start) := by
  induction k generalizing p with
  | zero =>
    have hlt : p.position < data.length := hle
    rw [run_next_ordinary hdata h hstate hn hlt, drop_eq_getElem_cons hlt]
    rfl
  | succ k ih =>
    have hlt : p.position < data.length := by omega
    have hmoved := h.read [convert downcase data[p.position]] (Nat.succ_le_of_lt hlt)
      (k + 1) .ordinary
    rw [run_next_ordinary hdata h hstate hn hlt, if_neg (Nat.succ_ne_zero k),
      ih hmoved rfl rfl (by show p.position + 1 + _ ≤ _; omega), read_read,
      drop_eq_getElem_cons hlt]
    rfl

/-- The data end in the label. -/
theorem run_ordinary_short (hlt : data.length < p.position + (k + 1)) :
    run downcase data p = formerr "incomplete wire-format name" := by
  induction k generalizing p with
  | zero =>
    refine run_short ?_ h.done
    rw [h.current]
    omega
  | succ k ih =>
    by_cases hend : data.length ≤ p.position
    · exact run_short (h.current ▸ hend) h.done
    have hlt : p.position < data.length := by omega
    have hmoved := h.read [convert downcase data[p.position]] (Nat.succ_le_of_lt hlt)
      (k + 1) .ordinary
    rw [run_next_ordinary hdata h hstate hn hlt, if_neg (Nat.succ_ne_zero k)]
    exact ih hmoved rfl rfl (by show _ < p.position + 1 + _; omega)

end

/-! ## Labels and pointers -/

/-- Before a label, with `labels` read. -/
structure AtLabel (data : List UInt8) (labels : List Label) (p : WireParser) : Prop
    extends Counts data p where
  state : p.state = .start
  ndata : p.ndata = encodeLabels labels
  offsets : p.offsets.map (·.toNat) = labelOffsets 0 labels
  nused : p.nused = (encodeLabels labels).length
  label : ∀ label ∈ labels, label ≠ [] ∧ label.length ≤ maxLabellen
  wire : p.nused ≤ maxWire

/-- The end, with the root label. -/
structure Complete (labels : List Label) (p : WireParser) : Prop where
  ndata : p.ndata = encodeLabels labels ++ [0]
  offsets : p.offsets.map (·.toNat) = labelOffsets 0 (labels ++ [[]])
  nused : p.nused = p.ndata.length
  label : ∀ label ∈ labels, label ≠ [] ∧ label.length ≤ maxLabellen
  wire : p.nused ≤ maxWire

section Labels

variable {hi : UInt8}

theorem AtLabel.step_eq (downcase : Bool) (h : AtLabel data labels p) (hdata : data.length < 2 ^ 32)
    (hc : data[p.position]? = some c) :
    p.step downcase data
      = caseStart
          { p with
            position := p.position + 1
            current := p.position + 1
            cused := p.usedAfter 1 } c := by
  have hstart : p.step downcase data = p.advance.caseStart c := by
    rw [WireParser.step_eq hc, h.state]
  rw [hstart, h.advance_eq hdata (List.getElem?_eq_some_iff.mp hc).1]

theorem AtLabel.current_lt (h : AtLabel data labels p) (hc : data[p.position]? = some c) :
    p.current < data.length :=
  h.current ▸ (List.getElem?_eq_some_iff.mp hc).1

theorem AtLabel.offsets_push (h : AtLabel data labels p) (label : Label) :
    (p.offsets ++ [ofNat p.nused]).map (·.toNat) = labelOffsets 0 (labels ++ [label]) := by
  have hbyte : (ofNat p.nused).toNat = p.nused :=
    toNat_ofNat_of_lt' (h.wire.trans_lt (by decide))
  rw [map_append, h.offsets, labelOffsets_append, map_singleton, hbyte, h.nused,
    Nat.zero_add]
  rfl

theorem run_root (h : AtLabel data labels p) (hdata : data.length < 2 ^ 32)
    (hc : data[p.position]? = some 0) (hroom : p.nused + 1 ≤ maxWire) :
    ∃ p', run downcase data p = .ok p' ∧ Complete labels p' ∧ p'.cused = p.usedAfter 1 := by
  have hround := h.step_eq downcase hdata hc
  unfold caseStart at hround
  rw [if_pos (by decide), if_neg (by show ¬ p.nused + 0 + 1 > _; omega)] at hround
  refine ⟨_, (run_step (h.current_lt hc) h.done hround).trans (run_done (by simp)), ?_, rfl⟩
  exact {
    ndata := by rw [h.ndata]
    offsets := h.offsets_push []
    nused := by
      rw [h.nused, h.ndata, length_append]
      rfl
    label := h.label
    wire := hroom }

/-- The state after the length byte of a label. -/
def lengthRead (p : WireParser) (c : UInt8) : WireParser :=
  { p with
    offsets := p.offsets ++ [ofNat p.nused]
    nused := p.nused + c.toNat + 1
    ndata := p.ndata ++ [c]
    n := c.toNat
    state := .ordinary
    position := p.position + 1
    current := p.position + 1
    cused := p.usedAfter 1 }

theorem step_length (downcase : Bool) (h : AtLabel data labels p) (hdata : data.length < 2 ^ 32)
    (hc : data[p.position]? = some c) (hlabel : c ≠ 0 ∧ c.toNat ≤ maxLabellen)
    (hroom : p.nused + c.toNat + 1 ≤ maxWire) : p.step downcase data = .ok (p.lengthRead c) := by
  have hdone : (p.done || c == 0) = p.done := by simp [hlabel.1]
  rw [h.step_eq downcase hdata hc]
  unfold caseStart lengthRead
  dsimp only
  rw [if_pos hlabel.2, if_neg (by omega), hdone]

theorem AtLabel.counts_lengthRead (h : AtLabel data labels p) (hc : data[p.position]? = some c) :
    Counts data (p.lengthRead c) where
  done := h.done
  current := rfl
  inRange := (List.getElem?_eq_some_iff.mp hc).1
  used := h.toCounts.used_after
  bound := h.bound

variable {label : Label}

theorem toNat_ofNat_length (h : label.length ≤ maxLabellen) :
    (ofNat label.length).toNat = label.length :=
  toNat_ofNat_of_lt' (h.trans_lt (by decide))

theorem ofNat_length_ne_zero (h : IsLabel label) : ofNat label.length ≠ 0 := by
  intro hzero
  have hlength := toNat_ofNat_length h.2
  rw [hzero] at hlength
  exact h.1 (length_eq_zero_iff.mp hlength.symm)

theorem run_label (downcase : Bool) (h : AtLabel data labels p) (hdata : data.length < 2 ^ 32)
    (hlength : data[p.position]? = some (ofNat label.length)) (hlabel : IsLabel label)
    (hbytes : (data.drop (p.position + 1)).take label.length = label)
    (hroom : p.nused + label.length + 1 ≤ maxWire) :
    ∃ p', run downcase data p = run downcase data p' ∧
      AtLabel data (labels ++ [label.map (convert downcase)]) p' ∧
      p'.position = p.position + 1 + label.length ∧ p'.biggestPointer = p.biggestPointer ∧
      p'.seenPointer = p.seenPointer ∧ p'.cused = p.usedAfter (1 + label.length) := by
  have hbyte := toNat_ofNat_length hlabel.2
  obtain ⟨k, hk⟩ := Nat.exists_eq_succ_of_ne_zero fun hzero =>
    hlabel.1 (length_eq_zero_iff.mp hzero)
  have hle : p.position + 1 + label.length ≤ data.length := by
    have hlen := congrArg List.length hbytes
    rw [List.length_take, List.length_drop] at hlen
    omega
  have hround := step_length downcase h hdata hlength
    ⟨ofNat_length_ne_zero hlabel, by rw [hbyte]; exact hlabel.2⟩ (by rw [hbyte]; exact hroom)
  have hcounts := h.counts_lengthRead hlength
  have hread := run_ordinary hdata hcounts rfl (hbyte.trans hk) downcase
    (by show p.position + 1 + (k + 1) ≤ _; omega)
  have htake : (data.drop (p.lengthRead (ofNat label.length)).position).take (k + 1)
      = label := by
    rw [← hbytes, hk]
    rfl
  rw [htake] at hread
  refine ⟨_, (run_step (h.current_lt hlength) h.done hround).trans hread, ?_, ?_, rfl, rfl, ?_⟩
  · exact {
      toCounts := hcounts.read _ (by rw [length_map]; exact hle) 0 .start
      state := rfl
      ndata := by
        show p.ndata ++ [ofNat label.length] ++ label.map (convert downcase) = _
        rw [h.ndata]
        simp
      offsets := h.offsets_push _
      nused := by
        show p.nused + (ofNat label.length).toNat + 1 = _
        rw [hbyte, h.nused, encodeLabels_append]
        simp
        omega
      label := by
        intro l hl
        rcases mem_append.mp hl with hl | hl
        · exact h.label l hl
        · rw [mem_singleton.mp hl]
          simpa using hlabel
      wire := by
        show p.nused + (ofNat label.length).toNat + 1 ≤ _
        rw [hbyte]
        exact hroom }
  · show p.position + 1 + (label.map (convert downcase)).length = _
    rw [length_map]
  · show usedAfter (p.lengthRead _) (label.map (convert downcase)).length = _
    rw [length_map]
    exact usedAfter_add p (p.lengthRead _) rfl rfl _

theorem run_label_short (h : AtLabel data labels p) (hdata : data.length < 2 ^ 32)
    (hc : data[p.position]? = some c) (hlabel : c ≠ 0 ∧ c.toNat ≤ maxLabellen)
    (hshort : data.length < p.position + 1 + c.toNat) (hroom : p.nused + c.toNat + 1 ≤ maxWire) :
    run downcase data p = formerr "incomplete wire-format name" := by
  obtain ⟨k, hk⟩ := Nat.exists_eq_succ_of_ne_zero fun hzero =>
    hlabel.1 (UInt8.toNat_inj.mp hzero)
  rw [run_step (h.current_lt hc) h.done (step_length downcase h hdata hc hlabel hroom)]
  exact run_ordinary_short hdata (h.counts_lengthRead hc) rfl hk
    (by show data.length < p.position + 1 + (k + 1); omega)

/-- The first byte of a pointer. -/
def pointerRead (p : WireParser) (hi : UInt8) : WireParser :=
  { p with
    newCurrent := (hi &&& ~~~ compressPointerMark8).toNat
    n := 1
    state := .newcurrent
    position := p.position + 1
    current := p.position + 1
    cused := p.usedAfter 1 }

theorem mark_large (h : c &&& compressPointerMark8 = compressPointerMark8) :
    ¬ c.toNat ≤ maxLabellen ∧ (c &&& ~~~ compressPointerMark8).toNat ≤ 63 := by
  obtain ⟨n, rfl⟩ : ∃ n : Fin 256, c = ofNat n.val := ⟨⟨c.toNat, c.toNat_lt⟩, by simp⟩
  revert n
  decide +kernel

theorem step_pointer (downcase : Bool) (h : AtLabel data labels p) (hdata : data.length < 2 ^ 32)
    (hc : data[p.position]? = some hi) (hmark : hi &&& compressPointerMark8 = compressPointerMark8) :
    p.step downcase data = .ok (p.pointerRead hi) := by
  rw [h.step_eq downcase hdata hc]
  unfold caseStart pointerRead
  rw [if_neg (mark_large hmark).1, if_pos hmark]

theorem AtLabel.counts_pointerRead (h : AtLabel data labels p) (hc : data[p.position]? = some hi) :
    Counts data (p.pointerRead hi) where
  done := h.done
  current := rfl
  inRange := (List.getElem?_eq_some_iff.mp hc).1
  used := h.toCounts.used_after
  bound := h.bound

variable {target : Nat} {lo : UInt8}

section

variable (downcase : Bool) (h : AtLabel data labels p) (hdata : data.length < 2 ^ 32)
    (hhi : data[p.position]? = some hi) (hmark : hi &&& compressPointerMark8 = compressPointerMark8)
    (hlo : data[p.position + 1]? = some lo)
    (htarget : (hi &&& ~~~ compressPointerMark8).toNat * 256 + lo.toNat = target)

include h hdata hhi hmark hlo htarget

/-- The second byte of a pointer. -/
theorem step_newcurrent :
    (p.pointerRead hi).step downcase data
      = if target ≥ p.biggestPointer then
          formerr ("bad compression pointer (out of range): " ++ toString target)
        else
          .ok { p with
            newCurrent := target
            n := 0
            biggestPointer := target
            current := target
            position := target
            cused := p.usedAfter 2
            seenPointer := true
            state := .start } := by
  have hlt := (List.getElem?_eq_some_iff.mp hlo).1
  have huint : uint ((hi &&& ~~~ compressPointerMark8).toNat * 256 + lo.toNat) = target := by
    have := (mark_large hmark).2
    have := lo.toNat_lt
    rw [← htarget]
    exact uint_of_lt (by omega)
  have hused : (p.pointerRead hi).usedAfter 1 = p.usedAfter 2 :=
    usedAfter_add p (p.pointerRead hi) rfl rfl 1
  have hstep : (p.pointerRead hi).step downcase data
      = (p.pointerRead hi).advance.caseNewcurrent data lo := WireParser.step_eq hlo
  rw [hstep, (h.counts_pointerRead hhi).advance_eq hdata hlt, hused]
  unfold caseNewcurrent pointerRead
  dsimp only
  rw [huint, if_neg (by decide)]
  split
  · rfl
  next hbound =>
    have hle : ¬ target > data.length := by
      have := h.bound
      omega
    unfold setPosition
    rw [if_neg hle]
    rfl

theorem run_pointer (hbound : target < p.biggestPointer) :
    ∃ p', run downcase data p = run downcase data p' ∧ AtLabel data labels p' ∧
      p'.position = target ∧ p'.biggestPointer = target ∧ p'.seenPointer = true ∧
      p'.cused = p.usedAfter 2 := by
  have hcounts := h.counts_pointerRead hhi
  have hsecond := step_newcurrent downcase h hdata hhi hmark hlo htarget
  rw [if_neg (by omega)] at hsecond
  have hlt := (List.getElem?_eq_some_iff.mp hlo).1
  refine ⟨_, (run_step (h.current_lt hhi) h.done (step_pointer downcase h hdata hhi hmark)).trans
    (run_step (by show p.position + 1 < _; exact hlt) hcounts.done hsecond), ?_, rfl, rfl, rfl, rfl⟩
  have hle : target ≤ data.length := by
    have := h.bound
    omega
  exact {
    done := h.done, current := rfl, inRange := hle, used := nofun
    bound := hle, state := rfl, ndata := h.ndata, offsets := h.offsets, nused := h.nused
    label := h.label, wire := h.wire }

end

/-! ## All wire data -/

def IsFormerr : Failure → Prop
  | .exception .dnsMessageFORMERR _ => True
  | _ => False

theorem run_throws_formerr (hcurrent : p.current < data.length) (hdone : p.done = false)
    {what : String} (h : p.step downcase data = formerr what) {P : WireParser → Prop} :
    Ends P IsFormerr (run downcase data p) := by
  rw [run_throw hcurrent hdone h]
  exact trivial

/-- The result of a parse from a state before a label, for the name that stands there. -/
def Finds (downcase : Bool) (data : List UInt8) (labels : List Label) (p p' : WireParser) : Prop :=
  ∃ more stop, WireName data p.biggestPointer p.position more stop ∧
    Complete (labels ++ more.map (·.map (convert downcase))) p' ∧
    p'.cused = p.usedAfter (stop - p.position)

variable {q : WireParser}

/-- The bytes used behind a label, up to the end of the name. -/
theorem usedAfter_label (hposition : q.position = p.position + 1 + n)
    (hseen : q.seenPointer = p.seenPointer) (hused : q.cused = p.usedAfter (1 + n))
    (hstop : q.position < stop) :
    q.usedAfter (stop - q.position) = p.usedAfter (stop - p.position) := by
  rw [usedAfter_add p q hseen hused]
  congr 1
  omega

theorem usedAfter_of_seen (hseen : q.seenPointer = true) (hused : q.cused = p.usedAfter 2) (n : Nat) :
    q.usedAfter n = p.usedAfter (p.position + 2 - p.position) := by
  rw [Nat.add_sub_cancel_left, ← hused]
  exact if_pos hseen

/-- The measure of the loop. -/
def left (data : List UInt8) (p : WireParser) : Nat :=
  p.biggestPointer * (data.length + 1) + (data.length - p.position)

/-- The names with less left end with what stands there, or with a format error. -/
def EndBefore (downcase : Bool) (data : List UInt8) (p : WireParser) : Prop :=
  ∀ (labels : List Label) (q : WireParser), AtLabel data labels q → left data q < left data p →
    Ends (Finds downcase data labels q) IsFormerr (run downcase data q)

/-- A name that begins with a label or with the root label. -/
theorem run_length_ends (hdata : data.length < 2 ^ 32) (h : AtLabel data labels p)
    (ih : EndBefore downcase data p)
    (hc : data[p.position]? = some c) (hle : c.toNat ≤ maxLabellen) :
    Ends (Finds downcase data labels p) IsFormerr (run downcase data p) := by
  by_cases hroom : p.nused + c.toNat + 1 ≤ maxWire
  · by_cases hzero : c = 0
    · subst hzero
      obtain ⟨p', hrun, hcomplete, hused⟩ := run_root h hdata hc hroom
      rw [hrun]
      refine ⟨[], p.position + 1, .root hc, by simpa using hcomplete, ?_⟩
      rw [hused, Nat.add_sub_cancel_left]
    by_cases hshort : data.length < p.position + 1 + c.toNat
    · rw [run_label_short h hdata hc ⟨hzero, hle⟩ hshort hroom]
      exact trivial
    -- the label is there as a whole
    obtain ⟨label, hlabel⟩ : ∃ label, label = (data.drop (p.position + 1)).take c.toNat := ⟨_, rfl⟩
    have hlen : label.length = c.toNat := by
      rw [hlabel, List.length_take, List.length_drop]
      omega
    have hbyte : c = UInt8.ofNat label.length := by rw [hlen, UInt8.ofNat_toNat]
    have hvalid : IsLabel label := by
      refine ⟨fun hnil => hzero ?_, by omega⟩
      rw [hbyte, hnil]
      rfl
    have hbytes : (data.drop (p.position + 1)).take label.length = label := by
      rw [hlen, ← hlabel]
    rw [hbyte] at hc
    obtain ⟨q, hrun, hq, hposition, hbound, hseen, hused⟩ :=
      run_label downcase h hdata hc hvalid hbytes (by omega)
    have hless : left data q < left data p := by
      unfold left
      rw [hbound]
      omega
    rw [hrun]
    refine (ih _ q hq hless).mono ?_
    rintro p' ⟨more, stop, hname, hcomplete, hcused⟩
    have hstop := hname.stop_bounds.1
    have hend := usedAfter_label hposition hseen hused hstop
    rw [hbound, hposition] at hname
    exact ⟨label :: more, stop, .label hc hvalid hbytes hname, by simpa using hcomplete,
      hcused.trans hend⟩
  · have hround := h.step_eq downcase hdata hc
    unfold caseStart at hround
    dsimp only at hround
    rw [if_pos hle, if_pos (by omega)] at hround
    exact run_throws_formerr (h.current_lt hc) h.done hround

/-- A name that begins with a pointer. -/
theorem run_pointer_ends (hdata : data.length < 2 ^ 32) (h : AtLabel data labels p)
    (ih : EndBefore downcase data p)
    (hhi : data[p.position]? = some hi) (hmark : hi &&& compressPointerMark8 = compressPointerMark8) :
    Ends (Finds downcase data labels p) IsFormerr (run downcase data p) := by
  have hcounts := h.counts_pointerRead hhi
  have hfirst := run_step (h.current_lt hhi) h.done (step_pointer downcase h hdata hhi hmark)
  match hlo : data[p.position + 1]? with
  | none =>
    have hle := getElem?_eq_none_iff.mp hlo
    rw [hfirst, run_short hle hcounts.done]
    exact trivial
  | some lo =>
    have hlt := (List.getElem?_eq_some_iff.mp hlo).1
    obtain ⟨target, htarget⟩ :
        ∃ target, (hi &&& ~~~ compressPointerMark8).toNat * 256 + lo.toNat = target := ⟨_, rfl⟩
    by_cases hbound : target < p.biggestPointer
    · obtain ⟨q, hrun, hq, hposition, hbiggest, hseen, hused⟩ :=
        run_pointer downcase h hdata hhi hmark hlo htarget hbound
      have hless : left data q < left data p := by
        have hmul : (target + 1) * (data.length + 1) ≤ p.biggestPointer * (data.length + 1) :=
          Nat.mul_le_mul_right _ hbound
        unfold left
        rw [Nat.succ_mul] at hmul
        rw [hbiggest]
        omega
      rw [hrun]
      refine (ih _ q hq hless).mono ?_
      rintro p' ⟨more, stop, hname, hcomplete, hcused⟩
      rw [hbiggest, hposition] at hname
      subst htarget
      exact ⟨more, p.position + 2, .pointer hhi hmark hlo hbound hname, hcomplete,
        hcused.trans (usedAfter_of_seen hseen hused _)⟩
    · have hsecond := step_newcurrent downcase h hdata hhi hmark hlo htarget
      rw [if_pos (by omega)] at hsecond
      rw [hfirst]
      exact run_throws_formerr hlt hcounts.done hsecond

/-- By induction over the bytes that are left before the last pointer. -/
theorem run_ends (downcase : Bool) (hdata : data.length < 2 ^ 32) (m : Nat)
    (h : AtLabel data labels p) (hm : left data p < m) :
    Ends (Finds downcase data labels p) IsFormerr (run downcase data p) := by
  induction m generalizing labels p with
  | zero => exact absurd hm (Nat.not_lt_zero _)
  | succ m ih =>
    have ih' : EndBefore downcase data p := fun labels' q hq hless => ih hq (by omega)
    match hc : data[p.position]? with
    | none =>
      have hle := getElem?_eq_none_iff.mp hc
      rw [run_short (h.current ▸ hle) h.done]
      exact trivial
    | some c =>
      by_cases hlabel : c.toNat ≤ maxLabellen
      · exact run_length_ends hdata h ih' hc hlabel
      by_cases hmark : c &&& compressPointerMark8 = compressPointerMark8
      · exact run_pointer_ends hdata h ih' hc hmark
      have hround := h.step_eq downcase hdata hc
      unfold caseStart at hround
      rw [if_neg hlabel, if_neg hmark] at hround
      exact run_throws_formerr (h.current_lt hc) h.done hround

/-- Names that fit are read, whatever their pointers. -/
theorem run_of_wireName (hdata : data.length < 2 ^ 32) {more : List Label}
    (hname : WireName data bound pos more stop) (h : AtLabel data labels p)
    (hbound : p.biggestPointer = bound) (hpos : p.position = pos)
    (hroom : p.nused + (encodeLabels more).length + 1 ≤ maxWire) :
    ∃ p', run downcase data p = .ok p' ∧
      Complete (labels ++ more.map (·.map (convert downcase))) p' ∧
      p'.cused = p.usedAfter (stop - pos) := by
  induction hname generalizing labels p with
  | root hc =>
    subst hpos
    obtain ⟨p', hrun, hcomplete, hused⟩ := run_root h hdata hc hroom
    exact ⟨p', hrun, by simpa using hcomplete, by rw [hused, Nat.add_sub_cancel_left]⟩
  | @label bound pos label labels' stop hlength hlabel hbytes hrest ih =>
    subst hpos
    rw [encodeLabels_cons, length_append, length_cons] at hroom
    obtain ⟨q, hrun, hq, hposition, hqbound, hseen, hused⟩ :=
      run_label downcase h hdata hlength hlabel hbytes (by omega)
    have hnused : q.nused = p.nused + label.length + 1 := by
      rw [hq.nused, h.nused, encodeLabels_append]
      simp
      omega
    obtain ⟨p', hrest', hcomplete, hcused⟩ := ih hq (hqbound.trans hbound) hposition (by omega)
    have hstop := hrest.stop_bounds.1
    rw [← hposition] at hcused hstop
    exact ⟨p', hrun.trans hrest', by simpa using hcomplete,
      hcused.trans (usedAfter_label hposition hseen hused hstop)⟩
  | @pointer bound pos hi lo labels' stop hhi hmark hlo hless hrest ih =>
    subst hpos
    obtain ⟨q, hrun, hq, hposition, hqbound, hseen, hused⟩ :=
      run_pointer downcase h hdata hhi hmark hlo rfl (hbound ▸ hless)
    obtain ⟨p', hrest', hcomplete, hcused⟩ := ih hq hqbound hposition
      (by rw [hq.nused, ← h.nused]; exact hroom)
    exact ⟨p', hrun.trans hrest', hcomplete, hcused.trans (usedAfter_of_seen hseen hused _)⟩

end Labels

end WireParser

open WireParser

/-! ## The constructor -/

/-- The state in which the constructor begins. -/
def wireStart (position : Nat) : WireParser :=
  { current := uint position, biggestPointer := uint position, position := position }

variable {buffer : InputBuffer}

theorem Name.ofWire_eq :
    ofWire buffer downcase
      = (WireParser.run downcase buffer.data (wireStart buffer.position) >>= fun p =>
          setPosition buffer.data (uint (uint buffer.position + p.cused)) >>= fun position =>
            pure ({ ndata := p.ndata, offsets := p.offsets, length := p.nused,
                    labelcount := p.offsets.length }, position)) := by
  unfold ofWire WireParser.run wireStart
  dsimp only
  cases (WireParser.loop downcase buffer.data).run _ with
  | error failure => rfl
  | ok result =>
    cases result with
    | inl p =>
      simp only [except_ok_bind]
      cases p.done <;> rfl
    | inr r => cases r

section Constructor

theorem atLabel_wireStart (hdata : buffer.data.length < 2 ^ 32) :
    AtLabel buffer.data [] (wireStart buffer.position) := by
  have hrange := buffer.inRange
  have huint : uint buffer.position = buffer.position := uint_of_lt (by omega)
  exact {
    done := rfl
    current := huint
    inRange := hrange
    used := fun _ => Nat.zero_le _
    bound := by show uint buffer.position ≤ _; rw [huint]; exact hrange
    state := rfl
    ndata := rfl
    offsets := rfl
    nused := rfl
    label := nofun
    wire := Nat.zero_le _ }

theorem WireParser.Complete.represents (h : Complete labels p) :
    Name.Represents { ndata := p.ndata, offsets := p.offsets, length := p.nused,
                      labelcount := p.offsets.length } labels where
  ndata := h.ndata
  offsets := h.offsets
  length := h.nused
  labelcount := by
    have hlength := congrArg List.length h.offsets
    simpa using hlength
  label := h.label
  wire := h.wire

theorem setPosition_stop (hdata : buffer.data.length < 2 ^ 32)
    (hname : WireName buffer.data buffer.position buffer.position labels stop) {cused : Nat}
    (hcused : cused = (wireStart buffer.position).usedAfter (stop - buffer.position)) :
    setPosition buffer.data (uint (uint buffer.position + cused)) = .ok stop := by
  have hstop := hname.stop_bounds
  have hused : cused = stop - buffer.position := by
    rw [hcused]
    exact Nat.zero_add _
  have huint : uint buffer.position = buffer.position := uint_of_lt (by omega)
  have hposition : uint (uint buffer.position + cused) = stop := by
    rw [huint, hused, Nat.add_sub_cancel' hstop.1.le, uint_of_lt (by omega)]
  unfold setPosition
  rw [hposition, if_neg (by omega)]

theorem Name.ofWire_of_wireName (hdata : buffer.data.length < 2 ^ 32)
    (hname : WireName buffer.data buffer.position buffer.position labels stop)
    (hroom : (encodeLabels labels).length + 1 ≤ maxWire) :
    ∃ name, ofWire buffer downcase = .ok (name, stop) ∧
      name.Represents (labels.map (·.map (convert downcase))) := by
  have huint : uint buffer.position = buffer.position := by
    have := buffer.inRange
    exact uint_of_lt (by omega)
  obtain ⟨p, hrun, hcomplete, hcused⟩ := run_of_wireName hdata hname
    (atLabel_wireStart hdata) huint rfl (by show 0 + _ + 1 ≤ _; omega)
  refine ⟨_, ?_, hcomplete.represents⟩
  rw [ofWire_eq, hrun, except_ok_bind, setPosition_stop hdata hname hcused]
  rfl

/-- Wire data give a name or a format error. The name is the one that stands at the position, and
the position moves to its end there. -/
theorem wire_name_parsed (buffer : InputBuffer) (hdata : buffer.data.length < 2 ^ 32)
    (downcase : Bool) :
    Ends (fun (name, position) => ∃ labels,
        WireName buffer.data buffer.position buffer.position labels position ∧
        name.Represents (labels.map (·.map (convert downcase))) ∧
        name.labelcount ≤ maxLabels)
      IsFormerr (ofWire buffer downcase) := by
  have hends := run_ends downcase hdata _ (atLabel_wireStart hdata) (Nat.lt_succ_self _)
  have huint : uint buffer.position = buffer.position := by
    have := buffer.inRange
    exact uint_of_lt (by omega)
  rw [ofWire_eq]
  refine hends.bind ?_
  rintro p ⟨labels, stop, hname, hcomplete, hcused⟩
  have hname : WireName buffer.data buffer.position buffer.position labels stop := by
    have : WireName buffer.data (uint buffer.position) buffer.position labels stop := hname
    rwa [huint] at this
  have hrep := hcomplete.represents
  rw [setPosition_stop hdata hname hcused]
  exact ⟨labels, hname, hrep, hrep.labelcount_le⟩

end Constructor

/-- The name `a.bc.`, whose end stands before it. -/
def compressedSample : InputBuffer where
  data := [2, 0x62, 0x63, 0, 1, 0x61, 0xc0, 0]
  position := 4
  inRange := by decide

theorem wire_name_parsed_sample :
    compressedSample.data.length < 2 ^ 32 ∧
      Ends (fun (name, position) => ∃ labels,
          WireName compressedSample.data compressedSample.position compressedSample.position labels
            position ∧
          name.Represents (labels.map (·.map (convert false))) ∧
          name.labelcount ≤ maxLabels)
        IsFormerr (ofWire compressedSample false) :=
  ⟨by decide, wire_name_parsed compressedSample (by decide) false⟩

/-- A root label at a position that is 0 as an `unsigned int`. -/
theorem ofWire_wraps (hposition : uint buffer.position = 0)
    (hc : buffer.data[buffer.position]? = some 0) :
    ofWire buffer false
      = .ok ({ ndata := [0], offsets := [0], length := 1, labelcount := 1 }, 1) := by
  have hlt := (List.getElem?_eq_some_iff.mp hc).1
  have hround : (wireStart buffer.position).step false buffer.data
      = (wireStart buffer.position).advance.caseStart 0 := WireParser.step_eq hc
  have hrun := (run_step (by show uint buffer.position < _; omega) rfl hround).trans (run_done rfl)
  have hone : uint (0 + 1) = 1 := by decide
  have hset : setPosition buffer.data (uint (uint buffer.position + uint (0 + 1))) = .ok 1 := by
    rw [hposition, hone]
    exact if_neg (by omega)
  rw [ofWire_eq, hrun]
  show (setPosition buffer.data (uint (uint buffer.position + uint (0 + 1))) >>= _) = _
  rw [hset]
  rfl

/-- Zero bytes, to be read from the last of them on. -/
def zeros (n : Nat) : InputBuffer where
  data := replicate (n + 1) 0
  position := n
  inRange := by simp

theorem ofWire_zeros (h : uint n = 0) :
    ofWire (zeros n) false
      = .ok ({ ndata := [0], offsets := [0], length := 1, labelcount := 1 }, 1) := by
  refine ofWire_wraps h ?_
  show (replicate (n + 1) (0 : UInt8))[n]? = some 0
  rw [getElem?_replicate, if_pos (Nat.lt_succ_self _)]

/-- Behind 4 GiB the position is not left after the name. -/
theorem position_wraps :
    (zeros (2 ^ 32)).position = 2 ^ 32 ∧
      ofWire (zeros (2 ^ 32)) false
        = .ok ({ ndata := [0], offsets := [0], length := 1, labelcount := 1 }, 1) :=
  ⟨rfl, ofWire_zeros (by decide)⟩

end Dns
