import KeaDhcp.Dns.NameLabels

/-!
# Names from text

What `stringParse` makes of any text. The text of a name is a sequence of labels with periods behind
them, and a label is a sequence of characters, some of them escaped. The parser reads such texts
character by character, and any other text ends in an exception (`run_ends`). The one thing that
ends the program is a label that begins where only the root label has room.
-/

namespace Dns

open Infra Util Name List UInt8

variable {c : UInt8} {value : Nat} {rest namestring : List UInt8}

/-! ## The text of labels -/

/-- A character of a label, as it stands in text. -/
inductive LabelChar where
  | plain (c : UInt8)
  | escaped (c : UInt8)
  | decimal (value : UInt8)

namespace LabelChar

def text : LabelChar → List UInt8
  | plain c => [c]
  | escaped c => [backslash, c]
  | decimal value =>
    [backslash, 0x30 + value / 100 % 10, 0x30 + value / 10 % 10, 0x30 + value % 10]

def octet : LabelChar → UInt8
  | plain c => c
  | escaped c => c
  | decimal value => value

/-- What a label may contain, and what it may begin with. -/
def Legal (first : Bool) : LabelChar → Prop
  | plain c => c ≠ period ∧ c ≠ backslash
  | escaped c => isdigit c = false ∧ (first → c ≠ openBracket)
  | decimal _ => True

end LabelChar

/-- A label in text. -/
structure TextLabel where
  first : LabelChar
  rest : List LabelChar
  legalFirst : first.Legal true
  legalRest : ∀ c ∈ rest, c.Legal false
  short : rest.length + 1 ≤ maxLabellen

namespace TextLabel

variable (l : TextLabel)

def chars : List LabelChar := l.first :: l.rest

def text (l : TextLabel) : List UInt8 := l.chars.flatMap LabelChar.text

def octets (downcase : Bool) (l : TextLabel) : Label :=
  l.chars.map fun c => convert downcase c.octet

theorem length_octets (downcase : Bool) (l : TextLabel) :
    (l.octets downcase).length = l.rest.length + 1 := by
  simp [octets, chars]

/-- The label with one more character. -/
def push (c : LabelChar) (hlegal : c.Legal false) (hshort : l.rest.length + 1 < maxLabellen) :
    TextLabel where
  first := l.first
  rest := l.rest ++ [c]
  legalFirst := l.legalFirst
  legalRest := by
    intro d hd
    rcases mem_append.mp hd with hd | hd
    · exact l.legalRest d hd
    · rwa [mem_singleton.mp hd]
  short := by
    rw [length_append]
    exact hshort

/-- The label with only its first character. -/
def single (c : LabelChar) (hlegal : c.Legal true) : TextLabel where
  first := c
  rest := []
  legalFirst := hlegal
  legalRest := nofun
  short := by decide

/-- The bytes that the label takes in wire data. -/
def size : Nat := l.chars.length + 1

end TextLabel

/-- The text of labels with a period behind each. -/
def textOf (labels : List TextLabel) : List UInt8 := labels.flatMap fun l => l.text ++ [period]

/-- A text that goes on where only the root label has room in the wire data. -/
def Overfull (text : List UInt8) : Prop :=
  ∃ (labels : List TextLabel) (c : UInt8) (rest : List UInt8),
    text = textOf labels ++ c :: rest ∧ c ≠ backslash ∧
      (labels.map TextLabel.size).sum + 1 = maxWire

variable {downcase : Bool}

theorem length_encode_octets {labels : List TextLabel} :
    (encodeLabels (labels.map (·.octets downcase))).length = (labels.map TextLabel.size).sum := by
  induction labels with
  | nil => rfl
  | cons l labels ih =>
    simp only [map_cons, encodeLabels_cons, length_append, length_cons, ih,
      sum_cons, TextLabel.length_octets, TextLabel.size, TextLabel.chars]

/-! ## States of the parser -/

variable {labels : List Label} {p : StringParser}

namespace StringParser

/-- What holds while a label is read: `labels` are complete and `cur` has been read of the next. -/
structure Writing (labels : List Label) (cur : Label) (p : StringParser) : Prop where
  done : p.done = false
  ndata : p.ndata = encodeLabels labels ++ 0 :: cur
  offsets : p.offsets.map (·.toNat) = labelOffsets 0 (labels ++ [[]])
  count : p.count = cur.length
  short : cur.length ≤ maxLabellen
  label : ∀ label ∈ labels, label ≠ [] ∧ label.length ≤ maxLabellen

/-- Inside a label. -/
structure InLabel (labels : List Label) (cur : Label) (p : StringParser) : Prop
    extends Writing labels cur p where
  state : p.state = .ordinary
  ne_nil : cur ≠ []

/-- Before a label. -/
structure AtStart (labels : List Label) (p : StringParser) : Prop where
  state : p.state = .start ∨ p.state = .init ∧ labels = []
  done : p.done = false
  ndata : p.ndata = encodeLabels labels
  offsets : p.offsets.map (·.toNat) = labelOffsets 0 (labels ++ [[]])
  label : ∀ label ∈ labels, label ≠ [] ∧ label.length ≤ maxLabellen

/-- The end: all labels and the root label are written. -/
structure Parsed (labels : List Label) (p : StringParser) : Prop where
  ndata : p.ndata = encodeLabels labels ++ [0]
  offsets : p.offsets.map (·.toNat) = labelOffsets 0 (labels ++ [[]])
  label : ∀ label ∈ labels, label ≠ [] ∧ label.length ≤ maxLabellen
  wire : p.ndata.length ≤ maxWire

def Throws {α : Type} (r : Except Failure α) : Prop :=
  ∃ type what, r = .error (.exception type what)

section Steps

variable {text : List UInt8} {cur : Label}

theorem Writing.length_ndata (h : Writing labels cur p) :
    p.ndata.length = (encodeLabels labels).length + cur.length + 1 := by
  rw [h.ndata, length_append, length_cons]
  omega

theorem pushCharacter_eq (downcase : Bool) (text : List UInt8) (h : Writing labels cur p)
    (hshort : cur.length < maxLabellen) (c : UInt8) :
    ∃ p', pushCharacter downcase text p c = .ok p' ∧ p'.state = p.state ∧
      Writing labels (cur ++ [convert downcase c]) p' := by
  have hcount : ¬ p.count + 1 > maxLabellen := by
    rw [h.count]
    omega
  refine ⟨_, if_neg hcount, rfl, ?_⟩
  exact {
    done := h.done
    ndata := by simp [h.ndata]
    offsets := h.offsets
    count := by simp [h.count]
    short := by simpa using Nat.succ_le_of_lt hshort
    label := h.label }

theorem pushCharacter_throws (h : Writing labels cur p) (hlong : ¬ cur.length < maxLabellen) :
    Throws (pushCharacter downcase text p c) := by
  have hcount : p.count + 1 > maxLabellen := by
    rw [h.count]
    omega
  exact ⟨_, _, if_pos hcount⟩

theorem setLabelLength_eq (h : Writing labels cur p) :
    p.setLabelLength = .ok { p with ndata := encodeLabels (labels ++ [cur]) } := by
  have hlast : p.offsets.getLast?.map (·.toNat) = some (encodeLabels labels).length := by
    rw [← getLast?_map, h.offsets, labelOffsets_append]
    simp [labelOffsets]
  obtain ⟨offset, hoffset, heq⟩ := Option.map_eq_some_iff.mp hlast
  have hlt : offset.toNat < p.ndata.length := by
    have := h.length_ndata
    omega
  have hset : p.ndata.set offset.toNat (ofNat p.count) = encodeLabels (labels ++ [cur]) := by
    rw [heq, h.ndata, h.count, set_append_right _ _ le_rfl]
    simp
  unfold setLabelLength
  simp only [hoffset, if_pos hlt, hset]

/-! ## What is left of a parse -/

/-- The loop from here on, and what follows it. -/
def run (downcase : Bool) (text s : List UInt8) (p : StringParser) :
    Except Failure StringParser := do
  let (p, rest) ← loop downcase text s p
  p.finish text rest

variable {digits : Nat} {last : Bool} {s : List UInt8}

theorem run_cons (hroom : p.ndata.length < maxWire) (hdone : p.done = false) :
    run downcase text (c :: s) p
      = (step downcase text p c s.isEmpty >>= run downcase text s) := by
  have hcond : p.ndata.length < maxWire ∧ !p.done := ⟨hroom, by rw [hdone]; rfl⟩
  unfold run
  rw [loop, if_pos hcond, bind_assoc]

theorem run_full (hfull : p.ndata.length = maxWire) (hdone : p.done = false)
    (s : List UInt8) : Throws (run downcase text s p) := by
  have hloop : loop downcase text s p = .ok (p, s) := by
    cases s with
    | nil => rfl
    | cons c s =>
      rw [loop]
      rw [hfull]
      simp
  refine ⟨.tooLongName, ascii "name is too long for termination in " ++ text, ?_⟩
  unfold run
  rw [hloop]
  show finish text p s = _
  unfold finish
  rw [if_neg (by simp [hdone]), if_pos hfull]
  rfl

/-- The parser reads `s`, and `Q` holds then. -/
def Reads (downcase : Bool) (text s : List UInt8) (p : StringParser) (Q : StringParser → Prop) :
    Prop :=
  ∃ p', Q p' ∧ ∀ rest, run downcase text (s ++ rest) p = run downcase text rest p'

section

variable {Q R : StringParser → Prop}

theorem Reads.of_step (p' : StringParser) (hroom : p.ndata.length < maxWire) (hdone : p.done = false)
    (hstep : ∀ last, step downcase text p c last = .ok p') (h : Q p') :
    Reads downcase text [c] p Q :=
  ⟨p', h, fun rest => (run_cons hroom hdone).trans (by rw [hstep, except_ok_bind]; rfl)⟩

theorem Reads.trans {s' : List UInt8} (h : Reads downcase text s p Q)
    (h' : ∀ p', Q p' → Reads downcase text s' p' R) : Reads downcase text (s ++ s') p R := by
  obtain ⟨q, hq, hrun⟩ := h
  obtain ⟨p', hp', hrun'⟩ := h' q hq
  exact ⟨p', hp', fun rest => by rw [append_assoc, hrun, hrun']⟩

end

/-! ## Characters -/

theorem Writing.with_state (h : Writing labels cur p) {state : FtState} :
    Writing labels cur { p with state := state } :=
  { done := h.done, ndata := h.ndata, offsets := h.offsets, count := h.count, short := h.short,
    label := h.label }

theorem Writing.with_number (h : Writing labels cur p) :
    Writing labels cur { p with digits := digits, value := value } :=
  { done := h.done, ndata := h.ndata, offsets := h.offsets, count := h.count, short := h.short,
    label := h.label }

theorem push_then_ordinary (h : Writing labels cur p) (hshort : cur.length < maxLabellen) :
    ∃ p', (do
        let p ← pushCharacter downcase text p c
        return { p with state := .ordinary } : Except Failure StringParser) = .ok p' ∧
      InLabel labels (cur ++ [convert downcase c]) p' := by
  obtain ⟨q, hpush, -, hq⟩ := pushCharacter_eq downcase text h hshort c
  refine ⟨{ q with state := .ordinary }, by rw [hpush]; rfl, ?_⟩
  exact { toWriting := hq.with_state, state := rfl, ne_nil := by simp }

/-- Behind a backslash in a label. -/
def Escaping (labels : List Label) (cur : Label) (p : StringParser) : Prop :=
  Writing labels cur p ∧
    (p.state = .escape ∧ cur ≠ [] ∨ p.state = .initialescape ∧ cur = [])

theorem step_escaping (h : Escaping labels cur p) (hc : cur = [] → c ≠ openBracket) :
    step downcase text p c last = caseEscape downcase text p c := by
  unfold step
  rcases h.2 with ⟨hstate, -⟩ | ⟨hstate, hnil⟩
  · rw [hstate]
  · rw [hstate]
    exact if_neg (hc hnil)

/-- After `digits` digits of a decimal escape that make `value`. -/
structure InDecimal (labels : List Label) (cur : Label) (digits value : Nat) (p : StringParser) :
    Prop extends Writing labels cur p where
  state : p.state = .escdecimal
  digits : p.digits = digits
  value : p.value = value

theorem step_inDecimal (h : InDecimal labels cur digits value p) :
    step downcase text p c last = caseEscdecimal downcase text p c := by
  unfold step
  rw [h.state]

theorem step_third_digit (h : InDecimal labels cur 2 value p) (hdigit : isdigit c = true)
    (hle : value * 10 + digitvalue c ≤ 255) :
    step downcase text p c last
      = (do
        let p ← pushCharacter downcase text
          { p with digits := 3, value := value * 10 + digitvalue c }
          (ofNat (value * 10 + digitvalue c))
        return { p with state := .ordinary }) := by
  have hsmall : ¬ value * 10 + digitvalue c > 255 := by omega
  rw [step_inDecimal h]
  simp [caseEscdecimal, hdigit, h.digits, h.value, hsmall]

theorem decimal_digits (v : UInt8) :
    isdigit (0x30 + v / 100 % 10) = true ∧ isdigit (0x30 + v / 10 % 10) = true ∧
      isdigit (0x30 + v % 10) = true ∧
      (digitvalue (0x30 + v / 100 % 10) * 10 + digitvalue (0x30 + v / 10 % 10)) * 10
        + digitvalue (0x30 + v % 10) = v.toNat := by
  obtain ⟨n, rfl⟩ : ∃ n : Fin 256, v = ofNat n.val := ⟨⟨v.toNat, v.toNat_lt⟩, by simp⟩
  revert n
  decide +kernel

theorem InLabel.step_eq (h : InLabel labels cur p) (c : UInt8) (last : Bool) :
    step downcase text p c last = caseOrdinary downcase text p c last := by
  unfold step
  rw [h.state]

theorem InLabel.escaping (h : InLabel labels cur p) :
    Escaping labels cur { p with state := .escape } :=
  ⟨h.toWriting.with_state, .inl ⟨rfl, h.ne_nil⟩⟩

variable {ch : LabelChar} {p' : StringParser} {done : List TextLabel}

section

variable (hroom : p.ndata.length < maxWire)
include hroom

theorem run_escaped (h : Escaping labels cur p) (hshort : cur.length < maxLabellen)
    (hdigit : isdigit c = false) (hc : cur = [] → c ≠ openBracket) :
    Reads downcase text [c] p (InLabel labels (cur ++ [convert downcase c])) := by
  obtain ⟨p', hpush, hp'⟩ := push_then_ordinary h.1 hshort
  refine .of_step p' hroom h.1.done (fun last => ?_) hp'
  rw [step_escaping h hc, caseEscape, if_pos (by rw [hdigit]; rfl)]
  exact hpush

theorem run_first_digit (h : Escaping labels cur p) (hdigit : isdigit c = true) :
    Reads downcase text [c] p (InDecimal labels cur 1 (digitvalue c)) := by
  have hc : cur = [] → c ≠ openBracket := by
    rintro - rfl
    cases hdigit
  refine .of_step { p with digits := 1, value := digitvalue c, state := .escdecimal } hroom
    h.1.done (fun last => ?_) ⟨h.1.with_number.with_state, rfl, rfl, rfl⟩
  rw [step_escaping h hc]
  simp [caseEscape, caseEscdecimal, hdigit]

theorem run_second_digit (h : InDecimal labels cur 1 value p) (hdigit : isdigit c = true) :
    Reads downcase text [c] p (InDecimal labels cur 2 (value * 10 + digitvalue c)) := by
  refine .of_step { p with digits := 2, value := value * 10 + digitvalue c } hroom
    h.done (fun last => ?_) ⟨h.toWriting.with_number, h.state, rfl, rfl⟩
  rw [step_inDecimal h]
  simp [caseEscdecimal, hdigit, h.digits, h.value]

theorem run_third_digit (h : InDecimal labels cur 2 value p) (hshort : cur.length < maxLabellen)
    (hdigit : isdigit c = true) (hle : value * 10 + digitvalue c ≤ 255) :
    Reads downcase text [c] p
      (InLabel labels (cur ++ [convert downcase (ofNat (value * 10 + digitvalue c))])) := by
  obtain ⟨p', hpush, hp'⟩ := push_then_ordinary h.toWriting.with_number hshort
  exact .of_step p' hroom h.done (fun _ => (step_third_digit h hdigit hle).trans hpush) hp'

/-- Any character behind a backslash. -/
theorem run_decimal (h : Escaping labels cur p) (hshort : cur.length < maxLabellen) {v : UInt8} :
    Reads downcase text (LabelChar.decimal v).text.tail p
      (InLabel labels (cur ++ [convert downcase v])) := by
  obtain ⟨hd1, hd2, hd3, hvalue⟩ := decimal_digits v
  have hle := v.toNat_lt
  refine (run_first_digit hroom h hd1).trans fun p1 h1 => ?_
  have hroom1 : p1.ndata.length < maxWire := by rwa [h1.ndata, ← h.1.ndata]
  refine (run_second_digit hroom1 h1 hd2).trans fun p2 h2 => ?_
  have hroom2 : p2.ndata.length < maxWire := by rwa [h2.ndata, ← h.1.ndata]
  have hthird : Reads downcase text _ p2 _ := run_third_digit hroom2 h2 hshort hd3 (by omega)
  rwa [hvalue, UInt8.ofNat_toNat] at hthird

theorem run_backslash (h : InLabel labels cur p) :
    run downcase text (backslash :: rest) p
      = run downcase text rest { p with state := .escape } := by
  rw [run_cons hroom h.done, h.step_eq]
  rfl

theorem run_plain (h : InLabel labels cur p) (hshort : cur.length < maxLabellen)
    (hc : c ≠ period ∧ c ≠ backslash) :
    Reads downcase text [c] p (InLabel labels (cur ++ [convert downcase c])) := by
  obtain ⟨p', hpush, hstate, hp'⟩ := pushCharacter_eq downcase text h.toWriting hshort c
  refine .of_step p' hroom h.done (fun last => ?_) ⟨hp', hstate.trans h.state, by simp⟩
  rw [h.step_eq, caseOrdinary, if_neg hc.1, if_neg hc.2]
  exact hpush

theorem run_char (h : InLabel labels cur p) (hshort : cur.length < maxLabellen)
    (hlegal : ch.Legal false) :
    Reads downcase text ch.text p (InLabel labels (cur ++ [convert downcase ch.octet])) := by
  cases ch with
  | plain c => exact run_plain hroom h hshort hlegal
  | escaped c =>
    obtain ⟨p', hp', hrun⟩ := run_escaped (by exact hroom) h.escaping hshort hlegal.1
      fun hnil => absurd hnil h.ne_nil
    exact ⟨p', hp', fun rest => (run_backslash hroom h).trans (hrun rest)⟩
  | decimal v =>
    obtain ⟨p', hp', hrun⟩ := run_decimal (by exact hroom) h.escaping hshort
    exact ⟨p', hp', fun rest => (run_backslash hroom h).trans (hrun rest)⟩

end

section

variable (h : AtStart labels p)
include h

/-! ## The beginning of a label -/

theorem AtStart.begin (state : FtState) :
    Writing labels [] { p with ndata := p.ndata ++ [0], count := 0, state := state } :=
  { done := h.done
    ndata := by rw [h.ndata]
    offsets := h.offsets
    count := rfl
    short := Nat.zero_le _
    label := h.label }

theorem AtStart.step_eq (hroot : p.state = .init → c ≠ period ∧ ¬ (c = atSign ∧ last = true)) :
    step downcase text p c last = caseStart downcase text p c last := by
  unfold step
  rcases h.state with hstate | ⟨hstate, -⟩
  · rw [hstate]
  obtain ⟨hperiod, hat⟩ := hroot hstate
  rw [hstate]
  unfold caseInit
  rw [if_neg fun hc => hperiod hc.1, if_neg]
  rintro (hc | hc)
  · exact hperiod hc
  · exact hat hc

theorem run_backslash_first (hroom : p.ndata.length < maxWire) :
    run downcase text (backslash :: rest) p
      = run downcase text rest
          { p with ndata := p.ndata ++ [0], count := 0, state := .initialescape } := by
  rw [run_cons hroom h.done, h.step_eq fun _ => ⟨by decide, fun hc => absurd hc.1 (by decide)⟩]
  rfl

theorem AtStart.escaping :
    Escaping labels [] { p with ndata := p.ndata ++ [0], count := 0, state := .initialescape } :=
  ⟨h.begin .initialescape, .inr ⟨rfl, rfl⟩⟩

theorem run_plain_first (hroom : p.ndata.length + 1 < maxWire) (hc : c ≠ period ∧ c ≠ backslash) :
    ∃ p', InLabel labels [convert downcase c] p' ∧
      ∀ rest, (p.state = .init → c :: rest ≠ [atSign]) →
        run downcase text (c :: rest) p = run downcase text rest p' := by
  obtain ⟨p', hpush, hstate, hp'⟩ :=
    pushCharacter_eq downcase text (h.begin .ordinary) (by decide) c
  refine ⟨p', { toWriting := hp', state := hstate, ne_nil := by simp }, fun rest hroot => ?_⟩
  have hfree : p.state = .init → c ≠ period ∧ ¬ (c = atSign ∧ rest.isEmpty = true) := by
    intro hinit
    refine ⟨hc.1, ?_⟩
    rintro ⟨rfl, hempty⟩
    exact hroot hinit (by rw [isEmpty_iff.mp hempty])
  have hlength : (p.ndata ++ [0]).length < maxWire := by
    rw [length_append]
    exact hroom
  have hcase : caseStart downcase text p c rest.isEmpty = .ok p' := by
    unfold caseStart
    rw [if_neg hc.2, if_pos hlength]
    unfold caseOrdinary
    rw [if_neg hc.1, if_neg hc.2]
    exact hpush
  rw [run_cons (Nat.lt_of_succ_lt hroom) h.done, h.step_eq hfree, hcase, except_ok_bind]

/-- At the beginning of a label, the text of its first character is read. -/
theorem run_first (hroom : p.ndata.length + 1 < maxWire) (hlegal : ch.Legal true) :
    ∃ p', InLabel labels [convert downcase ch.octet] p' ∧
      ∀ rest, (p.state = .init → ch.text ++ rest ≠ [atSign]) →
        run downcase text (ch.text ++ rest) p = run downcase text rest p' := by
  have hroom' : (p.ndata ++ [0]).length < maxWire := by
    rw [length_append]
    exact hroom
  have hlt : p.ndata.length < maxWire := Nat.lt_of_succ_lt hroom
  cases ch with
  | plain c => exact run_plain_first h hroom hlegal
  | escaped c =>
    obtain ⟨p', hp', hrun⟩ := run_escaped hroom' h.escaping (by decide) hlegal.1
      fun _ => hlegal.2 rfl
    exact ⟨p', hp', fun rest _ => (run_backslash_first h hlt).trans (hrun rest)⟩
  | decimal v =>
    obtain ⟨p', hp', hrun⟩ := run_decimal hroom' h.escaping (by decide)
    exact ⟨p', hp', fun rest _ => (run_backslash_first h hlt).trans (hrun rest)⟩

/-- Where only the root label has room, a label cannot begin. -/
theorem run_start_full (hfull : p.ndata.length + 1 = maxWire)
    (hc : c ≠ backslash) : run downcase text (c :: rest) p = .error .assertion := by
  have hroot : p.state = .init → c ≠ period ∧ ¬ (c = atSign ∧ rest.isEmpty = true) := by
    intro hinit
    rcases h.state with hstate | ⟨-, hnil⟩
    · rw [hstate] at hinit
      cases hinit
    · have hempty : p.ndata = [] := by rw [h.ndata, hnil]; rfl
      rw [hempty] at hfull
      cases hfull
  have hlength : ¬ (p.ndata ++ [0]).length < maxWire := by
    rw [length_append]
    show ¬ p.ndata.length + 1 < _
    omega
  have hcase : caseStart downcase text p c rest.isEmpty = .error .assertion := by
    unfold caseStart
    rw [if_neg hc, if_neg hlength]
  have hroom : p.ndata.length < maxWire := by omega
  rw [run_cons hroom h.done, h.step_eq hroot, hcase]
  rfl

end

/-! ## The end of a label -/

theorem offsets_push {offsets : List UInt8} {size : Nat}
    (h : offsets.map (·.toNat) = labelOffsets 0 (labels ++ [[]]))
    (hsize : size = (encodeLabels (labels ++ [cur])).length) (hlt : size < 256) :
    (offsets ++ [ofNat size]).map (·.toNat) = labelOffsets 0 (labels ++ [cur] ++ [[]]) := by
  have hbyte : (ofNat size).toNat = size := toNat_ofNat_of_lt' hlt
  have hold : labelOffsets 0 (labels ++ [cur]) = labelOffsets 0 (labels ++ [[]]) := by
    rw [labelOffsets_append, labelOffsets_append]
    rfl
  rw [map_append, h, labelOffsets_append 0 (labels ++ [cur]), hold, map_singleton, hbyte,
    hsize, Nat.zero_add]
  rfl

section

variable (h : InLabel labels cur p)
include h

theorem InLabel.label_append : ∀ label ∈ labels ++ [cur], IsLabel label := by
  intro label hl
  rcases mem_append.mp hl with hl | hl
  · exact h.label label hl
  · rw [mem_singleton.mp hl]
    exact ⟨h.ne_nil, h.short⟩

theorem InLabel.count_ne_zero : p.count ≠ 0 := by
  rw [h.count]
  exact fun hzero => h.ne_nil (length_eq_zero_iff.mp hzero)

theorem InLabel.length_closed : (encodeLabels (labels ++ [cur])).length = p.ndata.length := by
  rw [h.length_ndata]
  simp
  omega

section

variable (hroom : p.ndata.length < maxWire)
include hroom

theorem InLabel.length_closed_lt : (encodeLabels (labels ++ [cur])).length < 256 := by
  rw [h.length_closed]
  exact Nat.lt_trans hroom (by decide)

theorem run_period (hrest : rest ≠ []) :
    ∃ p', AtStart (labels ++ [cur]) p' ∧
      run downcase text (period :: rest) p = run downcase text rest p' := by
  have hlast : rest.isEmpty = false := by simpa using hrest
  refine ⟨{ p with
    ndata := encodeLabels (labels ++ [cur])
    offsets := p.offsets ++ [ofNat (encodeLabels (labels ++ [cur])).length]
    state := .start }, ?_, ?_⟩
  · exact {
      state := .inl rfl
      done := h.done
      ndata := rfl
      offsets := offsets_push h.offsets rfl (h.length_closed_lt hroom)
      label := h.label_append }
  · rw [run_cons hroom h.done, h.step_eq, hlast]
    simp only [caseOrdinary, if_neg h.count_ne_zero, setLabelLength_eq h.toWriting]
    rfl

theorem InLabel.parsed (state : FtState) (done : Bool) :
    Parsed (labels ++ [cur]) { p with
      ndata := encodeLabels (labels ++ [cur]) ++ [0]
      offsets := p.offsets ++ [ofNat (encodeLabels (labels ++ [cur])).length]
      state := state
      done := done } where
  ndata := rfl
  offsets := offsets_push h.offsets rfl (h.length_closed_lt hroom)
  label := h.label_append
  wire := by
    rw [length_append, h.length_closed]
    exact hroom

theorem run_period_last :
    ∃ p', Parsed (labels ++ [cur]) p' ∧ run downcase text [period] p = .ok p' := by
  refine ⟨_, h.parsed hroom .start true, ?_⟩
  rw [run_cons hroom h.done, h.step_eq]
  simp only [caseOrdinary, if_neg h.count_ne_zero, setLabelLength_eq h.toWriting]
  rfl

theorem run_nil : ∃ p', Parsed (labels ++ [cur]) p' ∧ run downcase text [] p = .ok p' := by
  refine ⟨_, h.parsed hroom p.state p.done, ?_⟩
  show finish text p [] = _
  unfold finish
  rw [if_neg (by simp [h.done]), if_neg (Nat.ne_of_lt hroom), if_neg (by simp),
    if_neg (by simp [h.state]), if_neg h.count_ne_zero, setLabelLength_eq h.toWriting]
  rfl

end

end

/-! ## Any text -/

theorem run_of_step_throws (hroom : p.ndata.length < maxWire) (hdone : p.done = false)
    (h : Throws (step downcase text p c rest.isEmpty)) :
    Throws (run downcase text (c :: rest) p) := by
  obtain ⟨type, what, heq⟩ := h
  exact ⟨type, what, by rw [run_cons hroom hdone, heq]; rfl⟩

theorem run_incomplete (hdone : p.done = false) (hroom : p.ndata.length < maxWire)
    (hstate : p.state ≠ .ordinary) : Throws (run downcase text [] p) := by
  have hend : finish text p [] = throwing (if text = [] then ascii "<empty>" else text)
      .incompleteName "incomplete textual name in " := by
    unfold finish
    rw [if_neg (by simp [hdone]), if_neg (Nat.ne_of_lt hroom), if_neg (by simp), if_pos hstate]
  exact ⟨.incompleteName, _, hend⟩

theorem push_throws (h : Writing labels cur p) (hlong : ¬ cur.length < maxLabellen) :
    Throws (do
      let p ← pushCharacter downcase text p c
      return { p with state := .ordinary } : Except Failure StringParser) := by
  obtain ⟨type, what, hpush⟩ := pushCharacter_throws h hlong
  exact ⟨type, what, by rw [hpush]; rfl⟩

theorem isdigit_range (h : isdigit c = true) : 48 ≤ c.toNat ∧ c.toNat ≤ 57 :=
  of_decide_eq_true h

/-- Three digits of a byte are the text of that byte. -/
theorem decimal_text {c1 c2 c3 : UInt8} (h1 : isdigit c1 = true) (h2 : isdigit c2 = true)
    (h3 : isdigit c3 = true)
    (hle : (digitvalue c1 * 10 + digitvalue c2) * 10 + digitvalue c3 ≤ 255) :
    (LabelChar.decimal (ofNat ((digitvalue c1 * 10 + digitvalue c2) * 10 + digitvalue c3))).text
      = [backslash, c1, c2, c3] := by
  have hr1 := isdigit_range h1
  have hr2 := isdigit_range h2
  have hr3 := isdigit_range h3
  unfold digitvalue at hle ⊢
  have hdigit (v x : UInt8) (hx : 48 + v.toNat % 10 = x.toNat) : 0x30 + v % 10 = x := by
    apply UInt8.toNat_inj.mp
    rw [UInt8.toNat_add, UInt8.toNat_mod, show (0x30 : UInt8).toNat = 48 from rfl,
      show (10 : UInt8).toNat = 10 from rfl]
    omega
  simp only [LabelChar.text]
  have hbyte := toNat_ofNat_of_lt' (n := ((c1.toNat - 48) * 10 + (c2.toNat - 48)) * 10
    + (c3.toNat - 48)) (show _ < 256 by omega)
  rw [hdigit _ c1, hdigit _ c2, hdigit _ c3]
  · rw [hbyte]
    omega
  · rw [UInt8.toNat_div, show (10 : UInt8).toNat = 10 from rfl]
    omega
  · rw [UInt8.toNat_div, show (100 : UInt8).toNat = 100 from rfl]
    omega

theorem run_non_digit (h : InDecimal labels cur digits value p) (hroom : p.ndata.length < maxWire)
    (hdigit : isdigit c = false) : Throws (run downcase text (c :: rest) p) := by
  refine run_of_step_throws hroom h.done ?_
  rw [step_inDecimal h]
  unfold caseEscdecimal
  rw [if_pos (by rw [hdigit]; rfl)]
  exact ⟨_, _, rfl⟩

/-- The last digit of a decimal escape. -/
theorem run_third_digit_cases (downcase : Bool) (text : List UInt8)
    (h : InDecimal labels cur 2 value p) (hroom : p.ndata.length < maxWire) (s : List UInt8) :
    Throws (run downcase text s p) ∨
      ∃ c rest p', s = c :: rest ∧ isdigit c = true ∧ value * 10 + digitvalue c ≤ 255 ∧
        cur.length < maxLabellen ∧
        InLabel labels (cur ++ [convert downcase (ofNat (value * 10 + digitvalue c))]) p' ∧
        run downcase text s p = run downcase text rest p' := by
  match s with
  | [] => exact .inl (run_incomplete h.done hroom (by simp [h.state]))
  | c :: rest =>
    cases hdigit : isdigit c with
    | false => exact .inl (run_non_digit h hroom hdigit)
    | true =>
      by_cases hle : value * 10 + digitvalue c ≤ 255
      · by_cases hshort : cur.length < maxLabellen
        · obtain ⟨p', hp', hrun⟩ := run_third_digit hroom h hshort hdigit hle
          exact .inr ⟨c, rest, p', rfl, hdigit, hle, hshort, hp', hrun rest⟩
        left
        refine run_of_step_throws hroom h.done ?_
        rw [step_third_digit h hdigit hle]
        exact push_throws h.toWriting.with_number hshort
      · left
        refine run_of_step_throws hroom h.done ?_
        have hlarge : value * 10 + digitvalue c > 255 := by omega
        rw [step_inDecimal h]
        simp only [caseEscdecimal, hdigit, h.digits, h.value]
        rw [if_neg (by decide), if_pos hlarge]
        exact ⟨_, _, rfl⟩

/-- Behind a backslash stands the rest of a character, or the parser throws. -/
theorem run_escaping_cases (h : Escaping labels cur p) (hroom : p.ndata.length < maxWire) :
    Throws (run downcase text s p) ∨
      ∃ (ch : LabelChar) (rest : List UInt8) (p' : StringParser),
        backslash :: s = ch.text ++ rest ∧ ch.Legal (cur = []) ∧
        cur.length < maxLabellen ∧ rest.length < s.length ∧
        InLabel labels (cur ++ [convert downcase ch.octet]) p' ∧
        run downcase text s p = run downcase text rest p' := by
  have hstate : p.state ≠ .ordinary := by
    rcases h.2 with ⟨hstate, -⟩ | ⟨hstate, -⟩ <;> simp [hstate]
  match s with
  | [] => exact .inl (run_incomplete h.1.done hroom hstate)
  | c :: s =>
    by_cases hbracket : cur = [] ∧ c = openBracket
    · -- the label would be a bitstring
      left
      refine run_of_step_throws hroom h.1.done
        ⟨.badLabelType, ascii "invalid label type in " ++ text, ?_⟩
      rcases h.2 with ⟨-, hne⟩ | ⟨hinit, -⟩
      · exact absurd hbracket.1 hne
      unfold step
      rw [hinit]
      exact if_pos hbracket.2
    have hc : cur = [] → c ≠ openBracket := fun hnil hc => hbracket ⟨hnil, hc⟩
    cases hdigit : isdigit c with
    | false =>
      by_cases hshort : cur.length < maxLabellen
      · obtain ⟨p', hp', hrun⟩ := run_escaped hroom h hshort hdigit hc
        exact .inr ⟨.escaped c, s, p', rfl, ⟨hdigit, fun hnil => hc (of_decide_eq_true hnil)⟩,
          hshort, Nat.lt_succ_self _, hp', hrun s⟩
      · left
        refine run_of_step_throws hroom h.1.done ?_
        rw [step_escaping h hc]
        unfold caseEscape
        rw [if_pos (by rw [hdigit]; rfl)]
        exact push_throws h.1 hshort
    | true =>
      obtain ⟨p1, h1, hrun1⟩ := run_first_digit hroom h hdigit
      have hroom1 : p1.ndata.length < maxWire := by rwa [h1.ndata, ← h.1.ndata]
      rw [show run downcase text (c :: s) p = _ from hrun1 s]
      match s with
      | [] => exact .inl (run_incomplete h1.done hroom1 (by simp [h1.state]))
      | c2 :: s =>
        cases hdigit2 : isdigit c2 with
        | false => exact .inl (run_non_digit h1 hroom1 hdigit2)
        | true =>
          obtain ⟨p2, h2, hrun2⟩ := run_second_digit hroom1 h1 hdigit2
          have hroom2 : p2.ndata.length < maxWire := by rwa [h2.ndata, ← h.1.ndata]
          rw [show run downcase text (c2 :: s) p1 = _ from hrun2 s]
          rcases run_third_digit_cases downcase text h2 hroom2 s with
            hthrows | ⟨c3, rest, p', rfl, hdigit3, hle, hshort, hp', hrun⟩
          · exact .inl hthrows
          have htext := decimal_text hdigit hdigit2 hdigit3 hle
          refine .inr ⟨.decimal (ofNat _), rest, p', ?_, trivial, hshort, ?_, hp', hrun⟩
          · rw [htext]
            rfl
          · simp only [length_cons]
            omega

/-- How a parse of `text` may end. -/
def EndsWell (text : List UInt8) (r : Except Failure StringParser) : Prop :=
  Ends (fun p => ∃ labels, Parsed labels p)
    (fun f => f.IsException ∨ f = .assertion ∧ Overfull text) r

theorem Throws.endsWell {r : Except Failure StringParser} (h : Throws r) : EndsWell text r := by
  obtain ⟨type, what, rfl⟩ := h
  exact .inl trivial

/-- The root name. -/
theorem run_root (h : AtStart labels p) (hstate : p.state = .init) (hc : c = period ∨ c = atSign) :
    ∃ p', Parsed [] p' ∧ run downcase text [c] p = .ok p' := by
  have hnil : labels = [] := by
    rcases h.state with hstart | ⟨-, hnil⟩
    · rw [hstart] at hstate
      cases hstate
    · exact hnil
  subst hnil
  have hempty : p.ndata = [] := h.ndata
  refine ⟨{ p with ndata := p.ndata ++ [0], done := true }, ?_, ?_⟩
  · exact { ndata := by rw [hempty]; rfl, offsets := h.offsets, label := h.label,
            wire := by rw [hempty]; exact (show 1 ≤ 255 by decide) }
  have hroom : p.ndata.length < maxWire := by rw [hempty]; decide
  have hstep : step downcase text p c true = caseInit downcase text p c true := by
    unfold step
    rw [hstate]
  have hcase : caseInit downcase text p c true
      = .ok { p with ndata := p.ndata ++ [0], done := true } := by
    unfold caseInit
    rw [if_neg (by simp), if_pos (hc.imp_right fun h => ⟨h, rfl⟩)]
  rw [run_cons hroom h.done]
  show (step downcase text p c true >>= run downcase text []) = _
  rw [hstep, hcase]
  rfl

/-- All that follows the labels `done` of the text. -/
def StartEndsWell (downcase : Bool) (text s : List UInt8) : Prop :=
  ∀ (done : List TextLabel) (p : StringParser), AtStart (done.map (·.octets downcase)) p →
    p.ndata.length < maxWire → text = textOf done ++ s →
    EndsWell text (run downcase text s p)

/-- All that follows the beginning `l` of a label behind the labels `done`. -/
def LabelEndsWell (downcase : Bool) (text s : List UInt8) : Prop :=
  ∀ (done : List TextLabel) (l : TextLabel) (p : StringParser),
    InLabel (done.map (·.octets downcase)) (l.octets downcase) p →
    p.ndata.length ≤ maxWire → text = textOf done ++ (l.text ++ s) →
    EndsWell text (run downcase text s p)

theorem run_empty_label (h : AtStart labels p) (hroom : p.ndata.length + 1 < maxWire)
    (hnot : ¬ (p.state = .init ∧ rest = [])) : Throws (run downcase text (period :: rest) p) := by
  refine run_of_step_throws (Nat.lt_of_succ_lt hroom) h.done ?_
  rcases h.state with hstate | ⟨hstate, -⟩
  · have hlength : (p.ndata ++ [0]).length < maxWire := by
      rw [length_append]
      exact hroom
    rw [h.step_eq fun hinit => absurd (hstate.symm.trans hinit) (by decide)]
    unfold caseStart
    rw [if_neg (by decide), if_pos hlength]
    exact ⟨_, _, rfl⟩
  · have hrest : rest.isEmpty = false := by
      have : rest ≠ [] := fun hnil => hnot ⟨hstate, hnil⟩
      simpa using this
    unfold step
    rw [hstate, hrest]
    exact ⟨_, _, rfl⟩

/-- A label has begun with the character `ch`. -/
theorem LabelEndsWell.first (ch : LabelChar) (hgoes : LabelEndsWell downcase text rest)
    (h : AtStart (done.map (·.octets downcase)) p) (hroom : p.ndata.length + 1 < maxWire)
    (hlegal : ch.Legal true)
    (hp' : InLabel (done.map (·.octets downcase)) [convert downcase ch.octet] p')
    (htext : text = textOf done ++ (ch.text ++ rest)) :
    EndsWell text (run downcase text rest p') := by
  refine hgoes done (.single ch hlegal) p' hp' ?_ ?_
  · rw [hp'.length_ndata, ← h.ndata]
    exact hroom
  · rw [htext]
    simp [TextLabel.text, TextLabel.chars, TextLabel.single]

/-- The label `l` goes on with the character `ch`. -/
theorem LabelEndsWell.next {l : TextLabel} (ch : LabelChar)
    (hgoes : LabelEndsWell downcase text rest)
    (h : InLabel (done.map (·.octets downcase)) (l.octets downcase) p)
    (hroom : p.ndata.length < maxWire) (hshort : (l.octets downcase).length < maxLabellen)
    (hlegal : ch.Legal false)
    (hp' : InLabel (done.map (·.octets downcase)) (l.octets downcase ++ [convert downcase ch.octet]) p')
    (htext : text = textOf done ++ (l.text ++ (ch.text ++ rest))) :
    EndsWell text (run downcase text rest p') := by
  rw [l.length_octets] at hshort
  have hoctets : (l.push ch hlegal hshort).octets downcase
      = l.octets downcase ++ [convert downcase ch.octet] := by
    simp [TextLabel.octets, TextLabel.chars, TextLabel.push]
  refine hgoes done (l.push ch hlegal hshort) p' (hoctets ▸ hp') ?_ ?_
  · have hold := h.length_ndata
    rw [hp'.length_ndata, length_append]
    simp only [length_singleton]
    omega
  · rw [htext]
    simp [TextLabel.text, TextLabel.chars, TextLabel.push]

theorem startEndsWell
    (ih : ∀ s' : List UInt8, s'.length < s.length → LabelEndsWell downcase text s') :
    StartEndsWell downcase text s := by
  intro done p h hroom htext
  match s with
  | [] =>
    have hstate : p.state ≠ .ordinary := by
      rcases h.state with hstate | ⟨hstate, -⟩ <;> simp [hstate]
    exact (run_incomplete h.done hroom hstate).endsWell
  | c :: s =>
    have hlast : p.ndata.length + 1 = maxWire ∨ p.ndata.length + 1 < maxWire := by omega
    by_cases hback : c = backslash
    · subst hback
      have hlength : (p.ndata ++ [0]).length = p.ndata.length + 1 := by simp
      rw [run_backslash_first h hroom]
      rcases hlast with hfull | hfree
      · exact (run_full (hlength.trans hfull) h.escaping.1.done s).endsWell
      rcases run_escaping_cases h.escaping (hlength ▸ hfree) with
        hthrows | ⟨ch, rest, p', hs, hlegal, -, hlt, hp', hrun⟩
      · exact hthrows.endsWell
      rw [hrun]
      refine (ih rest (Nat.lt_succ_of_lt hlt)).first ch h hfree hlegal hp' ?_
      rw [htext, hs]
    by_cases hroot : p.state = .init ∧ s = [] ∧ (c = period ∨ c = atSign)
    · obtain ⟨hstate, rfl, hc⟩ := hroot
      obtain ⟨p', hp', hrun⟩ := run_root h hstate hc
      rw [hrun]
      exact ⟨[], hp'⟩
    rcases hlast with hfull | hfree
    · -- the assertion behind the placeholder fails
      rw [run_start_full h hfull hback]
      refine .inr ⟨rfl, done, c, s, htext, hback, ?_⟩
      rw [← length_encode_octets, ← h.ndata]
      exact hfull
    by_cases hperiod : c = period
    · subst hperiod
      exact (run_empty_label h hfree fun hnot => hroot ⟨hnot.1, hnot.2, .inl rfl⟩).endsWell
    obtain ⟨p', hp', hrun⟩ := run_plain_first h hfree ⟨hperiod, hback⟩
    have hat : p.state = .init → c :: s ≠ [atSign] := by
      intro hstate heq
      cases heq
      exact hroot ⟨hstate, rfl, .inr rfl⟩
    rw [hrun s hat]
    exact (ih s (Nat.lt_succ_self _)).first (.plain c) h hfree ⟨hperiod, hback⟩ hp' htext

theorem labelEndsWell
    (ihstart : ∀ s' : List UInt8, s'.length < s.length → StartEndsWell downcase text s')
    (ihlabel : ∀ s' : List UInt8, s'.length < s.length → LabelEndsWell downcase text s') :
    LabelEndsWell downcase text s := by
  intro done l p h hwire htext
  rcases Nat.eq_or_lt_of_le hwire with hfull | hroom
  · exact (run_full hfull h.done s).endsWell
  match s with
  | [] =>
    obtain ⟨p', hp', hrun⟩ := run_nil h hroom
    rw [hrun]
    exact ⟨_, hp'⟩
  | c :: s =>
    by_cases hperiod : c = period
    · subst hperiod
      by_cases hs : s = []
      · subst hs
        obtain ⟨p', hp', hrun⟩ := run_period_last h hroom
        rw [hrun]
        exact ⟨_, hp'⟩
      · obtain ⟨p', hp', hrun⟩ := run_period h hroom hs
        have hdone : done.map (·.octets downcase) ++ [l.octets downcase]
            = (done ++ [l]).map (·.octets downcase) := by simp
        rw [hrun]
        refine ihstart s (Nat.lt_succ_self _) (done ++ [l]) p' (hdone ▸ hp') ?_ ?_
        · rwa [hp'.ndata, h.length_closed]
        · rw [htext]
          simp [textOf]
    by_cases hback : c = backslash
    · subst hback
      rw [run_backslash hroom h]
      rcases run_escaping_cases h.escaping hroom with
        hthrows | ⟨ch, rest, p', hs, hlegal, hshort, hlt, hp', hrun⟩
      · exact hthrows.endsWell
      rw [hrun]
      exact (ihlabel rest (Nat.lt_succ_of_lt hlt)).next ch h hroom hshort hlegal hp'
        (hs ▸ htext)
    · by_cases hshort : (l.octets downcase).length < maxLabellen
      · obtain ⟨p', hp', hrun⟩ := run_plain hroom h hshort ⟨hperiod, hback⟩
        rw [show run downcase text (c :: s) p = _ from hrun s]
        exact (ihlabel s (Nat.lt_succ_self _)).next (.plain c) h hroom hshort
          ⟨hperiod, hback⟩ hp' htext
      · refine (run_of_step_throws hroom h.done ?_).endsWell
        rw [h.step_eq]
        unfold caseOrdinary
        rw [if_neg hperiod, if_neg hback]
        exact pushCharacter_throws h.toWriting hshort

theorem run_ends (downcase : Bool) (text : List UInt8) (n : Nat) :
    ∀ s : List UInt8, s.length ≤ n →
      StartEndsWell downcase text s ∧ LabelEndsWell downcase text s := by
  induction n with
  | zero =>
    intro s hs
    have hnone (s' : List UInt8) (h : s'.length < s.length) : False := by omega
    exact ⟨startEndsWell fun s' h => (hnone s' h).elim,
      labelEndsWell (fun s' h => (hnone s' h).elim) fun s' h => (hnone s' h).elim⟩
  | succ n ih =>
    intro s hs
    exact ⟨startEndsWell fun s' h => (ih s' (by omega)).2,
      labelEndsWell (fun s' h => (ih s' (by omega)).1) fun s' h => (ih s' (by omega)).2⟩

/-! ## The text of labels -/

theorem run_chars {chars : List LabelChar} (hlegal : ∀ ch ∈ chars, ch.Legal false)
    (h : InLabel labels cur p) (hroom : p.ndata.length + chars.length < maxWire)
    (hshort : cur.length + chars.length ≤ maxLabellen) :
    Reads downcase text (chars.flatMap LabelChar.text) p
      (InLabel labels (cur ++ chars.map fun ch => convert downcase ch.octet)) := by
  induction chars generalizing cur p with
  | nil => exact ⟨p, by simpa using h, fun rest => rfl⟩
  | cons ch chars ih =>
    rw [length_cons] at hroom hshort
    refine (run_char (by omega) h (by omega) (hlegal ch mem_cons_self)).trans
      fun q hq => ?_
    have hlength : q.ndata.length = p.ndata.length + 1 := by
      rw [hq.length_ndata, h.length_ndata, length_append, length_singleton]
      omega
    have hcur : (cur ++ [convert downcase ch.octet]).length = cur.length + 1 := by simp
    have hrest := ih (fun d hd => hlegal d (mem_cons_of_mem _ hd)) hq (by omega) (by omega)
    rw [append_assoc] at hrest
    exact hrest

theorem run_label (downcase : Bool) (text : List UInt8) (l : TextLabel) (h : AtStart labels p)
    (hroom : p.ndata.length + l.size < maxWire) :
    ∃ p', InLabel labels (l.octets downcase) p' ∧
      ∀ rest, (p.state = .init → l.text ++ rest ≠ [atSign]) →
        run downcase text (l.text ++ rest) p = run downcase text rest p' := by
  have hsize : l.size = l.rest.length + 2 := rfl
  obtain ⟨q, hq, hfirst⟩ := run_first h (by omega) l.legalFirst
  have hlength : q.ndata.length = p.ndata.length + 2 := by
    rw [hq.length_ndata, h.ndata]
    rfl
  have hshort : [convert downcase l.first.octet].length + l.rest.length ≤ maxLabellen := by
    have := l.short
    simp only [length_singleton]
    omega
  obtain ⟨p', hp', hrest⟩ := run_chars l.legalRest hq (by omega) hshort
  refine ⟨p', hp', fun rest hroot => ?_⟩
  have htext : l.text ++ rest = l.first.text ++ (l.rest.flatMap LabelChar.text ++ rest) := by
    simp [TextLabel.text, TextLabel.chars]
  rw [htext] at hroot ⊢
  rw [hfirst _ hroot, hrest]

theorem append_period_ne_at {t : List UInt8} : t ++ period :: rest ≠ [atSign] := by
  intro heq
  have hmem : period ∈ [atSign] := heq ▸ mem_append_right t mem_cons_self
  exact absurd hmem (by decide)

/-- Labels with text behind them. -/
theorem run_labels (downcase : Bool) (text : List UInt8) (hrest : rest ≠ []) (more : List TextLabel)
    (h : AtStart labels p) (hroom : p.ndata.length + (more.map TextLabel.size).sum < maxWire) :
    ∃ p', AtStart (labels ++ more.map (·.octets downcase)) p' ∧
      run downcase text (textOf more ++ rest) p = run downcase text rest p' := by
  induction more generalizing labels p with
  | nil => exact ⟨p, by simpa using h, rfl⟩
  | cons l more ih =>
    rw [map_cons, sum_cons] at hroom
    obtain ⟨q, hq, hlabel⟩ := run_label downcase text l h (by omega)
    have hlength : q.ndata.length = p.ndata.length + l.size := by
      rw [hq.length_ndata, h.ndata, l.length_octets]
      rfl
    have hbehind : textOf more ++ rest ≠ [] := by simp [hrest]
    obtain ⟨q', hq', hperiod⟩ := run_period hq (by omega) hbehind
    have hclosed : q'.ndata.length = q.ndata.length := by rw [hq'.ndata, hq.length_closed]
    obtain ⟨p', hp', hmore⟩ := ih hq' (by omega)
    refine ⟨p', by simpa using hp', ?_⟩
    have htext : textOf (l :: more) ++ rest = l.text ++ period :: (textOf more ++ rest) := by
      simp [textOf]
    rw [htext, hlabel _ fun _ => append_period_ne_at, hperiod, hmore]

end Steps

end StringParser

open StringParser

/-! ## The constructor -/

theorem atStart_init : AtStart [] {} where
  state := .inr ⟨rfl, rfl⟩
  done := rfl
  ndata := rfl
  offsets := rfl
  label := nofun

theorem Name.ofString_of_parsed (hparse : stringParse namestring downcase = .ok p)
    (h : Parsed labels p) :
    ∃ name, ofString namestring downcase = .ok name ∧ name.Represents labels := by
  have hcount : p.offsets.length = labels.length + 1 := by
    have := congrArg List.length h.offsets
    simpa using this
  let name : Name :=
    { ndata := p.ndata, offsets := p.offsets, length := p.ndata.length,
      labelcount := p.offsets.length }
  have hrep : name.Represents labels :=
    { ndata := h.ndata, offsets := h.offsets, length := rfl, labelcount := hcount,
      label := h.label, wire := h.wire }
  have hlabels : 0 < p.offsets.length ∧ p.offsets.length ≤ maxLabels :=
    ⟨by omega, hrep.labelcount_le⟩
  refine ⟨name, ?_, hrep⟩
  unfold ofString
  rw [hparse, except_ok_bind, if_pos hlabels]
  rfl

theorem Name.ofString_of_error {failure : Failure}
    (hparse : stringParse namestring downcase = .error failure) :
    ofString namestring downcase = .error failure := by
  unfold ofString
  rw [hparse]
  rfl

theorem Name.ofString_overfull (h : Overfull namestring) :
    ofString namestring downcase = .error .assertion := by
  obtain ⟨labels, c, rest, htext, hc, hsum⟩ := h
  obtain ⟨p, hp, hrun⟩ := run_labels downcase namestring (cons_ne_nil c rest) labels
    atStart_init (by show 0 + _ < _; omega)
  have hfull : p.ndata.length + 1 = maxWire := by
    rw [hp.ndata, nil_append, length_encode_octets, hsum]
  refine ofString_of_error ?_
  calc StringParser.run downcase namestring namestring {}
      = StringParser.run downcase namestring (textOf labels ++ c :: rest) {} := by rw [← htext]
    _ = StringParser.run downcase namestring (c :: rest) p := hrun
    _ = .error .assertion := run_start_full hp hfull hc

theorem Name.ofString_ends (namestring : List UInt8) (downcase : Bool) :
    Ends (fun name => ∃ labels, name.Represents labels)
      (fun f => f.IsException ∨ f = .assertion ∧ Overfull namestring)
      (ofString namestring downcase) := by
  have hend := (run_ends downcase namestring namestring.length namestring le_rfl).1
    [] {} atStart_init (by decide) rfl
  have hparse : stringParse namestring downcase
      = StringParser.run downcase namestring namestring {} := rfl
  rw [← hparse] at hend
  match hr : stringParse namestring downcase with
  | .ok p =>
    rw [hr] at hend
    obtain ⟨labels, hp⟩ := hend
    obtain ⟨name, hname, hrep⟩ := ofString_of_parsed hr hp
    rw [hname]
    exact ⟨labels, hrep⟩
  | .error failure =>
    rw [hr] at hend
    rw [ofString_of_error hr]
    exact hend

/-- No text ends the program, unless a label begins where only the root label has room; all other
texts give a name or an exception. -/
theorem name_text_parsed (namestring : List UInt8) (downcase : Bool) :
    (Ends (fun name => ∃ labels, name.Represents labels ∧ name.labelcount ≤ maxLabels)
        Failure.IsException (ofString namestring downcase) ↔ ¬ Overfull namestring) ∧
      (Ends (fun count => count ≤ maxLabels) Failure.IsException (getLabelCount namestring)
        ↔ ¬ Overfull namestring) := by
  have hname (h : ¬ Overfull namestring) (downcase : Bool) :
      Ends (fun name => ∃ labels, name.Represents labels ∧ name.labelcount ≤ maxLabels)
        Failure.IsException (ofString namestring downcase) := by
    have hends := ofString_ends namestring downcase
    match hr : ofString namestring downcase with
    | .ok name =>
      rw [hr] at hends
      obtain ⟨labels, hrep⟩ := hends
      exact ⟨labels, hrep, hrep.labelcount_le⟩
    | .error failure =>
      rw [hr] at hends
      exact hends.resolve_right fun hc => h hc.2
  refine ⟨⟨fun hends h => ?_, fun h => hname h downcase⟩, ⟨fun hends h => ?_, fun h => ?_⟩⟩
  · rw [ofString_overfull h] at hends
    exact hends
  · have hne : namestring ≠ [] := by
      rintro rfl
      obtain ⟨labels, c, rest, htext, -⟩ := h
      simp at htext
    unfold getLabelCount at hends
    rw [if_neg hne, ofString_overfull h] at hends
    exact hends
  · have hends := hname h false
    unfold getLabelCount
    split
    · exact Nat.zero_le _
    match hr : ofString namestring false with
    | .ok name =>
      rw [hr] at hends
      obtain ⟨-, -, hle⟩ := hends
      exact hle
    | .error (.exception type what) => exact trivial
    | .error .assertion =>
      rw [hr] at hends
      exact hends
    | .error .outOfRange =>
      rw [hr] at hends
      exact hends

/-- Three labels of 63 bytes and one of 61, which fill 254 bytes, and one more character: a hostname
option with the greatest length of 255. -/
def crashingHostname : List UInt8 :=
  let label (n : Nat) := replicate n 0x61 ++ [period]
  label 63 ++ label 63 ++ label 63 ++ label 61 ++ [0x61]

theorem crashing_hostname :
    crashingHostname.length = 255 ∧ ofString crashingHostname false = .error .assertion ∧
      getLabelCount crashingHostname = .error .assertion := by
  decide +kernel

end Dns
