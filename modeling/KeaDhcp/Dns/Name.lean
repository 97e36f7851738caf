import KeaDhcp.Infra.Loop
import KeaDhcp.Util.StrUtil

/-!
# Domain names

`Name` of `src/lib/dns/name.h` and the two constructors of `name.cc` that parse text and wire data.
An `assert` that fails ends the program; it is a failure of its own here, beside the exceptions.
-/

namespace Dns

open Infra Util UInt8

namespace Name

abbrev maxWire : Nat := 255
abbrev maxLabels : Nat := 128
abbrev maxLabellen : Nat := 63
abbrev maxCompressPointer : Nat := 0x3fff
abbrev compressPointerMark8 : UInt8 := 0xc0
abbrev compressPointerMark16 : Nat := 0xc000

end Name

/-- The members of `Name`. `length_` and `labelcount_` have the type `unsigned int`. -/
structure Name where
  ndata : List UInt8
  offsets : List UInt8
  length : Nat
  labelcount : Nat
  deriving DecidableEq

/-- The exceptions of the constructors, all of them `isc::Exception`s. -/
inductive NameException where
  | emptyLabel | tooLongLabel | badLabelType | badEscape | tooLongName | incompleteName
  | dnsMessageFORMERR
  | invalidBufferPosition
  | badDataTypeCast
  deriving DecidableEq

inductive Failure where
  | exception (type : NameException) (what : List UInt8)
  /-- `assert` calls `abort`. -/
  | assertion
  /-- `std::out_of_range` of `at`. -/
  | outOfRange
  deriving DecidableEq

def Failure.IsException : Failure → Prop
  | .exception _ _ => True
  | _ => False

def maptolower (c : UInt8) : UInt8 := if 0x41 ≤ c ∧ c ≤ 0x5a then c + 0x20 else c

/-- `downcase ? maptolower[c] : c`. -/
def convert (downcase : Bool) (c : UInt8) : UInt8 := if downcase then maptolower c else c

/-- `isdigit` in the C locale. -/
def isdigit (c : UInt8) : Bool := 0x30 ≤ c ∧ c ≤ 0x39

/-- `digitvalue`, for digits. -/
def digitvalue (c : UInt8) : Nat := c.toNat - 0x30

abbrev period : UInt8 := 0x2e
abbrev backslash : UInt8 := 0x5c
abbrev atSign : UInt8 := 0x40
abbrev openBracket : UInt8 := 0x5b

/-! ## Text -/

inductive FtState where
  | init | start | ordinary | initialescape | escape | escdecimal
  deriving DecidableEq

/-- The variables of `stringParse`. -/
structure StringParser where
  digits : Nat := 0
  value : Nat := 0
  count : Nat := 0
  done : Bool := false
  state : FtState := .init
  offsets : List UInt8 := [0]
  ndata : List UInt8 := []

namespace StringParser

section Cases

-- The cases of the `switch`; `text` is all the text and `last` says that no character follows.
variable (downcase : Bool) (text : List UInt8)

def throwing {α : Type} (type : NameException) (what : String) : Except Failure α :=
  .error (.exception type (ascii what ++ text))

variable (p : StringParser) (c : UInt8) (last : Bool)

/-- `ndata.at(offsets.back()) = count`. -/
def setLabelLength : Except Failure StringParser :=
  match p.offsets.getLast? with
  | some offset =>
    if offset.toNat < p.ndata.length then
      .ok { p with ndata := p.ndata.set offset.toNat (ofNat p.count) }
    else .error .outOfRange
  | none => .error .outOfRange

def pushCharacter : Except Failure StringParser :=
  if p.count + 1 > Name.maxLabellen then throwing text .tooLongLabel "label is too long in "
  else .ok { p with count := p.count + 1, ndata := p.ndata ++ [convert downcase c] }

def caseEscdecimal : Except Failure StringParser :=
  if !isdigit c then throwing text .badEscape "mixture of escaped digit and non-digit in "
  else
    let p := { p with value := p.value * 10 + digitvalue c, digits := p.digits + 1 }
    if p.digits = 3 then
      if p.value > 255 then throwing text .badEscape "escaped decimal is too large in "
      else do
        let p ← pushCharacter downcase text p (ofNat p.value)
        return { p with state := .ordinary }
    else .ok p

def caseEscape : Except Failure StringParser :=
  if !isdigit c then do
    let p ← pushCharacter downcase text p c
    return { p with state := .ordinary }
  else caseEscdecimal downcase text { p with digits := 0, value := 0, state := .escdecimal } c

def caseInitialescape : Except Failure StringParser :=
  if c = openBracket then throwing text .badLabelType "invalid label type in "
  else caseEscape downcase text p c

def caseOrdinary : Except Failure StringParser :=
  if c = period then
    if p.count = 0 then throwing text .emptyLabel "duplicate period in "
    else do
      let p ← p.setLabelLength
      let p := { p with offsets := p.offsets ++ [ofNat p.ndata.length] }
      if last then return { p with ndata := p.ndata ++ [0], done := true, state := .start }
      else return { p with state := .start }
  else if c = backslash then .ok { p with state := .escape }
  else pushCharacter downcase text p c

def caseStart : Except Failure StringParser :=
  let p := { p with ndata := p.ndata ++ [0], count := 0 }
  if c = backslash then .ok { p with state := .initialescape }
  else if p.ndata.length < Name.maxWire then
    caseOrdinary downcase text { p with state := .ordinary } c last
  else .error .assertion

def caseInit : Except Failure StringParser :=
  if c = period ∧ !last then throwing text .emptyLabel "non terminating empty label in "
  else if c = period ∨ c = atSign ∧ last then .ok { p with ndata := p.ndata ++ [0], done := true }
  else caseStart downcase text p c last

/-- One round of the loop. -/
def step : Except Failure StringParser :=
  match p.state with
  | .init => caseInit downcase text p c last
  | .start => caseStart downcase text p c last
  | .ordinary => caseOrdinary downcase text p c last
  | .initialescape => caseInitialescape downcase text p c
  | .escape => caseEscape downcase text p c
  | .escdecimal => caseEscdecimal downcase text p c

/-- The loop, with the characters that are left. -/
def loop : List UInt8 → StringParser → Except Failure (StringParser × List UInt8)
  | [], p => .ok (p, [])
  | c :: s, p =>
    if p.ndata.length < Name.maxWire ∧ !p.done then do
      let p ← step downcase text p c s.isEmpty
      loop s p
    else .ok (p, c :: s)

/-- What follows the loop. -/
def finish (s : List UInt8) : Except Failure StringParser :=
  if p.done then .ok p
  else if p.ndata.length = Name.maxWire then
    throwing text .tooLongName "name is too long for termination in "
  else if s ≠ [] then .error .assertion
  else if p.state ≠ .ordinary then
    throwing (if text = [] then ascii "<empty>" else text) .incompleteName
      "incomplete textual name in "
  else if p.count = 0 then .error .assertion
  else do
    let p ← p.setLabelLength
    let p := { p with offsets := p.offsets ++ [ofNat p.ndata.length] }
    return { p with ndata := p.ndata ++ [0] }

end Cases

end StringParser

def stringParse (s : List UInt8) (downcase : Bool) : Except Failure StringParser := do
  let (p, rest) ← StringParser.loop downcase s s {}
  p.finish s rest

/-- `Name(const std::string&, bool)`. -/
def Name.ofString (namestring : List UInt8) (downcase : Bool) : Except Failure Name := do
  let p ← stringParse namestring downcase
  if 0 < p.offsets.length ∧ p.offsets.length ≤ Name.maxLabels then
    return { ndata := p.ndata, offsets := p.offsets, length := p.ndata.length,
             labelcount := p.offsets.length }
  else .error .assertion

/-- `OptionDataTypeUtil::getLabelCount`, which the servers call for the names that clients send. -/
def getLabelCount (textName : List UInt8) : Except Failure Nat :=
  if textName = [] then .ok 0
  else
    match Name.ofString textName false with
    | .ok name => .ok name.labelcount
    | .error (.exception _ what) => .error (.exception .badDataTypeCast what)
    | .error failure => .error failure

/-! ## Wire data -/

structure InputBuffer where
  data : List UInt8
  position : Nat
  inRange : position ≤ data.length

/-- The value of an `unsigned int` after a computation. -/
def uint (n : Nat) : Nat := n % 2 ^ 32

/-- `--n` for an `unsigned int`. -/
def decrement (n : Nat) : Nat := if n = 0 then 2 ^ 32 - 1 else n - 1

/-- `readUint8`, the byte at the position. -/
def readUint8 (data : List UInt8) (position : Nat) : Except Failure UInt8 :=
  match data[position]? with
  | some c => .ok c
  | none => .error (.exception .invalidBufferPosition (ascii "read beyond end of buffer"))

/-- `setPosition`; it returns the new position. -/
def setPosition (data : List UInt8) (position : Nat) : Except Failure Nat :=
  if position > data.length then
    .error (.exception .invalidBufferPosition (ascii "position is too large"))
  else .ok position

inductive FwState where
  | start | ordinary | newcurrent
  deriving DecidableEq

/-- The variables of the constructor, with `position`, the one of the buffer. All numbers but that
have the type `unsigned int`. -/
structure WireParser where
  n : Nat := 0
  done : Bool := false
  nused : Nat := 0
  seenPointer : Bool := false
  state : FwState := .start
  cused : Nat := 0
  current : Nat
  biggestPointer : Nat
  newCurrent : Nat := 0
  ndata : List UInt8 := []
  offsets : List UInt8 := []
  position : Nat

namespace WireParser

def formerr {α : Type} (what : String) : Except Failure α :=
  .error (.exception .dnsMessageFORMERR (ascii what))

section Cases

variable (downcase : Bool) (data : List UInt8) (p : WireParser) (c : UInt8)

def caseStart : Except Failure WireParser :=
  if c.toNat ≤ Name.maxLabellen then
    let p := { p with offsets := p.offsets ++ [ofNat p.nused] }
    if p.nused + c.toNat + 1 > Name.maxWire then
      formerr ("wire name is too long: " ++ toString (p.nused + c.toNat + 1) ++ " bytes")
    else
      .ok { p with nused := p.nused + c.toNat + 1, ndata := p.ndata ++ [c],
                   done := p.done || c == 0, n := c.toNat, state := .ordinary }
  else if c &&& Name.compressPointerMark8 = Name.compressPointerMark8 then
    .ok { p with newCurrent := (c &&& ~~~ Name.compressPointerMark8).toNat, n := 1,
                 state := .newcurrent }
  else formerr ("unknown label character: " ++ toString c.toNat)

def caseOrdinary : WireParser :=
  let p := { p with ndata := p.ndata ++ [convert downcase c], n := decrement p.n }
  if p.n = 0 then { p with state := .start } else p

def caseNewcurrent : Except Failure WireParser :=
  let p := { p with newCurrent := uint (p.newCurrent * 256 + c.toNat), n := decrement p.n }
  if p.n ≠ 0 then .ok p
  else if p.newCurrent ≥ p.biggestPointer then
    formerr ("bad compression pointer (out of range): " ++ toString p.newCurrent)
  else do
    let position ← setPosition data p.newCurrent
    return { p with biggestPointer := p.newCurrent, current := p.newCurrent, position := position,
                    seenPointer := true, state := .start }

/-- One round of the loop. -/
def step : Except Failure WireParser := do
  let c ← readUint8 data p.position
  let p := { p with position := p.position + 1, current := uint (p.current + 1),
                    cused := if p.seenPointer then p.cused else uint (p.cused + 1) }
  match p.state with
  | .start => p.caseStart c
  | .ordinary => return p.caseOrdinary downcase c
  | .newcurrent => p.caseNewcurrent data c

/-- A round reads one byte, and goes on behind it or before the last pointer. -/
theorem step_moves {p p' : WireParser} (h : p.step downcase data = .ok p') :
    p.position < data.length ∧
      (p'.biggestPointer = p.biggestPointer ∧ p'.position = p.position + 1 ∨
        p'.biggestPointer < p.biggestPointer) := by
  obtain ⟨c, hread, h⟩ := except_bind_eq_ok h
  have hlt : p.position < data.length := by
    unfold readUint8 at hread
    split at hread
    next hget => exact (List.getElem?_eq_some_iff.mp hget).1
    next => cases hread
  refine ⟨hlt, ?_⟩
  dsimp only at h
  split at h
  next =>
    left
    unfold caseStart at h
    split at h
    · dsimp only at h
      split at h
      · cases h
      · cases h
        exact ⟨rfl, rfl⟩
    · split at h
      · cases h
        exact ⟨rfl, rfl⟩
      · cases h
  next =>
    left
    cases h
    unfold caseOrdinary
    dsimp only
    split <;> exact ⟨rfl, rfl⟩
  next =>
    unfold caseNewcurrent at h
    dsimp only at h
    split at h
    · cases h
      exact .inl ⟨rfl, rfl⟩
    split at h
    · cases h
    next hpointer =>
      obtain ⟨position, -, h⟩ := except_bind_eq_ok h
      cases h
      exact .inr (Nat.lt_of_not_le hpointer)

/-- The loop. Pointers lead back, so the bytes that are left before the last pointer get fewer. -/
def loop : Loop Failure WireParser Empty where
  cond := fun p => p.current < data.length ∧ !p.done
  body := fun p => .inl <$> p.step downcase data
  measure := fun p => p.biggestPointer * (data.length + 1) + (data.length - p.position)
  smaller := by
    intro p p' _ h
    have hstep : p.step downcase data = .ok p' := by
      cases hp : p.step downcase data with
      | error e => rw [hp] at h; cases h
      | ok q => rw [hp] at h; cases h; rfl
    obtain ⟨hlt, ⟨hsame, hnext⟩ | hback⟩ := step_moves downcase data hstep
    · rw [hsame]
      omega
    have hmul : (p'.biggestPointer + 1) * (data.length + 1)
        ≤ p.biggestPointer * (data.length + 1) := Nat.mul_le_mul_right _ hback
    rw [Nat.succ_mul] at hmul
    omega

end Cases

end WireParser

/-- `Name(InputBuffer&, bool)`, with the position of the buffer after it. -/
def Name.ofWire (buffer : InputBuffer) (downcase : Bool) : Except Failure (Name × Nat) := do
  let posBegin := uint buffer.position
  let start : WireParser :=
    { current := posBegin, biggestPointer := posBegin, position := buffer.position }
  match ← (WireParser.loop downcase buffer.data).run start with
  | .inl p =>
    if !p.done then WireParser.formerr "incomplete wire-format name"
    else
      let name : Name :=
        { ndata := p.ndata, offsets := p.offsets, length := p.nused,
          labelcount := p.offsets.length }
      return (name, ← setPosition buffer.data (uint (posBegin + p.cused)))

end Dns
