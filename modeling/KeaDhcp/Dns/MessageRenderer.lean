import KeaDhcp.Dns.Name

/-!
# Rendering names

`LabelSequence` of `src/lib/dns/labelsequence.cc` and `MessageRenderer::writeName` of
`messagerenderer.cc`, with its table of the names that have been rendered. Accesses outside of an
array are failures.
-/

namespace Dns

open Infra Util Name

/-- An element of an array. -/
def elementAt (array : List UInt8) (i : Nat) : Except Failure UInt8 :=
  match array[i]? with
  | some c => .ok c
  | none => .error .outOfRange

/-- `OutputBuffer::operator[]`. -/
def bufferAt (buffer : List UInt8) (pos : Nat) : Except Failure UInt8 :=
  match buffer[pos]? with
  | some c => .ok c
  | none => .error .assertion

/-- The value of a `uint16_t` after a computation. -/
def uint16 (n : Nat) : Nat := n % 2 ^ 16

/-! ## Label sequences -/

structure LabelSequence where
  data : List UInt8
  offsets : List UInt8
  firstLabel : Nat
  lastLabel : Nat

namespace LabelSequence

def ofName (name : Name) : LabelSequence where
  data := name.ndata
  offsets := name.offsets
  firstLabel := 0
  lastLabel := name.labelcount - 1

variable (s : LabelSequence)

def getLabelCount : Nat := s.lastLabel - s.firstLabel + 1

def getDataLength : Except Failure Nat := do
  let last ← elementAt s.offsets s.lastLabel
  let lastLabelLen := (← elementAt s.data last.toNat).toNat + 1
  let first ← elementAt s.offsets s.firstLabel
  return last.toNat - first.toNat + lastLabelLen

/-- `getData`: the bytes from the first label to the end of the last. -/
def getData : Except Failure (List UInt8) := do
  let len ← s.getDataLength
  let first ← elementAt s.offsets s.firstLabel
  if first.toNat + len ≤ s.data.length then return (s.data.drop first.toNat).take len
  else .error .outOfRange

def stripLeft (i : Nat) : Except Failure LabelSequence :=
  if i ≥ s.getLabelCount then .error .outOfRange
  else .ok { s with firstLabel := s.firstLabel + i }

def stripRight (i : Nat) : Except Failure LabelSequence :=
  if i ≥ s.getLabelCount then .error .outOfRange
  else .ok { s with lastLabel := s.lastLabel - i }

/-- How `toText` prints a character. -/
def printCharacter (c : UInt8) : List UInt8 :=
  if [0x22, 0x28, 0x29, 0x2e, 0x3b, 0x5c, 0x40, 0x24].contains c then [backslash, c]
  else if 0x20 < c ∧ c < 0x7f then [c]
  else [backslash, 0x30 + c / 100 % 10, 0x30 + c / 10 % 10, 0x30 + c % 10]

/-- The two loops of `toText` and `toRawText`: over the labels, and over the `left` characters of one. -/
def printLabels (print : UInt8 → List UInt8) (omitFinalDot : Bool) :
    List UInt8 → (left labels : Nat) → List UInt8 → Except Failure (List UInt8)
  | [], left, labels, result => if left = 0 ∧ labels = 0 then .ok result else .error .assertion
  | c :: np, left + 1, labels, result =>
    printLabels print omitFinalDot np left labels (result ++ print c)
  | count :: np, 0, labels, result =>
    let labels := decrement labels
    if count = 0 then
      if np = [] ∧ labels = 0 then
        .ok (if !omitFinalDot ∨ result = [] then result ++ [period] else result)
      else .error .assertion
    else if count.toNat > maxLabellen then
      .error (.exception .badLabelType (ascii "unknown label type in name data"))
    else if np.length < count.toNat then .error .assertion
    else
      printLabels print omitFinalDot np count.toNat labels
        (if result = [] then result else result ++ [period])

def toText (omitFinalDot : Bool) : Except Failure (List UInt8) := do
  printLabels printCharacter omitFinalDot (← s.getData) 0 s.getLabelCount []

/-- `toRawText`, without escapes. -/
def toRawText (omitFinalDot : Bool) : Except Failure (List UInt8) := do
  printLabels (fun c => [c]) omitFinalDot (← s.getData) 0 s.getLabelCount []

/-- `getHash`, which looks at 16 bytes at most. `combine` is `boost::hash_combine`. -/
def getHash (combine : UInt64 → UInt8 → UInt64) (data : List UInt8) (caseSensitive : Bool) :
    UInt64 :=
  (data.take 16).foldl (fun hash c => combine hash (convert (!caseSensitive) c)) 0

end LabelSequence

/-! ## The table of names -/

structure OffsetItem where
  hash : UInt64
  pos : Nat
  len : Nat

namespace NameCompare

/-- The loop of `nextPosition`, which follows pointers; `i` is its counter. -/
def followPointers (buffer : List UInt8) (pos i : Nat) : Except Failure Nat := do
  let hi ← bufferAt buffer pos
  if hi &&& compressPointerMark8 = compressPointerMark8 then
    let lo ← bufferAt buffer (pos + 1)
    let pos := uint16 ((hi &&& ~~~ compressPointerMark8).toNat * 256 + lo.toNat)
    if h : i + 2 < maxWire then followPointers buffer pos (i + 2) else .error .assertion
  else return pos
termination_by maxWire - i

/-- `nextPosition`, with the new value of `llen`. -/
def nextPosition (buffer : List UInt8) (pos llen : Nat) : Except Failure (Nat × Nat) :=
  if llen = 0 then do
    let pos ← followPointers buffer pos 0
    return (pos, (← bufferAt buffer pos).toNat)
  else .ok (pos, llen - 1)

/-- The loop over the characters of the name, of which `name` are left. -/
def compareFrom (buffer : List UInt8) (caseSensitive : Bool) :
    List UInt8 → (itemPos itemLabelLen : Nat) → Except Failure Bool
  | [], _, _ => .ok true
  | ch2 :: name, itemPos, itemLabelLen => do
    let (itemPos, itemLabelLen) ← nextPosition buffer itemPos itemLabelLen
    let ch1 ← bufferAt buffer itemPos
    if convert (!caseSensitive) ch1 ≠ convert (!caseSensitive) ch2 then return false
    else compareFrom buffer caseSensitive name (uint16 (itemPos + 1)) itemLabelLen

/-- `operator()`: the item is the name `nameBuf`. -/
def compare (buffer nameBuf : List UInt8) (hash : UInt64) (caseSensitive : Bool)
    (item : OffsetItem) : Except Failure Bool :=
  if item.hash ≠ hash ∨ item.len ≠ nameBuf.length then .ok false
  else compareFrom buffer caseSensitive nameBuf item.pos 0

end NameCompare

abbrev buckets : Nat := 64

/-- The members that rendering uses, with `buffer`, the data that have been rendered. -/
structure MessageRenderer where
  buffer : List UInt8 := []
  table : Fin buckets → List OffsetItem := fun _ => []
  caseSensitive : Bool := false

def bucketOf (hash : UInt64) : Fin buckets := ⟨hash.toNat % buckets, Nat.mod_lt _ (by decide)⟩

/-- `find_if` with a predicate that may fail. -/
def findIf {α : Type} (p : α → Except Failure Bool) : List α → Except Failure (Option α)
  | [] => .ok none
  | a :: as => do if ← p a then return some a else findIf p as

namespace MessageRenderer

/-- `findOffset`; `none` stands for `NO_OFFSET`. -/
def findOffset (r : MessageRenderer) (nameBuf : List UInt8) (hash : UInt64) :
    Except Failure (Option Nat) := do
  let found ← findIf (NameCompare.compare r.buffer nameBuf hash r.caseSensitive)
    (r.table (bucketOf hash)).reverse
  return found.map (·.pos)

def addOffset (r : MessageRenderer) (hash : UInt64) (offset len : Nat) : MessageRenderer :=
  let item : OffsetItem := { hash := hash, pos := uint16 offset, len := uint16 len }
  { r with table := Function.update r.table (bucketOf hash) (r.table (bucketOf hash) ++ [item]) }

section WriteName

variable (combine : UInt64 → UInt8 → UInt64)

/-- The search for the longest name in the table, with the `left` labels that are left of the name.
It returns the number of labels before that name, the pointer, and `seq_hashes_`. -/
def search (r : MessageRenderer) : (left : Nat) → (sequence : LabelSequence) →
    (nlabelsUncomp : Nat) → (seqHashes : List UInt64) → Except Failure (Nat × Option Nat × List UInt64)
  | 0, _, nlabelsUncomp, seqHashes => .ok (nlabelsUncomp, none, seqHashes)
  | left + 1, sequence, nlabelsUncomp, seqHashes => do
    let sequence ← if nlabelsUncomp > 0 then sequence.stripLeft 1 else .ok sequence
    let data ← sequence.getData
    if data.length = 1 then return (nlabelsUncomp + 1, none, seqHashes)
    else if nlabelsUncomp ≥ maxLabels then .error .outOfRange
    else
      let hash := LabelSequence.getHash combine data r.caseSensitive
      match ← r.findOffset data hash with
      | some ptrOffset => return (nlabelsUncomp, some ptrOffset, seqHashes ++ [hash])
      | none => search r left sequence (nlabelsUncomp + 1) (seqHashes ++ [hash])

/-- The last loop: the names that have been written without a pointer go to the table. The root
label has no hash and ends the loop. -/
def addOffsets (r : MessageRenderer) : (nlabelsUncomp : Nat) → (seqHashes : List UInt64) →
    (offset seqlen : Nat) → Except Failure MessageRenderer
  | 0, _, _, _ => .ok r
  | nlabelsUncomp + 1, seqHashes, offset, seqlen => do
    let labelLen ← bufferAt r.buffer offset
    if labelLen = 0 then return r
    else if offset > maxCompressPointer then return r
    else
      match seqHashes with
      | [] => .error .outOfRange
      | hash :: seqHashes =>
        addOffsets (r.addOffset hash offset seqlen) nlabelsUncomp seqHashes
          (offset + (labelLen.toNat + 1)) (seqlen - (labelLen.toNat + 1))

/-- The labels that are written before the pointer, or all of them. -/
def uncompressed (ls : LabelSequence) (compress : Bool) (nlabelsUncomp : Nat) :
    Except Failure (List UInt8) :=
  if nlabelsUncomp > 0 ∨ !compress then
    if compress ∧ ls.getLabelCount > nlabelsUncomp then do
      (← ls.stripRight (ls.getLabelCount - nlabelsUncomp)).getData
    else ls.getData
  else .ok []

/-- The pointer, if one is written. -/
def pointer (compress : Bool) (ptrOffset : Option Nat) : List UInt8 :=
  match compress, ptrOffset with
  | true, some ptrOffset =>
    let ptr := ptrOffset ||| compressPointerMark16
    [UInt8.ofNat (ptr / 256), UInt8.ofNat ptr]
  | _, _ => []

/-- `writeName(const LabelSequence&, bool)`. -/
def writeSequence (r : MessageRenderer) (ls : LabelSequence) (compress : Bool) :
    Except Failure MessageRenderer := do
  let (nlabelsUncomp, ptrOffset, seqHashes) ← r.search combine ls.getLabelCount ls 0 []
  let offset := r.buffer.length
  let labels ← uncompressed ls compress nlabelsUncomp
  let r := { r with buffer := r.buffer ++ (labels ++ pointer compress ptrOffset) }
  let seqlen ← ls.getDataLength
  r.addOffsets nlabelsUncomp seqHashes offset seqlen

def writeName (r : MessageRenderer) (name : Name) (compress : Bool) :
    Except Failure MessageRenderer :=
  r.writeSequence combine (.ofName name) compress

/-- Names written one after another. -/
def writeNames (r : MessageRenderer) : List (Name × Bool) → Except Failure MessageRenderer
  | [] => .ok r
  | (name, compress) :: names => do writeNames (← r.writeName combine name compress) names

end WriteName

end MessageRenderer

end Dns
