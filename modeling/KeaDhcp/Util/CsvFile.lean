import KeaDhcp.Util.StrUtil

/-!
# Rows of CSV files

`CSVRow` and the reading and writing of lines of `src/lib/util/csv_file.cc`, with the conversions
of numbers by `boost::lexical_cast`. A conversion that throws gives `none`.
-/

namespace Util

open Infra List

/-! ## Rows and lines -/

/-- `CSVRow::render`: the values are not quoted. -/
def render (values : List Text) : Text := [','].intercalate values

variable (b : Bool) (line t : Text) (n : Nat)

def parse : List Text := line.splitOn ','

/-- `CSVFile::append` at the end of a file. -/
def appendLine : Text := line ++ ['\n']

def getline (file : Text) : Text := upTo '\n' file

/-- `CSVRow::writeAt` with a string: it is passed on as a `const char*`, which ends at a NUL. -/
def writeAt : Text := upTo '\x00' t

/-- A value that stands in its row as it is. -/
def Whole : Prop := ',' ∉ t ∧ '\x00' ∉ t
  deriving Decidable

/-- A value that does not disturb the line or the row that it is in either. -/
def Plain : Prop := Whole t ∧ '\n' ∉ t

theorem plain_nil : Plain [] := ⟨⟨not_mem_nil, not_mem_nil⟩, not_mem_nil⟩

section

variable {t}

theorem Whole.writeAt_eq (h : Whole t) : writeAt t = t := upTo_of_not_mem h.2

/-- The first column that a string is read back from has all of it exactly if it is whole. -/
theorem upTo_writeAt_eq_iff : upTo ',' (writeAt t) = t ↔ Whole t := by
  constructor
  · intro h
    refine ⟨h ▸ not_mem_upTo ',' (writeAt t), fun hnul => ?_⟩
    rw [← h] at hnul
    exact not_mem_upTo '\x00' t ((takeWhile_sublist _).subset hnul)
  · intro h
    rw [h.writeAt_eq, upTo_of_not_mem h.1]

theorem newline_not_mem_writeAt (h : '\n' ∉ t) : '\n' ∉ writeAt t :=
  fun hmem => h ((takeWhile_sublist _).subset hmem)

theorem Plain.writeAt (h : Plain t) : Plain (writeAt t) := h.1.writeAt_eq.symm ▸ h

/-- What a string is read back as is a part at its beginning. -/
theorem upTo_writeAt_prefix : upTo ',' (writeAt t) <+: t := by
  have hcomma : upTo ',' (writeAt t) <+: writeAt t := takeWhile_prefix _
  have hnul : writeAt t <+: t := takeWhile_prefix _
  exact hcomma.trans hnul

end

variable {rest : Text}

/-- A line that is written is the next one to be read. -/
theorem getline_appendLine {line : Text} (h : '\n' ∉ line) :
    getline (appendLine line ++ rest) = line := by
  have hfile : appendLine line ++ rest = line ++ '\n' :: rest := by simp [appendLine]
  unfold getline upTo
  rw [hfile, takeWhile_append_of_pos]
  · simp
  intro c hc
  simp only [decide_eq_true_eq]
  rintro rfl
  exact h hc

theorem newline_mem_appendLine : '\n' ∈ appendLine line ++ rest := by
  simp [appendLine]

variable {values : List Text}

theorem newline_not_mem_render (h : ∀ v ∈ values, '\n' ∉ v) : '\n' ∉ render values := by
  unfold render
  induction values with
  | nil => simp
  | cons v values ih =>
    obtain ⟨hv, hvalues⟩ := forall_mem_cons.mp h
    cases values with
    | nil => simpa using hv
    | cons w values =>
      rw [intercalate_cons_cons]
      simp only [mem_append, not_or]
      exact ⟨⟨hv, by decide⟩, ih hvalues⟩

/-- The values come back split at the commas that they have. -/
theorem parse_getline_render (hne : values ≠ []) (h : ∀ v ∈ values, '\n' ∉ v) :
    parse (getline (appendLine (render values) ++ rest)) = values.flatMap (splitOn ',') := by
  rw [getline_appendLine (newline_not_mem_render h)]
  exact splitOn_intercalate_eq_flatMap hne

/-! ## Numbers -/

/-- The text of an unsigned number. -/
def natText : Text := Nat.toDigits 10 n

def intText : Int → Text
  | .ofNat n => natText n
  | .negSucc n => '-' :: natText (n + 1)

def boolText : Text := if b then ['1'] else ['0']

def readDigits : Option Nat :=
  if t.isEmpty || !t.all Char.isDigit then none else some (Nat.ofDigitChars 10 t 0)

/-- A number with a magnitude below `bound`, and whether it has a minus sign. -/
def readSigned (bound : Nat) : Text → Option (Bool × Nat)
  | '-' :: t => ((readDigits t).filter (· < bound)).map fun n => (true, n)
  | '+' :: t => ((readDigits t).filter (· < bound)).map fun n => (false, n)
  | t => ((readDigits t).filter (· < bound)).map fun n => (false, n)

/-- `lexical_cast<uint32_t>`: a number with a minus sign is taken modulo 2^32. -/
def readUint32 : Option UInt32 :=
  (readSigned (2 ^ 32) t).map fun r =>
    if r.1 then -UInt32.ofNat r.2 else UInt32.ofNat r.2

/-- `lexical_cast<int>`. -/
def readInt : Option Int :=
  (readSigned (2 ^ 31 + 1) t).bind fun r =>
    if r.1 then some (-(r.2 : Int)) else if r.2 < 2 ^ 31 then some r.2 else none

/-- `lexical_cast<bool>`. -/
def readBool : Text → Option Bool
  | ['0'] => some false
  | ['1'] => some true
  | _ => none

theorem isDigit_of_mem_natText {n : Nat} {c : Char} (h : c ∈ natText n) : c.isDigit :=
  Nat.isDigit_of_mem_toDigits (by decide) (by decide) h

/-- No text of a number needs an escape. -/
theorem natText_plain : Plain (natText n) := by
  have hdigit {c : Char} (hc : c.isDigit = false) : c ∉ natText n := fun h => by
    rw [isDigit_of_mem_natText h] at hc
    cases hc
  exact ⟨⟨hdigit rfl, hdigit rfl⟩, hdigit rfl⟩

theorem intText_plain {n : Int} : Plain (intText n) := by
  cases n with
  | ofNat n => exact natText_plain n
  | negSucc n =>
    obtain ⟨⟨hcomma, hnul⟩, hnl⟩ := natText_plain (n + 1)
    refine ⟨⟨?_, ?_⟩, ?_⟩
    · simpa [intText] using hcomma
    · simpa [intText] using hnul
    · simpa [intText] using hnl

theorem boolText_plain : Plain (boolText b) := by
  cases b <;> exact ⟨⟨by decide, by decide⟩, by decide⟩

theorem bytesText_plain {bytes : List UInt8} : Plain (bytesText bytes) :=
  ⟨⟨fun h => (of_mem_bytesText h).1 rfl, fun h => (of_mem_bytesText h).2.2 rfl⟩,
    fun h => (of_mem_bytesText h).2.1 rfl⟩

/-- What is written for a boolean is read back. -/
theorem readBool_boolText : readBool (boolText b) = some b := by
  cases b <;> rfl

/-- The digits of a number are read as that number. -/
theorem readDigits_natText : readDigits (natText n) = some n := by
  have hall : (natText n).all Char.isDigit = true :=
    all_eq_true.mpr fun c hc => isDigit_of_mem_natText hc
  have hne : (natText n).isEmpty = false := by
    simp [natText]
  unfold readDigits
  rw [hall, hne]
  exact congrArg some (Nat.ofDigitChars_toDigits (by decide) (by decide))

theorem natText_eq_cons : ∃ c t, natText n = c :: t ∧ c.isDigit := by
  cases h : natText n with
  | nil => exact absurd h Nat.toDigits_ne_nil
  | cons c t =>
    have hmem : c ∈ natText n := by
      rw [h]
      exact mem_cons_self
    exact ⟨c, t, rfl, isDigit_of_mem_natText hmem⟩

/-- A natural number has no sign, and must be below the bound of the type. -/
theorem readSigned_natText {bound n : Nat} :
    readSigned bound (natText n) = if n < bound then some (false, n) else none := by
  have hread : readSigned bound (natText n) =
      ((readDigits (natText n)).filter (· < bound)).map fun n => (false, n) := by
    obtain ⟨c, t, ht, hc⟩ := natText_eq_cons n
    rw [ht]
    unfold readSigned
    split
    · rename_i heq
      cases heq
      exact absurd hc (by decide)
    · rename_i heq
      cases heq
      exact absurd hc (by decide)
    · rfl
  rw [hread, readDigits_natText]
  by_cases h : n < bound
  · simp [h]
  · simp [not_lt.mp h, h]

/-- `lexical_cast` to 32 bits refuses a number that does not fit. -/
theorem readUint32_natText :
    readUint32 (natText n) = if n < 2 ^ 32 then some (UInt32.ofNat n) else none := by
  unfold readUint32
  rw [readSigned_natText]
  by_cases h : n < 2 ^ 32
  · rw [if_pos h, if_pos h]
    rfl
  · rw [if_neg h, if_neg h]
    rfl

theorem readUint32_toNat {n : UInt32} : readUint32 (natText n.toNat) = some n := by
  rw [readUint32_natText, if_pos n.toNat_lt, UInt32.ofNat_toNat]

theorem readInt_natText {n : Nat} (h : n < 2 ^ 31) : readInt (natText n) = some (n : Int) := by
  unfold readInt
  rw [readSigned_natText, if_pos (Nat.lt_succ_of_lt h)]
  exact if_pos h

end Util
