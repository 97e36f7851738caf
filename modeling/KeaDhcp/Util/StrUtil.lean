import Mathlib.Algebra.Ring.Nat
import KeaDhcp.Infra.Separated

/-!
# Strings of bytes as hexadecimal text, and tokens

The decoders of `src/lib/util/strutil.cc` and the text of `HWAddr::toText` and `DUID::toText`: two
digits for each byte, with a colon between bytes. A decoder that throws gives `none`.
-/

namespace Util

open Infra List

abbrev Text := List Char

/-- The bytes of a string literal. -/
def ascii (s : String) : List UInt8 := s.toList.map fun c => UInt8.ofNat c.toNat

variable (c : Char) (b : UInt8) {bytes : List UInt8}

/-- `isxdigit` and the value of the digit. -/
def hexValue : Option Nat :=
  if '0' ≤ c ∧ c ≤ '9' then some (c.toNat - '0'.toNat)
  else if 'a' ≤ c ∧ c ≤ 'f' then some (c.toNat - 'a'.toNat + 10)
  else if 'A' ≤ c ∧ c ≤ 'F' then some (c.toNat - 'A'.toNat + 10)
  else none

/-- One byte, `std::setw(2)` with leading zero. -/
def byteText : Text := [Nat.digitChar (b.toNat / 16), Nat.digitChar (b.toNat % 16)]

def bytesText (bytes : List UInt8) : Text := [':'].intercalate (bytes.map byteText)

/-- What stands between two colons: one or two digits. -/
def decodeOctet : Text → Option UInt8
  | [d] => do return UInt8.ofNat (← hexValue d)
  | [hi, lo] => do return UInt8.ofNat ((← hexValue hi) * 16 + (← hexValue lo))
  | _ => none

def decodeColonSeparatedHexString (hexString : Text) : Option (List UInt8) :=
  match hexString.splitOn ':' with
  -- An empty token is allowed as the only one.
  | [[]] => some []
  | tokens => tokens.mapM decodeOctet

def isSpace : Bool := c ∈ [' ', '\t', '\n', '\x0b', '\x0c', '\r']

def decodePairs : Text → Option (List UInt8)
  | [] => some []
  | [_] => none
  | hi :: lo :: rest => do return (← decodeOctet [hi, lo]) :: (← decodePairs rest)

/-- `encode::decodeHex`: white space is skipped. -/
def decodeHex (t : Text) : Option (List UInt8) := decodePairs (t.filter fun c => !isSpace c)

def decodeFormattedHexString (hexString : Text) : Option (List UInt8) :=
  if ':' ∈ hexString then
    decodeColonSeparatedHexString hexString
  else
    let padding := if hexString.length % 2 ≠ 0 then ['0'] else []
    let digits :=
      if hexString.length > 2 ∧ hexString.take 2 = ['0', 'x'] then hexString.drop 2 else hexString
    decodeHex (padding ++ digits)

/-! ## Reading back -/

theorem hexValue_digitChar : ∀ n < 16, hexValue (Nat.digitChar n) = some n := by decide

/-- A character that separates neither bytes nor values nor lines, and does not end a text. -/
def IsDigitText : Prop := c ≠ ',' ∧ c ≠ ':' ∧ c ≠ '\n' ∧ isSpace c = false ∧ c ≠ '\x00'
  deriving Decidable

theorem isDigitText_digitChar : ∀ n < 16, IsDigitText (Nat.digitChar n) := by decide

theorem div_16_lt : b.toNat / 16 < 16 := by
  have := b.toNat_lt
  omega

theorem mod_16_lt : b.toNat % 16 < 16 := Nat.mod_lt _ (by decide)

theorem decodeOctet_byteText : decodeOctet (byteText b) = some b := by
  have hvalue : b.toNat / 16 * 16 + b.toNat % 16 = b.toNat := by omega
  simp only [decodeOctet, byteText, hexValue_digitChar _ (div_16_lt b),
    hexValue_digitChar _ (mod_16_lt b), Option.bind_eq_bind, Option.bind_some, hvalue]
  exact congrArg some UInt8.ofNat_toNat

theorem isDigitText_of_mem {b : UInt8} {c : Char} (h : c ∈ byteText b) : IsDigitText c := by
  simp only [byteText, mem_cons, not_mem_nil, or_false] at h
  rcases h with rfl | rfl
  · exact isDigitText_digitChar _ (div_16_lt b)
  · exact isDigitText_digitChar _ (mod_16_lt b)

theorem mapM_decodeOctet (bytes : List UInt8) :
    (bytes.map byteText).mapM decodeOctet = some bytes := by
  induction bytes with
  | nil => rfl
  | cons b bytes ih => simp [decodeOctet_byteText, ih]

theorem splitOn_bytesText (h : bytes ≠ []) :
    (bytesText bytes).splitOn ':' = bytes.map byteText := by
  rw [bytesText, splitOn_intercalate_eq_flatMap (by simpa using h), flatMap_splitOn]
  intro v hv hcolon
  obtain ⟨b, -, rfl⟩ := mem_map.mp hv
  exact (isDigitText_of_mem hcolon).2.1 rfl

theorem decodeColonSeparatedHexString_bytesText :
    decodeColonSeparatedHexString (bytesText bytes) = some bytes := by
  unfold decodeColonSeparatedHexString
  cases bytes with
  | nil => rfl
  | cons b bytes =>
    rw [splitOn_bytesText (cons_ne_nil _ _)]
    exact mapM_decodeOctet (b :: bytes)

theorem decodeFormattedHexString_bytesText (h : bytes ≠ []) :
    decodeFormattedHexString (bytesText bytes) = some bytes := by
  unfold decodeFormattedHexString
  match bytes, h with
  | [b], _ =>
    -- One byte has no colon and is read as a string of digits.
    have htext : bytesText [b] = byteText b := by simp [bytesText]
    have hcolon : ':' ∉ byteText b := fun hc => (isDigitText_of_mem hc).2.1 rfl
    have hdigits : (byteText b).filter (fun c => !isSpace c) = byteText b := by
      refine filter_eq_self.mpr fun c hc => ?_
      rw [(isDigitText_of_mem hc).2.2.2.1]
      rfl
    have hpairs : decodePairs (byteText b) = some [b] := by
      have hoctet := decodeOctet_byteText b
      unfold byteText at hoctet ⊢
      rw [decodePairs, hoctet]
      rfl
    have hlength : (byteText b).length = 2 := rfl
    rw [htext, if_neg hcolon]
    simp [hlength, decodeHex, hdigits, hpairs]
  | b :: c :: bytes, _ =>
    have hcolon : ':' ∈ bytesText (b :: c :: bytes) := by
      simp [bytesText]
    rw [if_pos hcolon, decodeColonSeparatedHexString_bytesText]

theorem bytesText_ne_nil (h : bytes ≠ []) : bytesText bytes ≠ [] := by
  cases bytes with
  | nil => exact absurd rfl h
  | cons b bytes => cases bytes <;> simp [bytesText, byteText]

theorem of_mem_bytesText {c : Char} (h : c ∈ bytesText bytes) :
    c ≠ ',' ∧ c ≠ '\n' ∧ c ≠ '\x00' := by
  unfold bytesText at h
  induction bytes with
  | nil => cases h
  | cons b bytes ih =>
    have hbyte : c ∈ byteText b → c ≠ ',' ∧ c ≠ '\n' ∧ c ≠ '\x00' := by
      intro hc
      obtain ⟨hcomma, -, hnl, -, hnul⟩ := isDigitText_of_mem hc
      exact ⟨hcomma, hnl, hnul⟩
    cases bytes with
    | nil => exact hbyte (by simpa using h)
    | cons b' bytes =>
      rw [map_cons, map_cons, intercalate_cons_cons] at h
      rcases mem_append.mp h with h | h
      · rcases mem_append.mp h with h | h
        · exact hbyte h
        · rw [mem_singleton.mp h]
          decide
      · exact ih h

/-! ## Blanks -/

/-- `trim`: the text without the blanks at its ends. -/
def trim (s : String) : String :=
  let blanks := [' ', '\t', '\n']
  String.ofList ((s.toList.dropWhile (· ∈ blanks)).reverse.dropWhile (· ∈ blanks)).reverse

/-! ## Tokens -/

/-- The variables of the loop of `tokens`. -/
structure Tokenizer where
  result : List Text := []
  token : Text := []
  inToken : Bool := false
  escaped : Bool := false

namespace Tokenizer

/-- The token is saved if it is not empty. -/
def save (t : Tokenizer) : List Text := if t.token = [] then t.result else t.result ++ [t.token]

/-- What the loop does with a character. -/
def step (delim : Text) (escape : Bool) (t : Tokenizer) (c : Char) : Tokenizer :=
  if c ∈ delim then
    if !t.inToken then t
    else if t.escaped then { t with escaped := false, token := t.token ++ [c] }
    else { t with result := t.save, inToken := false, token := [] }
  else if escape && c = '\\' then
    if t.escaped then { t with inToken := true, escaped := false, token := t.token ++ [c] }
    else { t with inToken := true, escaped := true }
  else if t.escaped then { t with inToken := true, escaped := false, token := t.token ++ ['\\', c] }
  else { t with inToken := true, token := t.token ++ [c] }

/-- The end of the input. -/
def finish (t : Tokenizer) : List Text :=
  if t.escaped then save { t with token := t.token ++ ['\\'] } else t.save

end Tokenizer

def tokens (text delim : Text) (escape : Bool) : List Text :=
  (text.foldl (Tokenizer.step delim escape) {}).finish

/-- Delimiters and backslashes get a backslash in front of them. -/
def escapeText (delim s : Text) : Text :=
  s.flatMap fun c => if c ∈ delim ∨ c = '\\' then ['\\', c] else [c]

/-- The texts that the escaped strings give with any run of delimiters between two of them. -/
inductive Joined (delim : Text) : List Text → Text → Prop
  | nil : Joined delim [] []
  | one (s : Text) : Joined delim [s] (escapeText delim s)
  | cons (s run : Text) {t text : Text} {strings : List Text} (hne : run ≠ [])
      (hrun : ∀ c ∈ run, c ∈ delim) (h : Joined delim (t :: strings) text) :
      Joined delim (s :: t :: strings) (escapeText delim s ++ run ++ text)

namespace Tokenizer

variable {delim text run s : Text} {strings result : List Text}

/-- Between tokens, delimiters are passed over. -/
theorem foldl_idle (hrun : ∀ c ∈ run, c ∈ delim) :
    run.foldl (step delim true) ⟨result, [], false, false⟩ = ⟨result, [], false, false⟩ := by
  induction run with
  | nil => rfl
  | cons c run ih =>
    rw [forall_mem_cons] at hrun
    rw [foldl_cons, step, if_pos hrun.1]
    exact ih hrun.2

/-- A run of delimiters ends the token. -/
theorem foldl_run {token : Text} (hrun : ∀ c ∈ run, c ∈ delim) (hne : run ≠ [])
    (htoken : token ≠ []) :
    run.foldl (step delim true) ⟨result, token, true, false⟩ =
      ⟨result ++ [token], [], false, false⟩ := by
  obtain ⟨c, run, rfl⟩ := exists_cons_of_ne_nil hne
  rw [forall_mem_cons] at hrun
  rw [foldl_cons, step, if_pos hrun.1]
  simp only [save, htoken, if_false]
  exact foldl_idle hrun.2

section

variable (hdelim : '\\' ∉ delim)
include hdelim

/-- What was escaped goes to the token, one character after the other. -/
theorem foldl_escapeText (hs : s ≠ []) (token : Text) (inToken : Bool) :
    (escapeText delim s).foldl (step delim true) ⟨result, token, inToken, false⟩ =
      ⟨result, token ++ s, true, false⟩ := by
  induction s generalizing token inToken with
  | nil => exact absurd rfl hs
  | cons c s ih =>
    have hchar : (if c ∈ delim ∨ c = '\\' then ['\\', c] else [c]).foldl (step delim true)
        ⟨result, token, inToken, false⟩ = ⟨result, token ++ [c], true, false⟩ := by
      by_cases hc : c ∈ delim
      · simp [step, hdelim, hc]
      by_cases hback : c = '\\'
      · simp [step, hdelim, hback]
      · simp [step, hc, hback]
    rw [escapeText, flatMap_cons, foldl_append, hchar]
    by_cases hs : s = []
    · rw [hs]
      rfl
    · rw [← escapeText, ih hs, append_assoc]
      rfl

theorem finish_joined (hne : ∀ s ∈ strings, s ≠ []) (h : Joined delim strings text) :
    (text.foldl (step delim true) ⟨result, [], false, false⟩).finish = result ++ strings := by
  induction h generalizing result with
  | nil => exact (append_nil result).symm
  | one s =>
    have hs := hne s mem_cons_self
    rw [foldl_escapeText hdelim hs, nil_append]
    simp [finish, save, hs]
  | cons s run hrun' hrun h ih =>
    rw [forall_mem_cons] at hne
    rw [foldl_append, foldl_append, foldl_escapeText hdelim hne.1, nil_append,
      foldl_run hrun hrun' hne.1, ih hne.2, append_assoc]
    rfl

end

end Tokenizer

/--
**Escaped tokenizing inverts escaping.** Non-empty strings come back from every text that joins their
escaped forms with runs of delimiters.
-/
theorem tokens_joined (delim text : Text) (strings : List Text) (hdelim : '\\' ∉ delim)
    (hne : ∀ s ∈ strings, s ≠ []) (h : Joined delim strings text) :
    tokens text delim true = strings :=
  Tokenizer.finish_joined hdelim hne h

/-- A delimiter at the start of a string and a backslash at the end of another one. -/
theorem tokens_joined_sample :
    tokens ['\\', ',', ' ', ',', 'a', '\\', '\\'] [',', ' '] true = [[','], ['a', '\\']] :=
  tokens_joined _ _ _ (by decide) (by decide)
    (.cons [','] [' ', ','] (by decide) (by simp) (.one ['a', '\\']))

end Util
