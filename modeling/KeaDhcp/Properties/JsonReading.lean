import KeaDhcp.Cc.JsonRendering
import Mathlib.Data.List.DropRight

/-!
# JSON text that is read back

A rendering of an element is read back if its strings have no control characters but those with an
escape of their own, and its keys have no quotes and no backslashes (`Rendering.fromJSON_eq`). Each
part of the text is considered with any input after it (`Reads`).
-/

namespace Data.Json

open Infra Util Data.Json.Element
open List hiding all_map

variable {ρ : Type}
variable {blank input rest key text gap trail : ByteString} {c : UInt8} {value : Int} {fuel : Nat}
    {element : Element ρ}

/-! ## White space and strings -/

/-- White space in front makes no difference. -/
theorem skipChars_blank (h : IsBlank blank) :
    skipChars (blank ++ input) whitespace = skipChars input whitespace := by
  unfold skipChars
  rw [dropWhile_append, dropWhile_eq_nil_iff.mpr fun c hc => decide_eq_true (h c hc)]
  rfl

theorem skipChars_cons (h : c ∉ whitespace) : skipChars (c :: input) whitespace = c :: input :=
  dropWhile_cons_of_neg (by simpa using h)

theorem skipChars_skipChars :
    skipChars (skipChars input whitespace) whitespace = skipChars input whitespace :=
  dropWhile_idempotent _ _

variable {chars : ByteString}

theorem skipTo_skipChars :
    skipTo chars whitespace (skipChars input whitespace) = skipTo chars whitespace input := by
  induction input with
  | nil => rfl
  | cons c input ih =>
    by_cases hc : c ∈ whitespace
    · rw [skipTo, if_pos hc, ← ih]
      exact congrArg _ (dropWhile_cons_of_pos (by simpa using hc))
    · rw [skipChars_cons hc]

theorem skipTo_found (h : skipChars input whitespace = c :: rest) (hc : c ∈ chars) :
    skipTo chars whitespace input = .ok (c, skipChars rest whitespace) := by
  have hother : c ∉ whitespace := by
    have hhead : (input.dropWhile (· ∈ whitespace)).head? = some c := congrArg head? h
    have hnot := head?_dropWhile_not (· ∈ whitespace) input
    rw [hhead] at hnot
    simpa using hnot
  rw [← skipTo_skipChars, h, skipTo, if_neg hother, if_pos hc]

theorem stringBody_quote : stringBody (quote :: input) = .ok ([], input) := by
  rw [stringBody.eq_def]
  exact if_pos rfl

/-- An escape that the reader knows. -/
theorem stringBody_escape {e : UInt8} (h : unescape e = some c) :
    stringBody (backslash :: e :: input) = stringBody input >>= fun (value, rest) =>
      return (c :: value, rest) := by
  rw [stringBody.eq_def]
  dsimp only
  rw [if_neg (by decide), if_pos rfl, h]

theorem stringBody_char (hquote : c ≠ quote) (hbackslash : c ≠ backslash) :
    stringBody (c :: input) = stringBody input >>= fun (value, rest) =>
      return (c :: value, rest) := by
  rw [stringBody.eq_def]
  dsimp only
  rw [if_neg hquote, if_neg hbackslash]

/-- A key without quotes and backslashes is read as it stands. -/
theorem stringBody_plain (h : quote ∉ key ∧ backslash ∉ key) :
    stringBody (key ++ quote :: rest) = .ok (key, rest) := by
  induction key with
  | nil => exact stringBody_quote
  | cons c key ih =>
    simp only [mem_cons, not_or] at h
    rw [cons_append, stringBody_char (Ne.symm h.1.1) (Ne.symm h.2.1), ih ⟨h.1.2, h.2.2⟩]
    rfl

/-- What is written for a character that is not a control character is read as it. -/
theorem stringBody_escapeChar (h : ¬ IsControl c) :
    stringBody (escapeChar c ++ input) = stringBody input >>= fun (value, rest) =>
      return (c :: value, rest) := by
  unfold escapeChar
  split_ifs with hquote hbackslash hb hf hn hr ht hcontrol
  iterate 7
    subst c
    exact stringBody_escape rfl
  · exact absurd ⟨hcontrol, by simp [hb, hf, hn, hr, ht]⟩ h
  · exact stringBody_char hquote hbackslash

/-- The same for whole strings, up to the closing quote. -/
theorem stringBody_escaped {value : ByteString} (h : ∀ c ∈ value, ¬ IsControl c) :
    stringBody (value.flatMap escapeChar ++ quote :: rest) = .ok (value, rest) := by
  induction value with
  | nil => exact stringBody_quote
  | cons c value ih =>
    rw [forall_mem_cons] at h
    rw [flatMap_cons, append_assoc, stringBody_escapeChar h.1, ih h.2]
    rfl

/-! ## Numbers and words -/

/-- The input after a value: nothing that a number or a word could go on with. -/
def Delimited (input : ByteString) : Prop :=
  ∀ c, input.head? = some c → isalpha c = false ∧ isNumberChar c = false

theorem delimited_nil : Delimited [] := nofun

theorem delimited_cons (h : isalpha c = false ∧ isNumberChar c = false) :
    Delimited (c :: input) := by
  intro c' heq
  rw [← Option.some.inj heq]
  exact h

variable {p : UInt8 → Bool}

/-- A text is cut off where its characters end. -/
theorem takeWhile_dropWhile (htext : ∀ c ∈ text, p c = true)
    (hrest : ∀ c, rest.head? = some c → p c = false) :
    (text ++ rest).takeWhile p = text ∧ (text ++ rest).dropWhile p = rest := by
  rw [takeWhile_append_of_pos htext, dropWhile_append_of_pos htext]
  cases rest with
  | nil => exact ⟨append_nil _, rfl⟩
  | cons c rest =>
    have hc : ¬ p c = true := by simp [hrest c rfl]
    exact ⟨by rw [takeWhile_cons_of_neg hc, append_nil], dropWhile_cons_of_neg hc⟩

theorem mem_intText (h : c ∈ intText value) : IsDigit c ∨ c = 0x2d := by
  unfold intText at h
  split at h
  · rcases mem_cons.mp h with rfl | h
    · exact .inr rfl
    · exact .inl (isDigit_of_mem_decimal h)
  · exact .inl (isDigit_of_mem_decimal h)

theorem not_isRealChar (h : IsDigit c ∨ c = 0x2d) : isRealChar c = false := by
  have hdigit : ¬ IsDigit 0x2e ∧ ¬ IsDigit 0x65 ∧ ¬ IsDigit 0x45 := by decide
  rcases h with h | rfl
  · refine decide_eq_false fun hreal => ?_
    rcases hreal with rfl | rfl | rfl
    · exact hdigit.1 h
    · exact hdigit.2.1 h
    · exact hdigit.2.2 h
  · rfl

theorem splitSign_intText :
    splitSign (intText value) = (decide (value < 0), decimal value.natAbs) := by
  unfold intText
  split
  · next hneg => rw [splitSign, if_pos rfl, decide_eq_true hneg]
  · next hpos =>
    rw [splitSign_digits fun c hc => isDigit_of_mem_decimal hc, decide_eq_false hpos]

/-- Every `int64_t` is read back from its digits. -/
theorem lexicalCastInt64_intText (h : -2 ^ 63 ≤ value ∧ value < 2 ^ 63) :
    lexicalCastInt64 (intText value) = some value := by
  have hdigits : ¬ (decimal value.natAbs = [] ∨ ¬ ∀ c ∈ decimal value.natAbs, IsDigit c) := by
    rintro (hnil | hdigit)
    · exact decimal_ne_nil hnil
    · exact hdigit fun c hc => isDigit_of_mem_decimal hc
  have hvalue : (if decide (value < 0) then - (value.natAbs : Int) else value.natAbs) = value := by
    by_cases hneg : value < 0
    · rw [if_pos (decide_eq_true hneg)]
      omega
    · rw [if_neg (by simpa using hneg)]
      omega
  unfold lexicalCastInt64
  rw [splitSign_intText]
  dsimp only
  rw [if_neg hdigits, decimalValue_decimal, hvalue, if_pos h]

/-! ## Values -/

section Reading

variable (reals : Reals ρ)

/-- The first character that is not white space decides what is read. -/
theorem fromStream_eq (h : skipChars input whitespace = c :: rest) :
    fromStream reals (fuel + 1) input
      = if IsDigit c ∨ c = 0x2d ∨ c = 0x2b ∨ c = 0x2e then fromStringstreamNumber reals (c :: rest)
        else if c = 0x74 ∨ c = 0x66 then fromStringstreamBool (c :: rest)
        else if c = 0x6e then fromStringstreamNull (c :: rest)
        else if c = quote then fromStringstreamString (c :: rest)
        else if c = openBracket then listLoop reals fuel [] (skipChars rest whitespace)
        else if c = openBrace then
          match skipChars rest whitespace with
          | [] => .error .unterminatedMap
          | c :: rest =>
            if c = closeBrace then .ok (.map [], rest) else mapLoop reals fuel [] (c :: rest)
        else .error (.unexpectedCharacter c) := by
  have heq := fromStream.eq_2 reals input fuel
  rw [h] at heq
  exact heq

/-- The text is read as the element, and white space after it may be skipped. -/
structure Reads (text : ByteString) (element : Element ρ) : Prop where
  start : ∃ c rest, text = c :: rest ∧ c ∉ whitespace ∧ c ≠ closeBracket
  read : ∀ fuel rest, 2 * text.length < fuel → Delimited rest →
    ∃ rest', fromStream reals fuel (text ++ rest) = .ok (element, rest') ∧
      skipChars rest' whitespace = skipChars rest whitespace

/-- A text whose first character is neither blank nor the end of a list. -/
theorem reads_of_eq (hstart : c ∉ whitespace ∧ c ≠ closeBracket) (h : ∀ fuel rest, Delimited rest →
      fromStream reals (fuel + 1) (c :: (text ++ rest)) = .ok (element, rest)) :
    Reads reals (c :: text) element := by
  refine ⟨⟨c, text, rfl, hstart⟩, fun fuel rest hfuel hrest => ⟨rest, ?_, rfl⟩⟩
  obtain ⟨fuel, rfl⟩ : ∃ n, fuel = n + 1 := Nat.exists_eq_succ_of_ne_zero (by omega)
  exact h fuel rest hrest

theorem number_start (h : IsDigit c ∨ c = 0x2d) : c ∉ whitespace ∧ c ≠ closeBracket := by
  have hother : ∀ d ∈ closeBracket :: whitespace, ¬ (IsDigit d ∨ d = 0x2d) := by decide +kernel
  refine ⟨fun hmem => hother c (mem_cons_of_mem _ hmem) h, ?_⟩
  rintro rfl
  exact hother _ mem_cons_self h

theorem isNumberChar_of (h : IsDigit c ∨ c = 0x2d) : isNumberChar c = true := by
  refine decide_eq_true ?_
  rcases h with h | h
  · exact .inl h
  · exact .inr (.inr (.inl h))

/-- A number ends where its characters do. -/
theorem reads_integer (h : -2 ^ 63 ≤ value ∧ value < 2 ^ 63) :
    Reads reals (intText value) (.integer value) := by
  have hcast := lexicalCastInt64_intText h
  have hchars : ∀ c ∈ intText value, IsDigit c ∨ c = 0x2d := fun c hc => mem_intText hc
  have hne : intText value ≠ [] := by
    unfold intText
    split
    · exact cons_ne_nil _ _
    · exact decimal_ne_nil
  obtain ⟨c, text, htext⟩ := exists_cons_of_ne_nil hne
  rw [htext] at hcast hchars ⊢
  have hc := hchars c mem_cons_self
  have hstart := number_start hc
  refine reads_of_eq reals hstart fun fuel rest hrest => ?_
  have hsplit := takeWhile_dropWhile (fun d hd => isNumberChar_of (hchars d hd))
    fun d hd => (hrest d hd).2
  have hreal : (c :: text).any isRealChar = false := by
    rw [any_eq_false]
    intro d hd
    simp [not_isRealChar (hchars d hd)]
  have hnumber : IsDigit c ∨ c = 0x2d ∨ c = 0x2b ∨ c = 0x2e :=
    hc.imp_right Or.inl
  rw [fromStream_eq reals (skipChars_cons hstart.1), if_pos hnumber,
    fromStringstreamNumber, ← cons_append, hsplit.1, hsplit.2, hreal, hcast]
  rfl

theorem split_word {word : ByteString} (hword : ∀ c ∈ word, isalpha c = true)
    (hrest : Delimited rest) :
    (word ++ rest).takeWhile isalpha = word ∧ (word ++ rest).dropWhile isalpha = rest :=
  takeWhile_dropWhile hword fun d hd => (hrest d hd).1

theorem fromStringstreamBool_eq {value : Bool} (hrest : Delimited rest) :
    fromStringstreamBool ((if value then ascii "true" else ascii "false") ++ rest)
      = .ok ((.boolean value : Element ρ), rest) := by
  unfold fromStringstreamBool
  cases value with
  | true =>
    have hsplit := split_word (show ∀ c ∈ ascii "true", isalpha c = true by decide +kernel) hrest
    simp only [if_true, hsplit.1, hsplit.2]
  | false =>
    have hsplit := split_word (show ∀ c ∈ ascii "false", isalpha c = true by decide +kernel) hrest
    have hother : ascii "false" ≠ ascii "true" := by decide
    simp only [Bool.false_eq_true, if_false, hsplit.1, hsplit.2, hother, if_true]

/-- The two words of a boolean. -/
theorem reads_boolean {value : Bool} :
    Reads reals (if value then ascii "true" else ascii "false") (.boolean value) := by
  have hread (rest : ByteString) (hrest : Delimited rest) :
      fromStringstreamBool ((if value then ascii "true" else ascii "false") ++ rest)
        = .ok ((.boolean value : Element ρ), rest) := fromStringstreamBool_eq hrest
  cases value with
  | true =>
    refine reads_of_eq reals (by decide) fun fuel rest hrest => ?_
    exact hread rest hrest
  | false =>
    refine reads_of_eq reals (by decide) fun fuel rest hrest => ?_
    rw [fromStream_eq reals (skipChars_cons (by decide)), if_neg (by decide), if_pos (by decide)]
    exact hread rest hrest

theorem reads_null : Reads reals (ascii "null") .null := by
  refine reads_of_eq reals (by decide) fun fuel rest hrest => ?_
  have hsplit := split_word (show ∀ c ∈ ascii "null", isalpha c = true by decide +kernel) hrest
  rw [fromStream_eq reals (skipChars_cons (by decide)), if_neg (by decide), if_neg (by decide)]
  show (if takeWhile isalpha (ascii "null" ++ rest) = ascii "null" then _ else _) = _
  rw [hsplit.1]
  show Except.ok (_, dropWhile isalpha (ascii "null" ++ rest)) = _
  rw [hsplit.2]

/-- A string in quotes, if all its escapes are known to the reader. -/
theorem reads_string {value : ByteString} (h : ∀ c ∈ value, ¬ IsControl c) :
    Reads reals (quote :: value.flatMap escapeChar ++ [quote]) (.string value) := by
  rw [cons_append]
  refine reads_of_eq reals (by decide) fun fuel rest _ => ?_
  rw [fromStream_eq reals (skipChars_cons (by decide)), fromStringstreamString, strFromStringstream,
    append_assoc, singleton_append, stringBody_escaped h]
  rfl

/-! ## Lists and maps -/

theorem delimited_blank (h : IsBlank blank) (hc : isalpha c = false ∧ isNumberChar c = false) :
    Delimited (blank ++ c :: rest) := by
  have hblank : ∀ d ∈ whitespace, isalpha d = false ∧ isNumberChar d = false := by
    decide +kernel
  cases blank with
  | nil => exact delimited_cons hc
  | cons d blank => exact delimited_cons (hblank d (h d mem_cons_self))

variable {lead separator more : ByteString} {texts : List ByteString}

/-- The search for a delimiter passes over the blanks in front of it. -/
theorem skipTo_after {rest' : ByteString} (hblank : IsBlank blank) (hc : c ∈ chars)
    (hother : c ∉ whitespace)
    (h : skipChars rest' whitespace = skipChars (blank ++ c :: rest) whitespace) :
    skipTo chars whitespace rest' = .ok (c, skipChars rest whitespace) := by
  rw [skipChars_blank hblank, skipChars_cons hother] at h
  exact skipTo_found h hc

theorem separated_start : ∃ rest, separated separator ((c :: text) :: texts) = c :: rest := by
  cases texts with
  | nil => exact ⟨text, separated_singleton _ _⟩
  | cons text' texts => exact ⟨_, separated_cons _ _ _ _⟩

theorem skipChars_separated (hblank : IsBlank blank)
    (htext : ∃ c rest, text = c :: rest ∧ c ∉ whitespace) :
    skipChars (blank ++ (separated separator (text :: texts) ++ more)) whitespace
      = separated separator (text :: texts) ++ more := by
  obtain ⟨c, rest, rfl, hc⟩ := htext
  obtain ⟨rest', hstart⟩ := separated_start
  rw [skipChars_blank hblank, hstart, cons_append, skipChars_cons hc]

/-- One round of a loop over the items of a list or a map: the text of an item is read. -/
structure ReadsItem {α σ : Type} (loop : Nat → σ → ByteString → Except JSONError (Element ρ × ByteString))
    (push : σ → α → σ) (finish : σ → Element ρ) (close : UInt8) (text : ByteString) (item : α) :
    Prop where
  start : ∃ c rest, text = c :: rest ∧ c ∉ whitespace
  round : ∀ {fuel before blank c more}, 2 * text.length < fuel → IsBlank blank → c ∈ [comma, close] →
    loop (fuel + 1) before (text ++ (blank ++ c :: more))
      = if c = close then .ok (finish (push before item), skipChars more whitespace)
        else loop fuel (push before item) (skipChars more whitespace)

/-- The loops over lists and maps are the same: items with commas between them. -/
theorem loop_items {α σ : Type} {loop : Nat → σ → ByteString → Except JSONError (Element ρ × ByteString)}
    {push : σ → α → σ} {finish : σ → Element ρ} {close : UInt8} (hclose : comma ≠ close)
    {text : α → ByteString} {items : List α} (hne : items ≠ [])
    (h : ∀ item ∈ items, ReadsItem loop push finish close (text item) item) (hgap : IsBlank gap)
    (htrail : IsBlank trail) (rest : ByteString) (before : σ)
    (hfuel : 2 * ((separated (comma :: gap) (items.map text)).length + trail.length + 1) < fuel) :
    loop fuel before (separated (comma :: gap) (items.map text) ++ (trail ++ close :: rest))
      = .ok (finish (items.foldl push before), skipChars rest whitespace) := by
  induction items generalizing before fuel with
  | nil => exact absurd rfl hne
  | cons item items ih =>
    obtain ⟨fuel, rfl⟩ : ∃ n, fuel = n + 1 := Nat.exists_eq_succ_of_ne_zero (by omega)
    rw [forall_mem_cons] at h
    cases items with
    | nil =>
      simp only [map_cons, map_nil, separated_singleton] at hfuel ⊢
      rw [h.1.round (by omega) htrail (by simp), if_pos rfl]
      rfl
    | cons item' items =>
      simp only [map_cons, separated_cons, length_append, length_cons] at hfuel ⊢
      have hfuel' : 2 * ((separated (comma :: gap) ((item' :: items).map text)).length
          + trail.length + 1) < fuel := by
        rw [map_cons]
        omega
      have hnext := ih (cons_ne_nil _ _) h.2 (push before item) hfuel'
      rw [append_assoc, append_assoc, cons_append, ← nil_append (comma :: _),
        h.1.round (by omega) isBlank_nil (by simp), if_neg hclose,
        skipChars_separated hgap (h.2 item' mem_cons_self).start]
      exact hnext

/-- One element of a list. -/
theorem Reads.listItem (h : Reads reals text element) :
    ReadsItem (listLoop reals) (fun elements element => elements ++ [element]) .list closeBracket
      text element where
  start := by
    obtain ⟨c, rest, htext, hc, -⟩ := h.start
    exact ⟨c, rest, htext, hc⟩
  round := by
    intro fuel before blank c more hfuel hblank hc
    have hdelimiter : ∀ d ∈ [comma, closeBracket],
        (isalpha d = false ∧ isNumberChar d = false) ∧ d ∉ whitespace := by decide +kernel
    obtain ⟨rest, hread, hrest⟩ := h.read fuel (blank ++ c :: more) hfuel
      (delimited_blank hblank (hdelimiter c hc).1)
    obtain ⟨first, chars, htext, -, hclose⟩ := h.start
    have hhead : (text ++ (blank ++ c :: more)).head? ≠ some closeBracket := by
      rw [htext]
      simpa using hclose
    rw [listLoop, if_pos hhead, hread, except_ok_bind]
    dsimp only
    rw [skipTo_after hblank hc (hdelimiter c hc).2 hrest]
    rfl

/-- The key of a member and the colon behind it. -/
theorem key_read (hkey : quote ∉ key ∧ backslash ∉ key)
    (htext : ∃ c rest, text = c :: rest ∧ c ∉ whitespace) :
    ∃ input, strFromStringstream (memberText key text ++ more) = .ok (key, input) ∧
      skipTo [colon] whitespace input = .ok (colon, text ++ more) := by
  obtain ⟨c, rest, rfl, hc⟩ := htext
  have hblank : IsBlank [0x20] := by decide +kernel
  refine ⟨colon :: ([0x20] ++ (c :: rest ++ more)), ?_, ?_⟩
  · have heq : memberText key (c :: rest) ++ more
        = quote :: (key ++ quote :: (colon :: ([0x20] ++ (c :: rest ++ more)))) := by
      simp only [memberText, cons_append, append_assoc]
      rfl
    rw [heq, strFromStringstream, if_pos rfl, stringBody_plain hkey]
  · rw [skipTo_found (skipChars_cons (by decide)) mem_cons_self, skipChars_blank hblank,
      cons_append, skipChars_cons hc]

/-- One member of a map. -/
theorem Reads.mapItem (hkey : quote ∉ key ∧ backslash ∉ key) (h : Reads reals text element) :
    ReadsItem (mapLoop reals) (fun members member => insertEntry member.1 member.2 members) .map
      closeBrace (memberText key text) (key, element) where
  start := ⟨quote, _, rfl, by decide⟩
  round := by
    intro fuel before blank c more hfuel hblank hc
    have hdelimiter : ∀ d ∈ [comma, closeBrace],
        (isalpha d = false ∧ isNumberChar d = false) ∧ d ∉ whitespace := by decide +kernel
    have hlength : text.length ≤ (memberText key text).length := by
      simp only [memberText, length_append]
      omega
    obtain ⟨first, chars, htext, hother, -⟩ := h.start
    obtain ⟨input, hstring, hcolon⟩ := key_read hkey ⟨first, chars, htext, hother⟩
    obtain ⟨rest, hread, hrest⟩ := h.read fuel (blank ++ c :: more) (by omega)
      (delimited_blank hblank (hdelimiter c hc).1)
    rw [mapLoop, hstring, except_ok_bind]
    dsimp only
    rw [hcolon, except_ok_bind]
    rw [hread, except_ok_bind]
    rw [skipTo_after hblank hc (hdelimiter c hc).2 hrest]
    rfl

theorem skipChars_empty (hlead : IsBlank lead) (htrail : IsBlank trail) (hc : c ∉ whitespace) :
    skipChars (lead ++ (separated separator [] ++ (trail ++ c :: rest))) whitespace = c :: rest := by
  rw [show separated separator [] = [] from rfl, nil_append, skipChars_blank hlead,
    skipChars_blank htrail, skipChars_cons hc]

/-- Lists, with blanks after the bracket, after commas and before the end. -/
theorem reads_list {elements : List (Element ρ)} {text : Element ρ → ByteString}
    (h : ∀ element ∈ elements, Reads reals (text element) element) (hlead : IsBlank lead)
    (hgap : IsBlank gap) (htrail : IsBlank trail) :
    Reads reals (openBracket :: (lead ++ (separated (comma :: gap) (elements.map text)
      ++ (trail ++ [closeBracket])))) (.list elements) := by
  refine ⟨⟨openBracket, _, rfl, by decide, by decide⟩, fun fuel rest hfuel _ => ?_⟩
  obtain ⟨fuel, rfl⟩ : ∃ n, fuel = n + 1 := Nat.exists_eq_succ_of_ne_zero (by omega)
  simp only [length_cons, length_append] at hfuel
  rw [cons_append, fromStream_eq reals (skipChars_cons (by decide)), if_neg (by decide),
    if_neg (by decide), if_neg (by decide), if_neg (by decide), if_pos rfl]
  simp only [append_assoc, singleton_append]
  cases elements with
  | nil =>
    obtain ⟨fuel, rfl⟩ : ∃ n, fuel = n + 1 := Nat.exists_eq_succ_of_ne_zero (by omega)
    refine ⟨rest, ?_, rfl⟩
    rw [map_nil, skipChars_empty hlead htrail (by decide), listLoop]
    rfl
  | cons element elements =>
    have hitems : ∀ item ∈ element :: elements, _ := fun item hitem => (h item hitem).listItem
    refine ⟨_, ?_, skipChars_skipChars⟩
    rw [map_cons, skipChars_separated hlead (hitems element mem_cons_self).start, ← map_cons,
      loop_items (by decide) (cons_ne_nil _ _) hitems hgap htrail rest [] (by omega),
      foldl_append_eq_append, ← flatMap_def, flatMap_singleton']
    rfl

/-- Maps, whose keys must not need an escape. -/
theorem reads_map {members : List (ByteString × Element ρ)} {text : Element ρ → ByteString}
    (h : ∀ member ∈ members, Reads reals (text member.2) member.2)
    (hkeys : ∀ member ∈ members, quote ∉ member.1 ∧ backslash ∉ member.1) (hlead : IsBlank lead)
    (hgap : IsBlank gap) (htrail : IsBlank trail) :
    Reads reals (openBrace :: (lead ++ (separated (comma :: gap)
      (members.map fun member => memberText member.1 (text member.2)) ++ (trail ++ [closeBrace]))))
      (.map (insertEntries members [])) := by
  refine ⟨⟨openBrace, _, rfl, by decide, by decide⟩, fun fuel rest hfuel _ => ?_⟩
  obtain ⟨fuel, rfl⟩ : ∃ n, fuel = n + 1 := Nat.exists_eq_succ_of_ne_zero (by omega)
  simp only [length_cons, length_append] at hfuel
  rw [cons_append, fromStream_eq reals (skipChars_cons (by decide))]
  simp only [append_assoc, singleton_append]
  cases members with
  | nil =>
    refine ⟨rest, ?_, rfl⟩
    rw [map_nil, skipChars_empty hlead htrail (by decide)]
    rfl
  | cons member members =>
    have hitems : ∀ item ∈ member :: members, _ :=
      fun item hitem => (h item hitem).mapItem reals (hkeys item hitem)
    have hloop := loop_items (by decide) (cons_ne_nil _ _) hitems hgap htrail rest []
      (show _ < fuel by omega)
    obtain ⟨chars, hchars⟩ : ∃ chars, separated (comma :: gap)
        (memberText member.1 (text member.2)
          :: members.map fun member => memberText member.1 (text member.2))
            ++ (trail ++ closeBrace :: rest) = quote :: chars := by
      obtain ⟨chars, hchars⟩ := separated_start
      exact ⟨chars ++ (trail ++ closeBrace :: rest), congrArg (· ++ _) hchars⟩
    refine ⟨_, ?_, skipChars_skipChars⟩
    rw [map_cons, skipChars_separated hlead (hitems member mem_cons_self).start, hchars]
    rw [map_cons, hchars] at hloop
    exact hloop

section

variable (h : Rendering element text) (hvalid : element.Valid)
  (hcontrol : element.All Element.NoControl) (hkeys : element.All Element.PlainKeys)
include h hvalid hcontrol hkeys

/-- A rendering is read as its element. -/
theorem Rendering.reads : Reads reals text element := by
  induction h with
  | null => exact reads_null reals
  | integer value => exact reads_integer reals hvalid
  | boolean value => exact reads_boolean reals
  | string value => exact reads_string reals hcontrol
  | list _ hlead hgap htrail ih =>
    refine reads_list reals (fun element hmem => ?_) hlead hgap htrail
    exact ih element hmem ((all_list.mp hvalid).2 _ hmem) ((all_list.mp hcontrol).2 _ hmem)
      ((all_list.mp hkeys).2 _ hmem)
  | map horder _ hlead hgap htrail ih =>
    rw [Element.Valid, all_map] at hvalid
    rw [all_map] at hcontrol hkeys
    rw [← insertEntries_eq hvalid.1 horder]
    refine reads_map reals (fun member hmem => ?_)
      (fun member hmem => hkeys.1 _ (horder.mem_iff.mp hmem)) hlead hgap htrail
    have hmem' := horder.mem_iff.mp hmem
    exact ih member hmem' (hvalid.2 _ hmem') (hcontrol.2 _ hmem') (hkeys.2 _ hmem')

/-- A rendering without control characters and with plain keys is read back. -/
theorem Rendering.fromJSON_eq : fromJSON reals text = .ok element := by
  obtain ⟨rest, hread, hrest⟩ := (h.reads reals hvalid hcontrol hkeys).read
    (2 * text.length + 2) [] (by omega) delimited_nil
  rw [append_nil] at hread
  unfold fromJSON
  rw [hread]
  exact if_pos hrest

end

end Reading

end Data.Json
