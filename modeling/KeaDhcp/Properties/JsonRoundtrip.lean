import KeaDhcp.Properties.JsonReading
import Mathlib.Algebra.Order.BigOperators.Group.List
import Mathlib.Algebra.Order.Monoid.Prod
import Mathlib.Tactic.Abel

/-!
# JSON text that is not read back

The writer's `\u` escape is not known to the reader, and keys are written without escapes. Nothing
else in a text can make up for that. A text is made of single characters and escapes (`Units`)
whenever it is read, which excludes `\u`. And what is read cannot take more quotes, and with as many
quotes not more backslashes, than the text has (`Taken`): an element with a quote or a backslash
in a key needs more of them than its renderings have (`Rendering.cost`).
-/

namespace Data.Json

open Infra Util List

variable {ρ : Type}
variable {text value : ByteString} {c e : UInt8} {fuel : Nat}

/-! ## Sums over the parts of an element -/

variable {members : List (ByteString × Element ρ)} {elements : List (Element ρ)}

section Sum

variable {M : Type} [AddCommMonoid M] (f : Element ρ → M)

mutual

/-- The sum over the element and all elements in it. -/
def Element.sum : Element ρ → M
  | .null => f .null
  | .integer value => f (.integer value)
  | .real value => f (.real value)
  | .boolean value => f (.boolean value)
  | .string value => f (.string value)
  | .list elements => f (.list elements) + sumElements elements
  | .map members => f (.map members) + sumMembers members

def sumElements : List (Element ρ) → M
  | [] => 0
  | element :: elements => element.sum + sumElements elements

def sumMembers : List (ByteString × Element ρ) → M
  | [] => 0
  | (_, value) :: members => value.sum + sumMembers members

end

theorem sumElements_eq : sumElements f elements = (elements.map (Element.sum f)).sum := by
  induction elements with
  | nil => rfl
  | cons element elements ih => rw [sumElements, ih, map_cons, sum_cons]

theorem sumMembers_eq : sumMembers f members = (members.map fun member => member.2.sum f).sum := by
  induction members with
  | nil => rfl
  | cons member members ih => rw [sumMembers, ih, map_cons, sum_cons]

theorem Element.sum_list :
    (Element.list elements).sum f = f (.list elements) + (elements.map (Element.sum f)).sum := by
  rw [Element.sum, sumElements_eq]

theorem Element.sum_map :
    (Element.map members).sum f
      = f (.map members) + (members.map fun member => member.2.sum f).sum := by
  rw [Element.sum, sumMembers_eq]

end Sum

/-! ## Quotes, backslashes and the letters of escapes -/

/-- Quotes count first. Then backslashes count, and the letters of escapes against them, so that an
escape of a control character counts as much as the character itself. -/
abbrev Cost := ℤ ×ₗ ℤ

def charCost (c : UInt8) : Cost :=
  if c = quote then toLex (1, 0)
  else if c = backslash then toLex (0, 1)
  else if c ∈ [0x62, 0x66, 0x6e, 0x72, 0x74] then toLex (0, -1)
  else 0

def textCost (text : ByteString) : Cost := (text.map charCost).sum

/-- What a character of a string takes at least. -/
def contentCost (c : UInt8) : Cost :=
  if c = quote then toLex (1, 1)
  else if c = backslash then toLex (0, 2)
  else charCost c

/-- What a string takes, with the quotes around it. -/
def stringCost (value : ByteString) : Cost := toLex (2, 0) + (value.map contentCost).sum

def nodeCost : Element ρ → Cost
  | .null => textCost (ascii "null")
  | .boolean value => textCost (if value then ascii "true" else ascii "false")
  | .string value => stringCost value
  | .map members => (members.map fun member => stringCost member.1).sum
  | _ => 0

abbrev Element.cost (element : Element ρ) : Cost := element.sum nodeCost

@[simp] theorem textCost_nil : textCost [] = 0 := rfl

@[simp] theorem textCost_cons : textCost (c :: text) = charCost c + textCost text := by
  simp [textCost]

@[simp] theorem textCost_append {text' : ByteString} :
    textCost (text ++ text') = textCost text + textCost text' := by
  simp [textCost]

theorem textCost_eq_zero (h : ∀ c ∈ text, charCost c = 0) : textCost text = 0 := by
  induction text with
  | nil => rfl
  | cons c text ih =>
    rw [forall_mem_cons] at h
    rw [textCost_cons, h.1, ih h.2, add_zero]

/-- The characters and escapes of which a text that can be read is made. -/
inductive Units : ByteString → Prop
  | nil : Units []
  | char {c : UInt8} {text : ByteString} (hc : c ≠ backslash) (h : Units text) : Units (c :: text)
  | escape {e : UInt8} {text : ByteString} (he : (unescape e).isSome) (h : Units text) :
      Units (backslash :: e :: text)

/-- What the reader has taken from the input when it has read something with the cost. -/
structure Consumes (cost : Cost) (input rest : ByteString) : Prop where
  length_le : rest.length ≤ input.length
  units : Units rest → Units input
  cost_le : cost + textCost rest ≤ textCost input

/-- Something was taken. -/
structure Taken (cost : Cost) (input rest : ByteString) : Prop extends Consumes cost input rest where
  shorter : rest.length < input.length

variable {input rest middle : ByteString}

section Taken

variable {cost cost' : Cost} {p : UInt8 → Bool}

theorem Consumes.refl (input : ByteString) : Consumes 0 input input :=
  ⟨Nat.le_refl _, id, le_of_eq (zero_add _)⟩

theorem Consumes.trans (h : Consumes cost input middle) (h' : Consumes cost' middle rest) :
    Consumes (cost + cost') input rest where
  length_le := h'.length_le.trans h.length_le
  units := h.units ∘ h'.units
  cost_le := by
    rw [add_assoc]
    exact le_trans (add_le_add_right h'.cost_le cost) h.cost_le

theorem Consumes.taken (h : Consumes cost input middle) (h' : Taken cost' middle rest) :
    Taken (cost + cost') input rest :=
  ⟨h.trans h'.toConsumes, h'.shorter.trans_le h.length_le⟩

theorem Taken.trans (h : Taken cost input middle) (h' : Consumes cost' middle rest) :
    Taken (cost + cost') input rest :=
  ⟨h.toConsumes.trans h', h'.length_le.trans_lt h.shorter⟩

theorem Taken.mono (h : Taken cost input rest) (hle : cost' ≤ cost) : Taken cost' input rest :=
  ⟨⟨h.length_le, h.units, le_trans (add_le_add_left hle _) h.cost_le⟩, h.shorter⟩

theorem Taken.char (hc : c ≠ backslash) (rest : ByteString) : Taken (charCost c) (c :: rest) rest :=
  ⟨⟨Nat.le_succ _, Units.char hc, le_of_eq (textCost_cons).symm⟩, Nat.lt_succ_self _⟩

/-- A character that counts nothing. -/
theorem Taken.free (h : c ≠ backslash ∧ charCost c = 0) (rest : ByteString) :
    Taken 0 (c :: rest) rest :=
  h.2 ▸ char h.1 rest

theorem Consumes.takeWhile (h : ∀ c, p c = true → c ≠ backslash) (input : ByteString) :
    Consumes (textCost (input.takeWhile p)) input (input.dropWhile p) := by
  induction input with
  | nil => exact refl []
  | cons c input ih =>
    by_cases hc : p c = true
    · rw [takeWhile_cons_of_pos hc, dropWhile_cons_of_pos hc]
      exact (Taken.char (h c hc) input).toConsumes.trans ih
    · rw [takeWhile_cons_of_neg hc, dropWhile_cons_of_neg hc]
      exact refl _

theorem Taken.takeWhile (h : ∀ c, p c = true → c ≠ backslash) (hc : p c = true) (input : ByteString) :
    Taken (textCost ((c :: input).takeWhile p)) (c :: input) ((c :: input).dropWhile p) := by
  rw [takeWhile_cons_of_pos hc, dropWhile_cons_of_pos hc]
  exact (char (h c hc) input).trans (.takeWhile h input)

/-- Characters that count nothing. -/
theorem takeWhile_cost (h : ∀ c, p c = true → c ≠ backslash ∧ charCost c = 0) :
    textCost (input.takeWhile p) = 0 :=
  textCost_eq_zero fun c hc => (h c (mem_takeWhile_imp hc)).2

end Taken

/-! ## What the reader takes -/

/-- What is read is taken from the input, and no exception is that of the bound. -/
abbrev Takes {α : Type} (cost : α → Cost) (input : ByteString) :
    Except JSONError (α × ByteString) → Prop :=
  Ends (fun result => Taken (cost result.1) input result.2) (· ≠ .outOfFuel)

theorem whitespace_cost : ∀ c ∈ whitespace, c ≠ backslash ∧ charCost c = 0 := by
  decide +kernel

theorem skipChars_consumes (input : ByteString) : Consumes 0 input (skipChars input whitespace) := by
  have hfree (c : UInt8) (hc : decide (c ∈ whitespace) = true) := whitespace_cost c (of_decide_eq_true hc)
  exact takeWhile_cost hfree ▸ .takeWhile (fun c hc => (hfree c hc).1) input

/-- The characters that `skipTo` looks for count nothing. -/
theorem skipTo_takes {chars : ByteString} (hchars : ∀ d ∈ chars, d ≠ backslash ∧ charCost d = 0) :
    Takes (fun _ => 0) input (skipTo chars whitespace input) := by
  induction input with
  | nil => rintro ⟨⟩
  | cons d input ih =>
    unfold skipTo
    split
    · next hd =>
      exact ih.mono fun result h => (Taken.free (whitespace_cost d hd) input).trans h.toConsumes
    split
    · next hd => exact (Taken.free (hchars d hd) input).trans (skipChars_consumes input)
    · rintro ⟨⟩

theorem unescape_cost (h : unescape e = some c) :
    contentCost c ≤ charCost backslash + charCost e := by
  unfold unescape at h
  split_ifs at h with hquote hslash hbackslash hb hf hn hr ht
  all_goals
    subst e
    cases h
    decide

theorem contentCost_char (hquote : c ≠ quote) (hbackslash : c ≠ backslash) :
    contentCost c = charCost c := by
  rw [contentCost, if_neg hquote, if_neg hbackslash]

theorem Taken.escape (h : unescape e = some c) (rest : ByteString) :
    Taken (contentCost c) (backslash :: e :: rest) rest where
  length_le := (Nat.le_succ _).trans (Nat.le_succ _)
  units := Units.escape (by rw [h]; rfl)
  cost_le := by
    rw [textCost_cons, textCost_cons, ← add_assoc]
    exact add_le_add_left (unescape_cost h) _
  shorter := Nat.lt_succ_of_lt (Nat.lt_succ_self _)

theorem Taken.content (h : Taken (contentCost c) input middle)
    (h' : Taken ((value.map contentCost).sum + charCost quote) middle rest) :
    Taken (((c :: value).map contentCost).sum + charCost quote) input rest := by
  rw [map_cons, sum_cons, add_assoc]
  exact h.trans h'.toConsumes

theorem stringBody_takes :
    Takes (fun value => (value.map contentCost).sum + charCost quote) input (stringBody input) := by
  induction input using stringBody.induct with
  | case1 => rintro ⟨⟩
  | case2 input =>
    rw [stringBody_quote]
    show Taken (0 + charCost quote) _ _
    rw [zero_add]
    exact .char (by decide) input
  | case3 => rintro ⟨⟩
  | case4 e input c hc _ ih =>
    rw [stringBody_escape hc]
    exact ih.bind fun result h => (Taken.escape hc input).content h
  | case5 e input hnone hquote =>
    rw [stringBody.eq_def]
    simp [hnone, hquote, Ends]
  | case6 c input hquote hbackslash ih =>
    have hchar := Taken.char hbackslash input
    rw [← contentCost_char hquote hbackslash] at hchar
    rw [stringBody_char hquote hbackslash]
    exact ih.bind fun result h => hchar.content h

theorem strFromStringstream_takes : Takes stringCost input (strFromStringstream input) := by
  cases input with
  | nil => rintro ⟨⟩
  | cons c input =>
    rw [strFromStringstream]
    split
    · next hc =>
      subst hc
      refine stringBody_takes.mono fun result h => ?_
      have hbody := (Taken.char (show quote ≠ backslash by decide) input).trans h.toConsumes
      rwa [add_left_comm, add_comm] at hbody
    · rintro ⟨⟩

theorem isNumberChar_cost (h : isNumberChar c = true) : c ≠ backslash ∧ charCost c = 0 := by
  have hother : ∀ d ∈ [quote, backslash, 0x62, 0x66, 0x6e, 0x72, 0x74], isNumberChar d = false := by
    decide +kernel
  have hne (d : UInt8) (hd : d ∈ [quote, backslash, 0x62, 0x66, 0x6e, 0x72, 0x74]) : c ≠ d := by
    rintro rfl
    rw [hother c hd] at h
    cases h
  refine ⟨hne _ (by decide), ?_⟩
  unfold charCost
  rw [if_neg (hne _ (by decide)), if_neg (hne _ (by decide)), if_neg]
  intro hmem
  exact hne c (mem_cons_of_mem _ (mem_cons_of_mem _ hmem)) rfl

theorem isalpha_ne_backslash (h : isalpha c = true) : c ≠ backslash := by
  rintro rfl
  revert h
  decide

variable {element : Element ρ} {reals : Reals ρ}

section Scalars

theorem fromStringstreamNumber_takes (h : isNumberChar c = true) :
    Takes Element.cost (c :: input) (fromStringstreamNumber reals (c :: input)) := by
  have htake := Taken.takeWhile (fun c hc => (isNumberChar_cost hc).1) h input
  rw [takeWhile_cost fun c hc => isNumberChar_cost hc] at htake
  unfold fromStringstreamNumber
  dsimp only
  split
  all_goals
    split
    · exact htake
    · rintro ⟨⟩

variable (h : isalpha c = true)
include h

theorem fromStringstreamBool_takes :
    Takes Element.cost (c :: input)
      (fromStringstreamBool (c :: input) : Except JSONError (Element ρ × ByteString)) := by
  have htake := Taken.takeWhile (fun c hc => isalpha_ne_backslash hc) h input
  unfold fromStringstreamBool
  dsimp only
  split
  · next hword =>
    rw [hword] at htake
    exact htake
  split
  · next hword =>
    rw [hword] at htake
    exact htake
  · rintro ⟨⟩

theorem fromStringstreamNull_takes :
    Takes Element.cost (c :: input)
      (fromStringstreamNull (c :: input) : Except JSONError (Element ρ × ByteString)) := by
  have htake := Taken.takeWhile (fun c hc => isalpha_ne_backslash hc) h input
  unfold fromStringstreamNull
  dsimp only
  split
  · next hword =>
    rw [hword] at htake
    exact htake
  · rintro ⟨⟩

end Scalars

/-! ## Members of maps -/

def memberCost (member : ByteString × Element ρ) : Cost := stringCost member.1 + member.2.cost

theorem Element.cost_list : (Element.list elements).cost = (elements.map Element.cost).sum := by
  have hnode : nodeCost (.list elements) = 0 := rfl
  rw [Element.cost, Element.sum_list, hnode, zero_add]

theorem Element.cost_map : (Element.map members).cost = (members.map memberCost).sum := by
  rw [Element.cost, Element.sum_map]
  exact sum_map_add.symm

/-- The number of quotes. -/
def quotes (cost : Cost) : ℤ := (ofLex cost).1

theorem quotes_sum {α : Type} {f : α → Cost} {l : List α} (h : ∀ a ∈ l, 0 ≤ quotes (f a)) :
    0 ≤ quotes (l.map f).sum := by
  induction l with
  | nil => exact le_refl 0
  | cons a l ih =>
    rw [forall_mem_cons] at h
    rw [map_cons, sum_cons]
    exact add_nonneg h.1 (ih h.2)

theorem quotes_charCost : 0 ≤ quotes (charCost c) := by
  unfold charCost
  split_ifs <;> decide

theorem quotes_textCost : 0 ≤ quotes (textCost text) := quotes_sum fun _ _ => quotes_charCost

theorem quotes_stringCost : 0 < quotes (stringCost value) := by
  have hcontent : 0 ≤ quotes (value.map contentCost).sum := by
    refine quotes_sum fun c _ => ?_
    unfold contentCost
    split_ifs
    · decide
    · decide
    · exact quotes_charCost
  exact add_pos_of_pos_of_nonneg (by decide) hcontent

theorem quotes_cost : 0 ≤ quotes element.cost := by
  induction element using Element.induction with
  | null => exact quotes_textCost
  | integer value | real value => exact le_refl 0
  | boolean value => exact quotes_textCost
  | string value => exact le_of_lt quotes_stringCost
  | list elements ih =>
    rw [Element.cost_list]
    exact quotes_sum ih
  | map members ih =>
    rw [Element.cost_map]
    refine quotes_sum fun member hmember => ?_
    exact le_of_lt (add_pos_of_pos_of_nonneg quotes_stringCost (ih member hmember))

theorem memberCost_nonneg {member : ByteString × Element ρ} : 0 ≤ memberCost member := by
  have hpos : 0 < quotes (memberCost member) :=
    add_pos_of_pos_of_nonneg quotes_stringCost quotes_cost
  exact le_of_lt (Prod.Lex.lt_iff.mpr (.inl hpos))

theorem insertEntry_cost (key : ByteString) (value : Element ρ)
    (members : List (ByteString × Element ρ)) :
    (Element.map (insertEntry key value members)).cost
      ≤ (Element.map members).cost + memberCost (key, value) := by
  rw [Element.cost_map, Element.cost_map]
  induction members with
  | nil => simp [insertEntry]
  | cons member members ih =>
    unfold insertEntry
    split
    · rw [map_cons, sum_cons, add_comm]
    split
    · rw [map_cons, map_cons, sum_cons, add_comm]
      exact add_le_add_left (le_add_of_nonneg_left memberCost_nonneg) _
    · rw [map_cons, map_cons, sum_cons, sum_cons, add_assoc]
      exact add_le_add_right ih _

/-! ## What the loops take -/

section Loops

variable (reals : Reals ρ)

/-- What is read if the bound on the recursion is large enough: a value, the elements of a list that
are still to come, and the members of a map. -/
structure TakesAt (fuel : Nat) : Prop where
  value : ∀ input, 2 * input.length < fuel → Takes Element.cost input (fromStream reals fuel input)
  list : ∀ elements input, 2 * input.length + 1 < fuel →
    Takes (fun element => element.cost - (Element.list elements).cost) input
      (listLoop reals fuel elements input)
  map : ∀ members input, 2 * input.length + 1 < fuel →
    Takes (fun element => element.cost - (Element.map members).cost) input
      (mapLoop reals fuel members input)

theorem separators_cost : ∀ c ∈ [comma, colon, closeBracket, closeBrace, openBracket, openBrace],
    c ≠ backslash ∧ charCost c = 0 := by decide +kernel

theorem listLoop_takes (h : TakesAt reals fuel) (hfuel : 2 * input.length + 1 < fuel + 1) :
    Takes (fun element => element.cost - (Element.list elements).cost) input
      (listLoop reals (fuel + 1) elements input) := by
  rw [listLoop]
  split
  · refine (h.value input (by omega)).bind ?_
    rintro ⟨first, input₁⟩ hfirst
    refine (skipTo_takes fun d hd => separators_cost d (by revert d; decide +kernel)).bind ?_
    rintro ⟨c, input₂⟩ hskip
    have htaken := hfirst.trans hskip.toConsumes
    have hshorter := htaken.shorter
    have hcost : (Element.list (elements ++ [first])).cost
        = (Element.list elements).cost + first.cost := by
      simp [Element.cost_list]
    dsimp only at htaken hshorter ⊢
    rw [add_zero] at htaken
    split
    · show Taken ((Element.list (elements ++ [first])).cost - _) _ _
      rw [hcost, add_sub_cancel_left]
      exact htaken
    · refine (h.list _ input₂ (by omega)).mono fun result hrest => ?_
      rw [hcost] at hrest
      have hsum := htaken.trans hrest.toConsumes
      rwa [show first.cost + (result.1.cost - ((Element.list elements).cost + first.cost))
        = result.1.cost - (Element.list elements).cost by abel] at hsum
  · next hclose =>
    cases input with
    | nil => simp at hclose
    | cons c input =>
      have hc : c = closeBracket := by simpa using hclose
      subst hc
      show Taken (_ - _) _ _
      rw [sub_self]
      exact .free (separators_cost closeBracket (by decide)) input

theorem mapLoop_takes (h : TakesAt reals fuel) (hfuel : 2 * input.length + 1 < fuel + 1) :
    Takes (fun element => element.cost - (Element.map members).cost) input
      (mapLoop reals (fuel + 1) members input) := by
  have hskips {input : ByteString} (chars : ByteString)
      (hchars : ∀ d ∈ chars, d ∈ [comma, colon, closeBracket, closeBrace, openBracket, openBrace]) :
      Takes (fun _ => 0) input (skipTo chars whitespace input) :=
    skipTo_takes fun d hd => separators_cost d (hchars d hd)
  refine strFromStringstream_takes.bind ?_
  rintro ⟨key, input₁⟩ hkey
  refine (hskips [colon] (by simp)).bind ?_
  rintro ⟨_, input₂⟩ hcolon
  have htaken := hkey.trans hcolon.toConsumes
  have hshorter := htaken.shorter
  dsimp only at hshorter ⊢
  refine (h.value input₂ (by omega)).bind ?_
  rintro ⟨value, input₃⟩ hvalue
  refine (hskips [comma, closeBrace] (by simp)).bind ?_
  rintro ⟨c, input₄⟩ hskip
  replace htaken := htaken.trans (hvalue.trans hskip.toConsumes).toConsumes
  replace hshorter := htaken.shorter
  dsimp only at htaken hshorter ⊢
  rw [add_zero, add_zero] at htaken
  have hcost := insertEntry_cost key value members
  split
  · exact htaken.mono (sub_le_iff_le_add'.mpr hcost)
  refine (h.map _ input₄ (by omega)).mono fun result hrest => ?_
  refine (htaken.trans hrest.toConsumes).mono ?_
  rw [show stringCost key + value.cost + (result.1.cost
      - (Element.map (insertEntry key value members)).cost)
    = result.1.cost - (Element.map members).cost + ((Element.map members).cost
      + memberCost (key, value) - (Element.map (insertEntry key value members)).cost) by
    rw [memberCost]
    abel]
  exact le_add_of_nonneg_right (sub_nonneg.mpr hcost)

theorem separator_takes
    (hc : c ∈ [comma, colon, closeBracket, closeBrace, openBracket, openBrace]) (input : ByteString) :
    Taken 0 (c :: input) (skipChars input whitespace) :=
  (Taken.free (separators_cost c hc) input).trans (skipChars_consumes input)

theorem fromStream_takes (h : TakesAt reals fuel) (hfuel : 2 * input.length < fuel + 1) :
    Takes Element.cost input (fromStream reals (fuel + 1) input) := by
  have hskip := skipChars_consumes input
  cases hinput : skipChars input whitespace with
  | nil =>
    rw [fromStream, hinput]
    rintro ⟨⟩
  | cons c input' =>
    rw [hinput] at hskip
    have hlength := hskip.length_le
    rw [length_cons] at hlength
    suffices hread : Takes Element.cost (c :: input') (fromStream reals (fuel + 1) input) from
      hread.mono fun result htaken => zero_add result.1.cost ▸ hskip.taken htaken
    rw [fromStream_eq reals hinput]
    split
    · next hc =>
      have hnumber : isNumberChar c = true := by
        refine decide_eq_true ?_
        rcases hc with hc | hc | hc | hc
        · exact .inl hc
        · exact .inr (.inr (.inl hc))
        · exact .inr (.inl hc)
        · exact .inr (.inr (.inr (.inl hc)))
      exact fromStringstreamNumber_takes hnumber
    split
    · next hc => exact fromStringstreamBool_takes (by rcases hc with rfl | rfl <;> decide)
    split
    · next hc => exact fromStringstreamNull_takes (by rw [hc]; decide)
    split
    · exact strFromStringstream_takes.bind fun result htaken => htaken
    split
    · next hc =>
      subst hc
      have hopen := separator_takes (c := openBracket) (by decide) input'
      have hshorter : _ < input'.length + 1 := hopen.shorter
      refine (h.list [] _ (by omega)).mono fun result htaken => ?_
      have hlist := hopen.trans htaken.toConsumes
      dsimp only at hlist
      rwa [Element.cost_list, map_nil, sum_nil, sub_zero, zero_add] at hlist
    split
    · next hc =>
      subst hc
      have hopen := separator_takes (c := openBrace) (by decide) input'
      split
      · rintro ⟨⟩
      · next c input'' hbody =>
        rw [hbody] at hopen
        have hshorter : (c :: input'').length < input'.length + 1 := hopen.shorter
        split
        · next hclose =>
          subst hclose
          exact hopen.trans (Taken.free (separators_cost closeBrace (by decide)) input'').toConsumes
        refine (h.map [] _ (by omega)).mono fun result htaken => ?_
        have hmap := hopen.trans htaken.toConsumes
        dsimp only at hmap
        rwa [Element.cost_map, map_nil, sum_nil, sub_zero, zero_add] at hmap
    · rintro ⟨⟩

theorem takesAt : TakesAt reals fuel := by
  induction fuel with
  | zero => exact ⟨nofun, nofun, nofun⟩
  | succ fuel ih =>
    exact ⟨fun _ => fromStream_takes reals ih, fun _ _ => listLoop_takes reals ih,
      fun _ _ => mapLoop_takes reals ih⟩

/-- What `fromJSON` reads is in the text, and the bound that it sets is never reached. -/
theorem fromJSON_takes :
    Ends (fun element => Units text ∧ element.cost ≤ textCost text) (· ≠ .outOfFuel)
      (fromJSON reals text) := by
  refine ((takesAt reals).value text (by omega)).bind ?_
  rintro ⟨element, rest⟩ htaken
  dsimp only
  split
  · next hend =>
    have hall := htaken.toConsumes.trans (skipChars_consumes rest)
    rw [hend] at hall
    exact ⟨hall.units .nil, by simpa using hall.cost_le⟩
  · rintro ⟨⟩

end Loops

/-! ## Control characters -/

theorem Units.after {whole : ByteString} (h : Units whole) (hc : c ≠ backslash)
    (before : ByteString) (heq : whole = before ++ c :: text) : Units text := by
  induction h generalizing before with
  | nil => cases before <;> cases heq
  | char hd h ih =>
    cases before with
    | nil =>
      obtain ⟨-, rfl⟩ := cons.inj heq
      exact h
    | cons d before => exact ih before (cons.inj heq).2
  | escape he h ih =>
    cases before with
    | nil => exact absurd (cons.inj heq).1.symm hc
    | cons d before =>
      cases before with
      | nil =>
        obtain ⟨-, rfl⟩ := cons.inj (cons.inj heq).2
        exact h
      | cons d' before => exact ih before (cons.inj (cons.inj heq).2).2

theorem Units.escaped (h : Units (backslash :: e :: text)) : (unescape e).isSome ∧ Units text := by
  cases h with
  | char hc => exact absurd rfl hc
  | escape he h => exact ⟨he, h⟩

/-- The writer's text of a character is no text of the reader if the character is a control
character. -/
theorem Units.escapeChar (h : Units (escapeChar c ++ text)) : ¬ IsControl c ∧ Units text := by
  unfold Json.escapeChar at h
  split_ifs at h with hquote hbackslash hb hf hn hr ht hcontrol
  iterate 7 exact ⟨by subst c; decide, h.escaped.2⟩
  · have hu : Units (backslash :: 0x75 :: _) := h
    exact absurd hu.escaped.1 (by decide)
  · exact ⟨fun hc => hcontrol hc.1, h.after hbackslash [] rfl⟩

theorem Units.noControl (h : Units (value.flatMap Json.escapeChar ++ text)) :
    ∀ c ∈ value, ¬ IsControl c := by
  induction value with
  | nil => exact nofun
  | cons c value ih =>
    rw [flatMap_cons, append_assoc] at h
    exact forall_mem_cons.mpr ⟨h.escapeChar.1, ih h.escapeChar.2⟩

variable {texts : List ByteString}

theorem separated_mem {separator : ByteString} (h : text ∈ texts) :
    ∃ front back, separated separator texts = front ++ (text ++ back) := by
  induction texts with
  | nil => cases h
  | cons first texts ih =>
    cases texts with
    | nil =>
      rw [mem_singleton.mp h]
      exact ⟨[], [], by simp [separated]⟩
    | cons second texts =>
      rw [separated_cons]
      rcases mem_cons.mp h with rfl | h
      · exact ⟨[], _, rfl⟩
      obtain ⟨front, back, heq⟩ := ih h
      refine ⟨first ++ (separator ++ front), back, ?_⟩
      rw [heq]
      simp only [append_assoc]

/-- A rendering that can be read has no control characters in strings. -/
theorem Rendering.noControl (h : Rendering element text) (before after : ByteString)
    (hunits : Units (before ++ (text ++ after))) : element.All Element.NoControl := by
  induction h generalizing before after with
  | null | integer value | boolean value => trivial
  | string value =>
    have hbody : Units (value.flatMap escapeChar ++ ([quote] ++ after)) := by
      refine hunits.after (show quote ≠ backslash by decide) before ?_
      simp only [cons_append, append_assoc]
    exact hbody.noControl
  | @list elements text lead gap trail _ _ _ _ ih =>
    refine Element.all_list.mpr ⟨trivial, fun element hmem => ?_⟩
    obtain ⟨front, back, heq⟩ := separated_mem (mem_map_of_mem (f := text) hmem)
    refine ih element hmem (before ++ (openBracket :: (lead ++ front)))
      (back ++ (trail ++ [closeBracket]) ++ after) ?_
    rw [heq] at hunits
    simpa only [append_assoc, cons_append] using hunits
  | @map order members text lead gap trail horder _ _ _ _ ih =>
    refine Element.all_map.mpr ⟨trivial, fun member hmem => ?_⟩
    obtain ⟨front, back, heq⟩ := separated_mem
      (mem_map_of_mem (f := fun member => memberText member.1 (text member.2))
        (horder.mem_iff.mpr hmem))
    refine ih member hmem
      (before ++ (openBrace :: (lead ++ front ++ (quote :: member.1 ++ [quote] ++ ascii ": "))))
      (back ++ (trail ++ [closeBrace]) ++ after) ?_
    rw [heq] at hunits
    simpa only [memberText, append_assoc, cons_append] using hunits

/-! ## Keys -/

variable (key : ByteString)

/-- The backslashes that a key would need, one for each quote and each backslash. -/
def keyExcess : Cost :=
  (key.map fun c => if c = quote ∨ c = backslash then toLex (0, 1) else 0).sum

def nodeExcess : Element ρ → Cost
  | .map members => (members.map fun member => keyExcess member.1).sum
  | _ => 0

theorem key_cost : textCost key + keyExcess key = (key.map contentCost).sum := by
  have hchar (c : UInt8) :
      contentCost c = charCost c + if c = quote ∨ c = backslash then toLex (0, 1) else 0 := by
    by_cases hquote : c = quote
    · subst hquote
      decide
    by_cases hbackslash : c = backslash
    · subst hbackslash
      decide
    · rw [contentCost_char hquote hbackslash, if_neg (by simp [hquote, hbackslash]), add_zero]
  rw [textCost, keyExcess, ← sum_map_add]
  exact congrArg sum (map_congr_left fun c _ => (hchar c).symm)

theorem blank_cost {blank : ByteString} (h : IsBlank blank) : textCost blank = 0 :=
  textCost_eq_zero fun c hc => (whitespace_cost c (h c hc)).2

theorem separated_cost {gap : ByteString} (hgap : IsBlank gap) :
    textCost (separated (comma :: gap) texts) = (texts.map textCost).sum := by
  induction texts with
  | nil => rfl
  | cons text texts ih =>
    cases texts with
    | nil => simp [separated_singleton]
    | cons text' texts =>
      rw [separated_cons, textCost_append, textCost_append, textCost_cons, blank_cost hgap,
        (separators_cost comma (by decide)).2, ih, map_cons]
      simp

theorem memberText_cost :
    textCost (memberText key text) + keyExcess key = stringCost key + textCost text := by
  have hcolon : textCost (ascii ": ") = 0 := by decide
  have hquotes : charCost quote + charCost quote = toLex (2, 0) := by decide
  simp only [memberText, textCost_cons, textCost_append, hcolon, textCost_nil,
    stringCost, ← key_cost, ← hquotes]
  abel

theorem escapeChar_cost (h : ¬ IsControl c) : textCost (escapeChar c) = contentCost c := by
  unfold escapeChar
  split_ifs with hquote hbackslash hb hf hn hr ht hcontrol
  iterate 7
    subst c
    decide
  · exact absurd ⟨hcontrol, by simp [hb, hf, hn, hr, ht]⟩ h
  · rw [textCost_cons, textCost_nil, add_zero, contentCost_char hquote hbackslash]

theorem string_cost (h : ∀ c ∈ value, ¬ IsControl c) :
    textCost (quote :: value.flatMap escapeChar ++ [quote]) = stringCost value := by
  have hbody : textCost (value.flatMap escapeChar) = (value.map contentCost).sum := by
    induction value with
    | nil => rfl
    | cons c value ih =>
      rw [forall_mem_cons] at h
      rw [flatMap_cons, textCost_append, escapeChar_cost h.1, ih h.2, map_cons,
        sum_cons]
  have hquotes : charCost quote + charCost quote = toLex (2, 0) := by decide
  simp only [textCost_cons, textCost_append, hbody, stringCost,
    ← hquotes]
  abel

theorem intText_cost {value : Int} : textCost (intText value) = 0 :=
  textCost_eq_zero fun _ hc => (isNumberChar_cost (isNumberChar_of (mem_intText hc))).2

/-- A rendering has less than its element takes, by the backslashes that the keys would need. -/
theorem Rendering.cost (h : Rendering element text) (hcontrol : element.All Element.NoControl) :
    textCost text + element.sum nodeExcess = element.cost := by
  induction h with
  | null => exact add_zero _
  | integer value =>
    rw [intText_cost]
    exact add_zero _
  | boolean value => exact add_zero _
  | string value =>
    rw [string_cost hcontrol]
    exact add_zero _
  | @list elements text lead gap trail _ hlead hgap htrail ih =>
    have hnode : nodeExcess (.list elements) = 0 := rfl
    rw [Element.cost_list, Element.sum_list, hnode]
    simp only [textCost_cons, textCost_append, textCost_nil, blank_cost hlead, blank_cost htrail,
      separated_cost hgap, (separators_cost openBracket (by decide)).2,
      (separators_cost closeBracket (by decide)).2, zero_add, add_zero, map_map]
    rw [← sum_map_add]
    exact congrArg sum (map_congr_left fun element hmem =>
      ih element hmem ((Element.all_list.mp hcontrol).2 _ hmem))
  | @map order members text lead gap trail horder _ hlead hgap htrail ih =>
    have hexcess : (Element.map members).sum nodeExcess
        = (order.map fun member => keyExcess member.1 + member.2.sum nodeExcess).sum := by
      rw [Element.sum_map, nodeExcess, ← sum_map_add, ← (horder.map _).sum_eq]
    rw [Element.cost_map, ← (horder.map _).sum_eq, hexcess]
    simp only [textCost_cons, textCost_append, textCost_nil, blank_cost hlead, blank_cost htrail,
      separated_cost hgap, (separators_cost openBrace (by decide)).2,
      (separators_cost closeBrace (by decide)).2, zero_add, add_zero, map_map]
    rw [← sum_map_add]
    refine congrArg sum (map_congr_left fun member hmem => ?_)
    have hmem' := horder.mem_iff.mp hmem
    show textCost (memberText member.1 (text member.2))
      + (keyExcess member.1 + member.2.sum nodeExcess) = stringCost member.1 + member.2.cost
    rw [← add_assoc, memberText_cost, add_assoc,
      ih member hmem' ((Element.all_map.mp hcontrol).2 _ hmem')]

theorem sum_map_nonneg {α : Type} {f : α → Cost} {l : List α} (h : ∀ a ∈ l, 0 ≤ f a) :
    0 ≤ (l.map f).sum ∧ ((l.map f).sum = 0 → ∀ a ∈ l, f a = 0) := by
  have hall : ∀ cost ∈ l.map f, 0 ≤ cost := forall_mem_map.mpr h
  exact ⟨sum_nonneg hall, fun hzero a ha =>
    all_zero_of_le_zero_le_of_sum_eq_zero hall hzero (mem_map_of_mem ha)⟩

theorem keyExcess_nonneg :
    0 ≤ keyExcess key ∧ (keyExcess key = 0 → quote ∉ key ∧ backslash ∉ key) := by
  obtain ⟨hnonneg, hzero⟩ := sum_map_nonneg (l := key)
    (f := fun c => if c = quote ∨ c = backslash then toLex (0, 1) else 0)
    fun c _ => by split_ifs <;> decide
  refine ⟨hnonneg, fun h => ?_⟩
  have hplain : ∀ c ∈ key, ¬(c = quote ∨ c = backslash) := fun c hc hbad =>
    absurd ((if_pos hbad).symm.trans (hzero h c hc)) (by decide)
  exact ⟨fun hmem => hplain _ hmem (.inl rfl), fun hmem => hplain _ hmem (.inr rfl)⟩

theorem nodeExcess_nonneg (element : Element ρ) : 0 ≤ nodeExcess element := by
  cases element with
  | map members => exact (sum_map_nonneg fun member _ => (keyExcess_nonneg member.1).1).1
  | _ => exact le_refl 0

theorem plainKeys_of_excess (h : nodeExcess element = 0) : element.PlainKeys := by
  cases element with
  | map members =>
    have hzero := (sum_map_nonneg fun member _ => (keyExcess_nonneg member.1).1).2 h
    exact fun member hmem => (keyExcess_nonneg member.1).2 (hzero member hmem)
  | _ => trivial

/-- Parts that sum up to nothing. -/
theorem Element.all_zero {f : Element ρ → Cost} (hf : ∀ element, 0 ≤ f element) :
    0 ≤ element.sum f ∧ (element.sum f = 0 → element.All fun element => f element = 0) := by
  induction element using Element.induction with
  | null | integer value | real value | boolean value | string value => exact ⟨hf _, id⟩
  | list elements ih =>
    rw [Element.sum_list]
    obtain ⟨hnonneg, hall⟩ := sum_map_nonneg fun element hmem => (ih element hmem).1
    refine ⟨add_nonneg (hf _) hnonneg, fun hzero => ?_⟩
    obtain ⟨hnode, hparts⟩ := (add_eq_zero_iff_of_nonneg (hf _) hnonneg).mp hzero
    exact Element.all_list.mpr
      ⟨hnode, fun element hmem => (ih element hmem).2 (hall hparts element hmem)⟩
  | map members ih =>
    rw [Element.sum_map]
    obtain ⟨hnonneg, hall⟩ := sum_map_nonneg fun member hmem => (ih member hmem).1
    refine ⟨add_nonneg (hf _) hnonneg, fun hzero => ?_⟩
    obtain ⟨hnode, hparts⟩ := (add_eq_zero_iff_of_nonneg (hf _) hnonneg).mp hzero
    exact Element.all_map.mpr
      ⟨hnode, fun member hmem => (ih member hmem).2 (hall hparts member hmem)⟩

/-! ## The round trip -/

theorem Rendering.fromJSON_iff (h : Rendering element text) (hvalid : element.Valid) :
    fromJSON reals text = .ok element ↔
      element.All Element.NoControl ∧ element.All Element.PlainKeys := by
  constructor
  · intro hread
    have htaken : Ends _ _ (fromJSON reals text) := fromJSON_takes reals
    rw [hread] at htaken
    obtain ⟨hunits, hcost⟩ := htaken
    have hcontrol : element.All Element.NoControl :=
      h.noControl [] [] (by simpa using hunits)
    refine ⟨hcontrol, ?_⟩
    rw [← h.cost hcontrol] at hcost
    obtain ⟨hnonneg, hzero⟩ := Element.all_zero nodeExcess_nonneg
    exact (hzero (le_antisymm (by simpa using hcost) hnonneg)).imp fun _ => plainKeys_of_excess
  · rintro ⟨hcontrol, hkeys⟩
    exact h.fromJSON_eq reals hvalid hcontrol hkeys

/-- An element is read back from both texts exactly if its strings have no control characters but
those with an escape of their own, and its keys have no quotes and no backslashes. -/
theorem json_roundtrip_iff (reals : Reals ρ) (element : Element ρ) (indent step : Nat)
    (h : element.Valid) :
    (fromJSON reals (element.str reals) = .ok element ∧
        fromJSON reals (prettyPrint reals indent step element) = .ok element) ↔
      element.All Element.NoControl ∧ element.All Element.PlainKeys := by
  rw [Element.str, (toJSON_rendering reals h).fromJSON_iff h,
    (prettyPrint_rendering reals indent step h).fromJSON_iff h, and_self]

/-- Without real numbers. -/
def noReals : Reals Unit where
  cast _ := none
  print _ := []

/-- A map with two members, one of them a list with a string that needs escapes. -/
def nested : Element Unit :=
  .map [(ascii "a", .list [.integer (-1), .string [quote, 0x0a]]), (ascii "b", .boolean true)]

theorem json_roundtrip_iff_sample :
    fromJSON noReals (nested.str noReals) = .ok nested ∧
      fromJSON noReals (prettyPrint noReals 0 2 nested) = .ok nested := by
  have hsorted : SortedKeys [(ascii "a", .list [.integer (-1), .string [quote, 0x0a]]),
      (ascii "b", (.boolean true : Element Unit))] :=
    pairwise_pair.mpr (by decide)
  have hescapes : ∀ c ∈ [quote, (0x0a : UInt8)], ¬IsControl c := by decide +kernel
  have hkeys : ∀ key ∈ [ascii "a", ascii "b"], quote ∉ key ∧ backslash ∉ key := by decide +kernel
  refine (json_roundtrip_iff noReals nested 0 2 ?_).mpr ⟨?_, ?_⟩
  · exact ⟨hsorted, ⟨trivial, ⟨by decide, by decide⟩, trivial, trivial⟩, trivial, trivial⟩
  · exact ⟨trivial, ⟨trivial, trivial, hescapes, trivial⟩, trivial, trivial⟩
  · refine ⟨fun member hmember => hkeys _ (mem_map_of_mem (f := Prod.fst) hmember), ?_⟩
    exact ⟨⟨trivial, trivial, trivial, trivial⟩, trivial, trivial⟩

/-- The bell character and a quote in a key are not read, and a backslash in a key is lost. -/
theorem json_not_read_back :
    fromJSON noReals ((Element.string [0x07]).str noReals) = .error .badEscape ∧
      fromJSON noReals ((Element.map [([0x61, quote], .null)]).str noReals)
        = .error (.expected (some quote) [colon]) ∧
      fromJSON noReals ((Element.map [(ascii "\\n", .null)]).str noReals)
        = .ok (.map [([0x0a], .null)]) :=
  ⟨rfl, rfl, rfl⟩

end Data.Json
