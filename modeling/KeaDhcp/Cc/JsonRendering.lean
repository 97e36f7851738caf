import KeaDhcp.Cc.Json

/-!
# Renderings of JSON elements

`toJSON` and `prettyPrint` differ in the white space and in the order of the members of a map. A
`Rendering` of an element leaves both open, so that the reader has to be considered once.
-/

namespace Data.Json

open Infra Util Data.Json.Element List

variable {ρ : Type}

/-! ## Induction over elements -/

@[elab_as_elim]
theorem Element.induction {P : Element ρ → Prop} (null : P .null)
    (integer : ∀ value, P (.integer value)) (real : ∀ value, P (.real value))
    (boolean : ∀ value, P (.boolean value)) (string : ∀ value, P (.string value))
    (list : ∀ elements, (∀ element ∈ elements, P element) → P (.list elements))
    (map : ∀ members, (∀ member ∈ members, P member.2) → P (.map members))
    (element : Element ρ) : P element :=
  @rec ρ P (fun elements => ∀ element ∈ elements, P element)
    (fun members => ∀ member ∈ members, P member.2) (fun member => P member.2)
    null integer real boolean string list map
    nofun
    (fun _ _ hfirst helements => forall_mem_cons.mpr ⟨hfirst, helements⟩)
    nofun
    (fun _ _ hfirst hmembers => forall_mem_cons.mpr ⟨hfirst, hmembers⟩)
    (fun _ _ hvalue => hvalue) element

/-! ## Conditions on all parts of an element -/

mutual

/-- `P` holds of the element and of all elements in it. -/
def Element.All (P : Element ρ → Prop) : Element ρ → Prop
  | .null => P .null
  | .integer value => P (.integer value)
  | .real value => P (.real value)
  | .boolean value => P (.boolean value)
  | .string value => P (.string value)
  | .list elements => P (.list elements) ∧ allElements P elements
  | .map members => P (.map members) ∧ allMembers P members

def allElements (P : Element ρ → Prop) : List (Element ρ) → Prop
  | [] => True
  | element :: elements => element.All P ∧ allElements P elements

def allMembers (P : Element ρ → Prop) : List (ByteString × Element ρ) → Prop
  | [] => True
  | (_, value) :: members => value.All P ∧ allMembers P members

end

section All

variable {P : Element ρ → Prop}

theorem allElements_iff {elements : List (Element ρ)} :
    allElements P elements ↔ ∀ element ∈ elements, element.All P := by
  induction elements with
  | nil => simp [allElements]
  | cons element elements ih => rw [allElements, forall_mem_cons, ih]

theorem allMembers_iff {members : List (ByteString × Element ρ)} :
    allMembers P members ↔ ∀ member ∈ members, member.2.All P := by
  induction members with
  | nil => simp [allMembers]
  | cons member members ih => rw [allMembers, forall_mem_cons, ih]

theorem Element.all_list {elements : List (Element ρ)} :
    (list elements).All P ↔
      P (.list elements) ∧ ∀ element ∈ elements, element.All P := by
  rw [Element.All, allElements_iff]

theorem Element.all_map {members : List (ByteString × Element ρ)} :
    (map members).All P ↔
      P (.map members) ∧ ∀ member ∈ members, member.2.All P := by
  rw [Element.All, allMembers_iff]

theorem Element.All.imp {Q : Element ρ → Prop} (hPQ : ∀ element, P element → Q element)
    {element : Element ρ} (h : element.All P) : element.All Q := by
  induction element using induction with
  | null | integer value | real value | boolean value | string value => exact hPQ _ h
  | list elements ih =>
    rw [all_list] at h ⊢
    exact ⟨hPQ _ h.1, fun element hmem => ih element hmem (h.2 element hmem)⟩
  | map members ih =>
    rw [all_map] at h ⊢
    exact ⟨hPQ _ h.1, fun member hmem => ih member hmem (h.2 member hmem)⟩

end All

/-- What the types of the source guarantee, and no real numbers. -/
def Element.IsValid : Element ρ → Prop
  | .integer value => -2 ^ 63 ≤ value ∧ value < 2 ^ 63
  | .real _ => False
  | .map members => SortedKeys members
  | _ => True

abbrev Element.Valid (element : Element ρ) : Prop := element.All Element.IsValid

/-- A control character that has no escape of its own. -/
def IsControl (c : UInt8) : Prop := c < 0x20 ∧ c ∉ [0x08, 0x0c, 0x0a, 0x0d, 0x09]

instance (c : UInt8) : Decidable (IsControl c) := inferInstanceAs (Decidable (_ ∧ _))

/-- String values without such control characters. -/
def Element.NoControl : Element ρ → Prop
  | .string value => ∀ c ∈ value, ¬ IsControl c
  | _ => True

/-- Keys without quotes and backslashes. -/
def Element.PlainKeys : Element ρ → Prop
  | .map members => ∀ member ∈ members, quote ∉ member.1 ∧ backslash ∉ member.1
  | _ => True

/-! ## Renderings -/

def IsBlank (text : ByteString) : Prop := ∀ c ∈ text, c ∈ whitespace

instance (text : ByteString) : Decidable (IsBlank text) :=
  inferInstanceAs (Decidable (∀ c ∈ text, c ∈ whitespace))

theorem isBlank_nil : IsBlank [] := nofun

theorem IsBlank.append {text text' : ByteString} (h : IsBlank text) (h' : IsBlank text') :
    IsBlank (text ++ text') := by
  intro c hmem
  rcases mem_append.mp hmem with hmem | hmem
  · exact h c hmem
  · exact h' c hmem

theorem isBlank_spaces {n : Nat} : IsBlank (spaces n) := by
  intro c hmem
  rw [eq_of_mem_replicate hmem]
  decide

/-- A text of the element: the white space is free, and the members of a map are in any order. -/
inductive Rendering : Element ρ → ByteString → Prop
  | null : Rendering .null (ascii "null")
  | integer (value : Int) : Rendering (.integer value) (intText value)
  | boolean (value : Bool) :
      Rendering (.boolean value) (if value then ascii "true" else ascii "false")
  | string (value : ByteString) :
      Rendering (.string value) (quote :: value.flatMap escapeChar ++ [quote])
  | list {elements : List (Element ρ)} {text : Element ρ → ByteString} {lead gap trail : ByteString}
      (helements : ∀ element ∈ elements, Rendering element (text element))
      (hlead : IsBlank lead) (hgap : IsBlank gap) (htrail : IsBlank trail) :
      Rendering (.list elements)
        (openBracket :: (lead ++ (separated (comma :: gap) (elements.map text)
          ++ (trail ++ [closeBracket]))))
  | map {order members : List (ByteString × Element ρ)} {text : Element ρ → ByteString}
      {lead gap trail : ByteString} (horder : order.Perm members)
      (hmembers : ∀ member ∈ members, Rendering member.2 (text member.2))
      (hlead : IsBlank lead) (hgap : IsBlank gap) (htrail : IsBlank trail) :
      Rendering (.map members)
        (openBrace :: (lead ++ (separated (comma :: gap)
          (order.map fun member => memberText member.1 (text member.2))
            ++ (trail ++ [closeBrace]))))

/-! ## The writers -/

theorem separated_singleton (separator text : ByteString) : separated separator [text] = text := by
  simp [separated]

theorem separated_cons (separator text text' : ByteString) (texts : List ByteString) :
    separated separator (text :: text' :: texts)
      = text ++ (separator ++ separated separator (text' :: texts)) := by
  simp [separated]

/-- What leads each text belongs to the separators. -/
theorem separated_lead {separator lead : ByteString} {texts : List ByteString} (h : texts ≠ []) :
    separated separator (texts.map (lead ++ ·)) = lead ++ separated (separator ++ lead) texts := by
  induction texts with
  | nil => exact absurd rfl h
  | cons text texts ih =>
    cases texts with
    | nil => simp [separated]
    | cons text' texts =>
      have hrest := ih (cons_ne_nil _ _)
      simp only [map_cons] at hrest ⊢
      rw [separated_cons, hrest, separated_cons]
      simp only [append_assoc]

section Writers

variable (reals : Reals ρ)

theorem elementTexts_eq {elements : List (Element ρ)} :
    elementTexts reals elements = elements.map (toJSON reals) := by
  induction elements with
  | nil => rfl
  | cons element elements ih => rw [elementTexts, ih, map_cons]

theorem memberTexts_eq {members : List (ByteString × Element ρ)} :
    memberTexts reals members
      = members.map fun member => memberText member.1 (toJSON reals member.2) := by
  induction members with
  | nil => rfl
  | cons member members ih => rw [memberTexts, ih, map_cons]

theorem prettyElements_eq (indent step : Nat) (elements : List (Element ρ)) :
    prettyElements reals indent step elements = elements.map (prettyPrint reals indent step) := by
  induction elements with
  | nil => rfl
  | cons element elements ih => rw [prettyElements, ih, map_cons]

theorem prettyMembers_eq (indent step : Nat) (members : List (ByteString × Element ρ)) :
    prettyMembers reals indent step members
      = members.map fun member => (member.1, prettyPrint reals indent step member.2) := by
  induction members with
  | nil => rfl
  | cons member members ih => rw [prettyMembers, ih, map_cons]

/-- What `toJSON` prints is a text of the element. -/
theorem toJSON_rendering {element : Element ρ} (h : element.Valid) :
    Rendering element (toJSON reals element) := by
  have hspace : IsBlank [0x20] := by decide +kernel
  induction element using induction with
  | null => exact .null
  | integer value => exact .integer value
  | real value => exact h.elim
  | boolean value => exact .boolean value
  | string value => exact .string value
  | list elements ih =>
    have hvalid := (all_list.mp h).2
    rw [toJSON, elementTexts_eq]
    exact .list (fun element hmem => ih element hmem (hvalid element hmem)) hspace hspace hspace
  | map members ih =>
    have hvalid := (all_map.mp h).2
    rw [toJSON, memberTexts_eq]
    exact .map (List.Perm.refl _) (fun member hmem => ih member hmem (hvalid member hmem))
      hspace hspace hspace

theorem prettyList_rendering {complex : Bool} (indent step : Nat) {elements : List (Element ρ)}
    (hne : elements ≠ []) {text : Element ρ → ByteString}
    (h : ∀ element ∈ elements, Rendering element (text element)) :
    Rendering (.list elements) (prettyList complex indent step (elements.map text)) := by
  have hne' : elements.map text ≠ [] := by simpa using hne
  cases complex with
  | false =>
    have heq : prettyList false indent step (elements.map text)
        = openBracket :: ([0x20] ++ (separated (comma :: [0x20]) (elements.map text)
          ++ ([0x20] ++ [closeBracket]))) := by
      have hlead : (elements.map text).map ([] ++ ·) = elements.map text := map_id _
      simp only [prettyList, Bool.false_eq_true, if_false, hlead, append_assoc]
      rfl
    rw [heq]
    have hspace : IsBlank [0x20] := by decide +kernel
    exact .list h hspace hspace hspace
  | true =>
    have heq : prettyList true indent step (elements.map text)
        = openBracket :: (([0x0a] ++ spaces (indent + step))
          ++ (separated (comma :: ([0x0a] ++ spaces (indent + step))) (elements.map text)
            ++ (([0x0a] ++ spaces indent) ++ [closeBracket]))) := by
      simp only [prettyList, separated_lead hne', append_assoc]
      rfl
    have hnewline : IsBlank [0x0a] := by decide +kernel
    rw [heq]
    exact .list h (hnewline.append isBlank_spaces) (hnewline.append isBlank_spaces)
      (hnewline.append isBlank_spaces)

/-- Only the order of the members changes. -/
theorem commentFirst_perm {α : Type} (members : List (ByteString × α)) :
    (commentFirst members).Perm members := by
  simpa [commentFirst] using
    filter_append_perm (fun member => decide (member.1 = ascii "comment")) members

theorem commentFirst_map {α β : Type} (f : α → β) (members : List (ByteString × α)) :
    commentFirst (members.map fun member => (member.1, f member.2))
      = (commentFirst members).map fun member => (member.1, f member.2) := by
  simp only [commentFirst, filter_map, map_append]
  rfl

theorem prettyMap_rendering (indent step : Nat) {members : List (ByteString × Element ρ)}
    (hne : members ≠ []) {text : Element ρ → ByteString}
    (h : ∀ member ∈ members, Rendering member.2 (text member.2)) :
    Rendering (.map members)
      (prettyMap indent step (members.map fun member => (member.1, text member.2))) := by
  have hperm := commentFirst_perm members
  have hne' : (commentFirst members).map (fun member => memberText member.1 (text member.2)) ≠ [] := by
    intro hnil
    rw [map_eq_nil_iff.mp hnil] at hperm
    exact hne hperm.nil_eq.symm
  have heq : prettyMap indent step (members.map fun member => (member.1, text member.2))
      = openBrace :: (([0x0a] ++ spaces (indent + step))
        ++ (separated (comma :: ([0x0a] ++ spaces (indent + step)))
            ((commentFirst members).map fun member => memberText member.1 (text member.2))
          ++ (([0x0a] ++ spaces indent) ++ [closeBrace]))) := by
    have hlead : separated (ascii ",\n") (map (spaces (indent + step) ++ ·) _) = _ :=
      separated_lead hne'
    rw [map_map] at hlead
    rw [prettyMap, commentFirst_map, map_map]
    refine (congrArg (fun items => openBrace :: ascii "\n" ++ items ++ ascii "\n" ++ spaces indent
      ++ [closeBrace]) hlead).trans ?_
    simp only [append_assoc]
    rfl
  have hnewline : IsBlank [0x0a] := by decide +kernel
  rw [heq]
  exact .map hperm h (hnewline.append isBlank_spaces) (hnewline.append isBlank_spaces)
    (hnewline.append isBlank_spaces)

/-- What `prettyPrint` prints is a text of the element. -/
theorem prettyPrint_rendering (indent step : Nat) {element : Element ρ} (h : element.Valid) :
    Rendering element (prettyPrint reals indent step element) := by
  induction element using induction generalizing indent with
  | null => exact .null
  | integer value => exact .integer value
  | real value => exact h.elim
  | boolean value => exact .boolean value
  | string value => exact .string value
  | list elements ih =>
    have hvalid := (all_list.mp h).2
    cases elements with
    | nil =>
      have hnone : ∀ element ∈ ([] : List (Element ρ)), Rendering element [] := by simp
      have hspace : IsBlank [0x20] := by decide +kernel
      exact .list hnone hspace isBlank_nil isBlank_nil
    | cons first elements =>
      rw [prettyPrint, prettyElements_eq]
      exact prettyList_rendering indent step (cons_ne_nil _ _)
        fun element hmem => ih element hmem _ (hvalid element hmem)
  | map members ih =>
    have hvalid := (all_map.mp h).2
    cases members with
    | nil =>
      have hspace : IsBlank [0x20] := by decide +kernel
      exact @Rendering.map ρ [] [] (fun _ => []) _ _ _ (List.Perm.refl _) (by simp) hspace
        isBlank_nil isBlank_nil
    | cons first members =>
      rw [prettyPrint, prettyMembers_eq]
      exact prettyMap_rendering indent step (cons_ne_nil _ _)
        fun member hmem => ih member hmem _ (hvalid member hmem)

end Writers

end Data.Json
