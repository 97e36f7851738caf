import KeaDhcp.Eval.Parser
import KeaDhcp.Infra.Exec

/-!
# The tokens of an expression compute its meaning

Expressions have a meaning by recursion over their trees. The tokens that the parser appends leave
that meaning on top of any stack, unless a part `substring(...)` counts in a way that an `int`
cannot. Whatever the substrings do, the stack never runs out and every value that is read as a
boolean is one.
-/

namespace Eval

open Infra Token List Eval.Expr

variable {Pkt : Type} {k : Kind}

/-! ## Meaning -/

/-- The position that `start` stands for in a string of `n` characters; negative numbers count from
the end. -/
def firstOf (n start : Int) : Int := if start < 0 then n + start else start

/--
What `substring` takes from a string that counts as `n` characters: `length` of them from `start`
on, or before `start` if `length` is negative; `all` is as many as there are.
-/
def selection (n : Int) (string : Value) (start : Int) (length : LengthExpr) : Value :=
  if start < -n ∨ n ≤ start then []
  else
    let first := (firstOf n start).toNat
    match length with
    | .all => string.extract first (first + n.toNat)
    | .integer literal =>
      if literal.value < 0 then string.extract (first - (-literal.value).toNat) first
      else string.extract first (first + literal.value.toNat)

/-- What the documentation of `TokenSubstring` says. -/
def substringOf (string : Value) (start : Int) (length : LengthExpr) : Value :=
  selection string.length string start length

abbrev Kind.Meaning : Kind → Type
  | .bool => Bool
  | .string => Value

/-- The value on the stack for a meaning. -/
def Kind.toValue : (k : Kind) → k.Meaning → Value
  | .bool, b => .ofBool b
  | .string, v => v

def Expr.meaning (pkt : Pkt) : {k : Kind} → Expr Pkt k → k.Meaning
  | _, .paren e => e.meaning pkt
  | _, .not e => !e.meaning pkt
  | _, .and l r => l.meaning pkt && r.meaning pkt
  | _, .or l r => l.meaning pkt || r.meaning pkt
  | _, .equal l r => decide (l.meaning pkt = r.meaning pkt)
  | _, .condition evaluate => evaluate pkt
  | _, .value evaluate => evaluate pkt
  | _, .substring string start length => substringOf (string.meaning pkt) start.value length
  | _, .concat l r => l.meaning pkt ++ r.meaning pkt
  | _, .ifElse cond iftrue iffalse =>
    bif cond.meaning pkt then iftrue.meaning pkt else iffalse.meaning pkt

/-- A property of all parts of an expression, the expression itself included. -/
def Expr.Every (P : ∀ {k : Kind}, Expr Pkt k → Prop) : {k : Kind} → Expr Pkt k → Prop
  | _, .paren e => P (.paren e) ∧ e.Every P
  | _, .not e => P (.not e) ∧ e.Every P
  | _, .and l r => P (.and l r) ∧ l.Every P ∧ r.Every P
  | _, .or l r => P (.or l r) ∧ l.Every P ∧ r.Every P
  | _, .equal l r => P (.equal l r) ∧ l.Every P ∧ r.Every P
  | _, .condition evaluate => P (.condition evaluate)
  | _, .value evaluate => P (.value evaluate)
  | _, .substring string start length => P (.substring string start length) ∧ string.Every P
  | _, .concat l r => P (.concat l r) ∧ l.Every P ∧ r.Every P
  | _, .ifElse cond iftrue iffalse =>
    P (.ifElse cond iftrue iffalse) ∧ cond.Every P ∧ iftrue.Every P ∧ iffalse.Every P

/-! ## Numbers of the type `int` -/

variable {n : Int} {string : Value}

theorem int32_of_int (hlow : -2147483648 ≤ n) (hhigh : n ≤ 2147483647) : int32 n = n := by
  unfold int32
  rw [Int.bmod_def]
  split <;> omega

theorem int32_range : -2147483648 ≤ int32 n ∧ int32 n ≤ 2147483647 := by
  unfold int32
  rw [Int.bmod_def]
  split <;> omega

theorem int32_le (h : 0 ≤ n) : int32 n ≤ n := by
  unfold int32
  rw [Int.bmod_def]
  split <;> omega

theorem IntLiteral.range (literal : IntLiteral) :
    -2147483648 ≤ literal.value ∧ literal.value ≤ 2147483647 := by
  have h := literal.isInt
  have hfilter := (Option.filter_eq_some_iff.mp h).2
  simpa using hfilter

theorem IntLiteral.text_ne_all (literal : IntLiteral) : literal.text ≠ .ofString "all" := by
  intro h
  have hall : lexicalCastInt (.ofString "all") = none := by decide
  have hcast := literal.isInt
  rw [h] at hcast
  cases hcast

/-! ## Substrings -/

/-- The text that the action for the length appends. -/
def LengthExpr.text : LengthExpr → Value
  | .integer literal => literal.text
  | .all => .ofString "all"

/-- The length is the `int` that has no negation, and `start` lies in the string. -/
def Overflows (n start : Int) : LengthExpr → Prop
  | .integer literal => literal.value = -2147483648 ∧ -n ≤ start ∧ start < n
  | .all => False

instance (n start : Int) (length : LengthExpr) : Decidable (Overflows n start length) :=
  match length with
  | .integer literal => inferInstanceAs (Decidable (literal.value = -2147483648 ∧ _))
  | .all => inferInstanceAs (Decidable False)

theorem substr_eq {pos length : Int} (hpos : 0 ≤ pos) (hle : pos ≤ string.length)
    (hlength : 0 ≤ length) :
    substr string pos length
      = .ok (string.extract pos.toNat (pos.toNat + length.toNat)) := by
  unfold substr
  rw [if_neg (by omega), if_neg (by omega), extract_eq_take_drop, Nat.add_sub_cancel_left]

/-- The number that the code takes for the length. -/
def LengthExpr.count (n : Int) : LengthExpr → Int
  | .integer literal => literal.value
  | .all => n

variable {count : Int} {start : IntLiteral} {length : LengthExpr}

/-- What is left of `TokenSubstring` once its numbers are read. -/
theorem substring_cast (hne : string ≠ []) (hn : int32 string.length = n)
    (hcount : length.count n = count) :
    substring string start.text length.text
      = if start.value < int32 (-n) ∨ start.value ≥ n then .ok []
        else
          let first := if start.value < 0 then int32 (n + start.value) else start.value
          if count < 0 then
            if int32 (-count) ≤ first then
              substr string (int32 (first - int32 (-count))) (int32 (-count))
            else substr string 0 first
          else substr string first count := by
  unfold substring
  subst hcount
  rw [if_neg hne, start.isInt]
  cases length with
  | all =>
    simp only [LengthExpr.text, hn]
    rfl
  | integer literal =>
    simp only [LengthExpr.text, if_neg literal.text_ne_all, literal.isInt, hn]
    rfl

theorem outside_iff {start : Int} (hn : -2147483648 ≤ n ∧ n ≤ 2147483647)
    (hstart : -2147483648 ≤ start) :
    (start < int32 (-n) ∨ start ≥ n) ↔ (start < -n ∨ n ≤ start) := by
  by_cases hmin : n = -2147483648
  · -- every start is at least `n` then
    constructor
    all_goals exact fun _ => .inr (by omega)
  · rw [int32_of_int (n := -n) (by omega) (by omega)]

variable {first : Int}

section

variable (hfirst : 0 ≤ first) (hint : first ≤ 2147483647)

include hfirst hint

/-- A negative length that can be negated: the characters before `first`. -/
theorem substr_before (hle : first ≤ string.length) (hneg : count < 0) (hmin : -2147483648 < count) :
    (if int32 (-count) ≤ first then
        substr string (int32 (first - int32 (-count))) (int32 (-count))
      else substr string 0 first)
      = .ok (string.extract (first.toNat - (-count).toNat) first.toNat) := by
  rw [int32_of_int (n := -count) (by omega) (by omega)]
  split
  next hfits =>
    rw [int32_of_int (by omega) (by omega), substr_eq (by omega) (by omega) (by omega)]
    congr 2 <;> omega
  next hshort =>
    rw [substr_eq (by omega) (by omega) hfirst]
    congr 2 <;> omega

/-- The least `int` stays negative, and the position becomes negative too. -/
theorem substr_overflow :
    (if int32 (-(-2147483648)) ≤ first then
        substr string (int32 (first - int32 (-(-2147483648)))) (int32 (-(-2147483648)))
      else substr string 0 first)
      = .error .outOfRange := by
  have hmin : int32 (-(-2147483648)) = -2147483648 := by decide
  have hpos : int32 (first - -2147483648) < 0 := by
    unfold int32
    rw [Int.bmod_def]
    split <;> omega
  rw [if_pos (by omega)]
  unfold substr
  rw [if_pos (.inl hpos)]

/-- The part of the code behind the test of the position. -/
theorem substr_count (hle : first ≤ string.length) (hcount : -2147483648 ≤ count) :
    (if count < 0 then
        if int32 (-count) ≤ first then
          substr string (int32 (first - int32 (-count))) (int32 (-count))
        else substr string 0 first
      else substr string first count)
      = if count = -2147483648 then .error .outOfRange
        else if count < 0 then .ok (string.extract (first.toNat - (-count).toNat) first.toNat)
        else .ok (string.extract first.toNat (first.toNat + count.toNat)) := by
  by_cases hmin : count = -2147483648
  · subst hmin
    exact substr_overflow hfirst hint
  rw [if_neg hmin]
  by_cases hneg : count < 0
  · rw [if_pos hneg, if_pos hneg]
    exact substr_before hfirst hint hle hneg (by omega)
  · rw [if_neg hneg, if_neg hneg]
    exact substr_eq hfirst hle (by omega)

end

theorem firstOf_inside {start : Int} (hin : ¬ (start < -n ∨ n ≤ start)) :
    0 ≤ firstOf n start ∧ firstOf n start < n := by
  unfold firstOf
  split <;> omega

theorem substring_inside (hn : int32 string.length = n)
    (hin : ¬ (start.value < -n ∨ n ≤ start.value)) (hcount : length.count n = count)
    (hmin : -2147483648 ≤ count) :
    substring string start.text length.text
      = if count = -2147483648 then .error .outOfRange
        else if count < 0 then
          .ok (string.extract ((firstOf n start.value).toNat - (-count).toNat)
            (firstOf n start.value).toNat)
        else
          .ok (string.extract (firstOf n start.value).toNat
            ((firstOf n start.value).toNat + count.toNat)) := by
  have hrange : -2147483648 ≤ n ∧ n ≤ 2147483647 := hn ▸ int32_range
  have hle : n ≤ string.length := hn ▸ int32_le (by omega)
  have hne : string ≠ [] := by
    rintro rfl
    have : (([] : Value).length : Int) = 0 := rfl
    omega
  have hstart := start.range
  have hfirst := firstOf_inside hin
  have hpos : (if start.value < 0 then int32 (n + start.value) else start.value)
      = firstOf n start.value := by
    unfold firstOf
    split
    · exact int32_of_int (by omega) (by omega)
    · rfl
  rw [substring_cast hne hn hcount, if_neg (mt (outside_iff hrange hstart.1).mp hin)]
  rw [hpos, substr_count hfirst.1 (by omega) (by omega) hmin]

theorem substring_outside (hn : int32 string.length = n) (hout : start.value < -n ∨ n ≤ start.value) :
    substring string start.text length.text = .ok [] := by
  by_cases hne : string = []
  · unfold substring
    rw [if_pos hne]
  · have hrange : -2147483648 ≤ n ∧ n ≤ 2147483647 := hn ▸ int32_range
    rw [substring_cast hne hn rfl,
      if_pos ((outside_iff hrange start.range.1).mpr hout)]

theorem not_overflows_of_outside {start : Int} (hout : start < -n ∨ n ≤ start) :
    ¬ Overflows n start length := by
  cases length with
  | all => exact id
  | integer literal =>
    rintro ⟨-, hlow, hhigh⟩
    omega

/-- `TokenSubstring` with `int` arguments: it takes what `selection` says for the length of the
string as an `int`, or it throws. -/
theorem substring_eq (hn : int32 string.length = n) :
    substring string start.text length.text
      = if Overflows n start.value length then .error .outOfRange
        else .ok (selection n string start.value length) := by
  by_cases hout : start.value < -n ∨ n ≤ start.value
  · rw [substring_outside hn hout, if_neg (not_overflows_of_outside hout)]
    unfold selection
    rw [if_pos hout]
  unfold selection
  rw [if_neg hout]
  cases length with
  | all =>
    have hmin : ¬ n = -2147483648 := by omega
    have hneg : ¬ n < 0 := by omega
    have hnone : ¬ Overflows n start.value .all := id
    rw [substring_inside hn hout (show _ = n from rfl) (by omega), if_neg hmin,
      if_neg hneg, if_neg hnone]
  | integer literal =>
    rw [substring_inside hn hout (show _ = literal.value from rfl)
      literal.range.1]
    by_cases hmin : literal.value = -2147483648
    · have hover : Overflows n start.value (.integer literal) := ⟨hmin, by omega⟩
      rw [if_pos hmin, if_pos hover]
    have hnone : ¬ Overflows n start.value (.integer literal) := fun h => hmin h.1
    rw [if_neg hmin, if_neg hnone]
    dsimp only
    by_cases hneg : literal.value < 0
    · rw [if_pos hneg, if_pos hneg]
    · rw [if_neg hneg, if_neg hneg]

/-! ## Tokens one after another -/

theorem evaluateTokens_append (pkt : Pkt) (first second : Expression Pkt) (values : ValueStack) :
    evaluateTokens pkt (first ++ second) values
      = (evaluateTokens pkt first values >>= evaluateTokens pkt second) := by
  induction first generalizing values with
  | nil => rfl
  | cons token first ih =>
    show (token.evaluate pkt values >>= evaluateTokens pkt (first ++ second))
      = ((token.evaluate pkt values >>= evaluateTokens pkt first) >>= evaluateTokens pkt second)
    rw [bind_assoc]
    exact congrArg _ (funext ih)

variable {token : Token Pkt} {values : ValueStack} {pkt : Pkt}

theorem evaluateTokens_single : evaluateTokens pkt [token] values = token.evaluate pkt values := by
  show (token.evaluate pkt values >>= evaluateTokens pkt []) = _
  cases token.evaluate pkt values <;> rfl

/-- The actions for a tree append its tokens and look at nothing before them. -/
theorem Expr.actions_eq (e : Expr Pkt k) (expression : Expression Pkt) :
    e.actions expression = expression ++ e.tokens := by
  unfold tokens
  induction e generalizing expression with
  | paren e ih => exact ih expression
  | not e ih => simp only [actions, ih expression, append_assoc]
  | and l r ihl ihr | or l r ihl ihr | equal l r ihl ihr | concat l r ihl ihr =>
    simp only [actions]
    rw [ihr, ihl, ihr (l.actions [])]
    simp only [append_assoc]
  | condition evaluate | value evaluate => rfl
  | substring string start length ih =>
    cases length <;>
      simp only [actions, LengthExpr.actions, IntLiteral.actions, ih expression,
        append_assoc]
  | ifElse cond iftrue iffalse ihc iht ihf =>
    simp only [actions]
    rw [ihf, iht, ihc, ihf (iftrue.actions (cond.actions [])), iht (cond.actions [])]
    simp only [append_assoc]

variable {l : Expr Pkt k}

theorem Expr.tokens_two {k' : Kind} {r : Expr Pkt k'} :
    r.actions (l.actions []) ++ [token] = l.tokens ++ (r.tokens ++ [token]) := by
  rw [r.actions_eq, l.actions_eq, nil_append, append_assoc]

theorem Expr.tokens_substring {string : Expr Pkt .string} :
    (substring string start length).tokens
      = string.tokens ++ [tokenString start.text, tokenString length.text, .substring] := by
  show length.actions (start.actions (string.actions [])) ++ [.substring] = _
  rw [string.actions_eq]
  cases length <;>
    simp only [LengthExpr.actions, IntLiteral.actions, LengthExpr.text, nil_append,
      append_assoc, cons_append]

variable {cond : Expr Pkt .bool} {iffalse iftrue : Expr Pkt .string}

theorem Expr.tokens_ifElse :
    (ifElse cond iftrue iffalse).tokens
      = cond.tokens ++ (iftrue.tokens ++ (iffalse.tokens ++ [.ifElse])) := by
  show iffalse.actions (iftrue.actions (cond.actions [])) ++ [.ifElse] = _
  rw [iffalse.actions_eq, iftrue.actions_eq, cond.actions_eq]
  simp only [nil_append, append_assoc]

@[simp] theorem toBool_ofBool {b : Bool} : toBool (.ofBool b) = .ok b := by
  cases b <;> decide

/-! ## What the tokens compute -/

/-- The meaning as the tokens compute it: the characters of a string are counted with an `int`, and
`substr` may throw. -/
def Expr.result (pkt : Pkt) : {k : Kind} → Expr Pkt k → Except EvalError k.Meaning
  | _, .paren e => e.result pkt
  | _, .not e => do return !(← e.result pkt)
  | _, .and l r => do return (← l.result pkt) && (← r.result pkt)
  | _, .or l r => do return (← l.result pkt) || (← r.result pkt)
  | _, .equal l r => do return decide ((← l.result pkt) = (← r.result pkt))
  | _, .condition evaluate => .ok (evaluate pkt)
  | _, .value evaluate => .ok (evaluate pkt)
  | _, .substring string start length => do
    let string ← string.result pkt
    if Overflows (int32 string.length) start.value length then .error .outOfRange
    else .ok (selection (int32 string.length) string start.value length)
  | _, .concat l r => do return (← l.result pkt) ++ (← r.result pkt)
  | _, .ifElse cond iftrue iffalse => do
    let cond ← cond.result pkt
    let iftrue ← iftrue.result pkt
    let iffalse ← iffalse.result pkt
    return bif cond then iftrue else iffalse

/-- The tokens leave every stack as it is, with the result on top. -/
def Leaves (pkt : Pkt) (tokens : Expression Pkt) (result : Except EvalError k.Meaning) : Prop :=
  ∀ values, evaluateTokens pkt tokens values = do return k.toValue (← result) :: values

variable {tokens rest : Expression Pkt} {k' : Kind} {x y : Except EvalError k.Meaning}

/-- The rule of sequences. -/
theorem Leaves.then (h : Leaves pkt tokens x) {f : k.Meaning → Except EvalError k'.Meaning}
    {below : ValueStack} (hrest : ∀ m, evaluateTokens pkt rest (k.toValue m :: values)
      = do return k'.toValue (← f m) :: below) :
    evaluateTokens pkt (tokens ++ rest) values = do return k'.toValue (← x >>= f) :: below := by
  rw [evaluateTokens_append, h]
  cases x with
  | error error => rfl
  | ok m => exact hrest m

theorem Leaves.two {r : Expr Pkt k} (hl : Leaves pkt l.tokens x) (hr : Leaves pkt r.tokens y)
    (k' : Kind) (apply : k.Meaning → k.Meaning → k'.Meaning)
    (htoken : ∀ a b values, token.evaluate pkt (k.toValue b :: k.toValue a :: values)
      = .ok (k'.toValue (apply a b) :: values)) :
    Leaves pkt (r.actions (l.actions []) ++ [token]) (do return apply (← x) (← y)) := by
  intro values
  rw [tokens_two]
  refine hl.then fun a => hr.then fun b => ?_
  rw [evaluateTokens_single, htoken]
  rfl

theorem Expr.leaves (e : Expr Pkt k) : Leaves pkt e.tokens (e.result pkt) := by
  induction e with
  | paren e ih => exact ih
  | not e ih =>
    refine fun values => ih.then fun m => ?_
    rw [evaluateTokens_single]
    simp only [evaluate, Kind.toValue, toBool_ofBool]
    rfl
  | and l r ihl ihr =>
    refine ihl.two ihr .bool (fun a b => a && b) fun a b values => ?_
    -- the right operand is popped first
    simp only [evaluate, Kind.toValue, toBool_ofBool, Bool.and_comm a]
    rfl
  | or l r ihl ihr =>
    refine ihl.two ihr .bool (fun a b => a || b) fun a b values => ?_
    simp only [evaluate, Kind.toValue, toBool_ofBool, Bool.or_comm a]
    rfl
  | equal l r ihl ihr =>
    refine ihl.two ihr .bool (fun a b => decide (a = b)) fun a b values => ?_
    simp only [evaluate, Kind.toValue, eq_comm]
  | condition evaluate | value evaluate => exact fun values => rfl
  | substring string start length ih =>
    intro values
    rw [tokens_substring]
    refine ih.then fun string => ?_
    show (do return (← Eval.substring string start.text length.text) :: values) >>= pure = _
    rw [substring_eq rfl, bind_pure]
    rfl
  | concat l r ihl ihr => exact ihl.two ihr .string (fun a b => a ++ b) fun a b values => rfl
  | ifElse cond iftrue iffalse ihc iht ihf =>
    intro values
    rw [tokens_ifElse]
    refine ihc.then fun c => iht.then fun t => ihf.then fun f => ?_
    rw [evaluateTokens_single]
    simp only [evaluate, Kind.toValue, toBool_ofBool]
    cases c <;> rfl

/-- Only `substr` throws: the stack never runs out, and every value that is read as a boolean is
one. -/
theorem Expr.result_ends (e : Expr Pkt k) :
    Ends (fun _ => True) (· = .outOfRange) (e.result pkt) := by
  induction e with
  | paren e ih => exact ih
  | not e ih => exact ih.bind fun _ _ => trivial
  | and l r ihl ihr | or l r ihl ihr | equal l r ihl ihr | concat l r ihl ihr =>
    exact ihl.bind fun _ _ => ihr.bind fun _ _ => trivial
  | condition evaluate | value evaluate => exact trivial
  | substring string start length ih =>
    refine ih.bind fun string _ => ?_
    split
    · exact rfl
    · exact trivial
  | ifElse cond iftrue iffalse ihc iht ihf =>
    exact ihc.bind fun _ _ => iht.bind fun _ _ => ihf.bind fun _ _ => trivial

/-! ## When the tokens compute the meaning -/

/-- The tokens of the expression leave every stack as it is, with the meaning on top. -/
def Computes (pkt : Pkt) {k : Kind} (e : Expr Pkt k) : Prop :=
  ∀ values, evaluateTokens pkt e.tokens values = .ok (k.toValue (e.meaning pkt) :: values)

/--
The condition on one `substring(...)`: its length is not the `int` without a negation, and it takes
the same characters when its string is counted with an `int`.
-/
def SubstringFits (pkt : Pkt) : {k : Kind} → Expr Pkt k → Prop
  | _, .substring string start length =>
    ¬ Overflows (int32 (string.meaning pkt).length) start.value length ∧
      selection (int32 (string.meaning pkt).length) (string.meaning pkt) start.value length
        = substringOf (string.meaning pkt) start.value length
  | _, _ => True

variable {e : Expr Pkt k}

theorem Kind.toValue_inj {m m' : k.Meaning} (h : k.toValue m = k.toValue m') : m = m' := by
  cases k with
  | bool => cases m <;> cases m' <;> first | rfl | exact absurd h (by decide)
  | string => exact h

theorem computes_iff : Computes pkt e ↔ e.result pkt = .ok (e.meaning pkt) := by
  unfold Computes
  constructor
  · intro h
    have hempty := (e.leaves []).symm.trans (h [])
    cases hresult : e.result pkt with
    | error error =>
      rw [hresult] at hempty
      cases hempty
    | ok m =>
      rw [hresult] at hempty
      exact congrArg _ (Kind.toValue_inj (cons.inj (Except.ok.inj hempty)).1)
  · intro h values
    rw [e.leaves values, h]
    rfl

theorem Expr.Every.self {P : ∀ {k : Kind}, Expr Pkt k → Prop} (h : e.Every P) : P e := by
  cases e with
  | condition evaluate | value evaluate => exact h
  | _ => exact h.1

theorem Expr.Every.result_eq (h : e.Every (Computes pkt)) : e.result pkt = .ok (e.meaning pkt) :=
  computes_iff.mp h.self

/-- By induction over the tree: where the parts compute their meaning, only `substring(...)` can go
wrong. -/
theorem Expr.every_computes_iff (pkt : Pkt) (e : Expr Pkt k) :
    e.Every (Computes pkt) ↔ e.Every (SubstringFits pkt) := by
  induction e with
  | paren e ih =>
    simp only [Every, ← ih]
    exact ⟨fun h => ⟨trivial, h.2⟩, fun h => ⟨computes_iff.mpr h.2.result_eq, h.2⟩⟩
  | not e ih =>
    simp only [Every, ← ih]
    refine ⟨fun h => ⟨trivial, h.2⟩, fun h => ⟨computes_iff.mpr ?_, h.2⟩⟩
    rw [result, h.2.result_eq]
    rfl
  | and l r ihl ihr | or l r ihl ihr | equal l r ihl ihr | concat l r ihl ihr =>
    simp only [Every, ← ihl, ← ihr]
    refine ⟨fun h => ⟨trivial, h.2⟩, fun h => ⟨computes_iff.mpr ?_, h.2⟩⟩
    rw [result, h.2.1.result_eq, h.2.2.result_eq]
    rfl
  | condition evaluate | value evaluate => exact ⟨fun _ => trivial, fun _ values => rfl⟩
  | substring string start length ih =>
    simp only [Every, ← ih]
    refine and_congr_left fun h => computes_iff.trans ?_
    rw [result, h.result_eq, except_ok_bind]
    split
    next hover => exact iff_of_false nofun fun hfits => hfits.1 hover
    next hnone =>
      exact ⟨fun hsame => ⟨hnone, Except.ok.inj hsame⟩, fun hfits => congrArg _ hfits.2⟩
  | ifElse cond iftrue iffalse ihc iht ihf =>
    simp only [Every, ← ihc, ← iht, ← ihf]
    refine ⟨fun h => ⟨trivial, h.2⟩, fun h => ⟨computes_iff.mpr ?_, h.2⟩⟩
    rw [result, h.2.1.result_eq, h.2.2.1.result_eq, h.2.2.2.result_eq]
    rfl

/-! ## The result -/

/-- `evaluateBool` and `evaluateString`, for the two ways to start the grammar. -/
def Kind.evaluate : (k : Kind) → Expression Pkt → Pkt → Except EvalError k.Meaning
  | .bool => evaluateBool
  | .string => evaluateString

theorem Expr.evaluate_eq (e : Expr Pkt k) (pkt : Pkt) : k.evaluate e.tokens pkt = e.result pkt := by
  have hrun : evaluateTokens pkt e.tokens [] = _ := e.leaves []
  cases k with
  | bool =>
    show (evaluateTokens pkt e.tokens [] >>= fun values => singleValue values >>= toBool) = _
    rw [hrun]
    cases e.result pkt with
    | error error => rfl
    | ok b => exact toBool_ofBool
  | string =>
    show (evaluateTokens pkt e.tokens [] >>= singleValue) = _
    rw [hrun]
    cases e.result pkt <;> rfl

/-- The stack got one value, which `toBool` accepts if it is to be a boolean. -/
def Kind.OneValue (k : Kind) (values result : ValueStack) : Prop :=
  ∃ value, result = value :: values ∧ (k = .bool → ∃ b, toBool value = .ok b)

theorem Kind.oneValue_toValue {m : k.Meaning} : k.OneValue values (k.toValue m :: values) := by
  refine ⟨_, rfl, ?_⟩
  rintro rfl
  exact ⟨m, toBool_ofBool⟩

/--
The parts of an expression all compute their meaning exactly if its substrings can be counted with
an `int`. No expression finds too few values on the stack, leaves too many or takes another value
for a boolean.
-/
theorem tokens_compute_meaning (pkt : Pkt) (e : Expr Pkt k) :
    (e.Every (Computes pkt) ↔ e.Every (SubstringFits pkt)) ∧
      (e.Every (SubstringFits pkt) → k.evaluate e.tokens pkt = .ok (e.meaning pkt)) ∧
      (∀ values, Ends (k.OneValue values) (· = .outOfRange) (evaluateTokens pkt e.tokens values)) ∧
      Ends (fun _ => True) (· = .outOfRange) (k.evaluate e.tokens pkt) := by
  rw [e.evaluate_eq]
  refine ⟨e.every_computes_iff pkt, fun hfits => ?_, fun values => ?_, e.result_ends⟩
  · exact ((e.every_computes_iff pkt).mpr hfits).result_eq
  · rw [e.leaves]
    exact e.result_ends.bind fun _ _ => Kind.oneValue_toValue

/-- `substring('foobar', 3, -2147483648)`. -/
def leastLength : Expr Unit .string :=
  .substring (.value fun _ => .ofString "foobar") ⟨.ofString "3", 3, by decide⟩
    (.integer ⟨.ofString "-2147483648", -2147483648, by decide⟩)

/-- The expression asks for all characters before position 3, and `substr` throws. -/
theorem least_length_throws :
    leastLength.meaning () = .ofString "foo" ∧
      evaluateTokens () leastLength.tokens [] = .error .outOfRange ∧
      evaluateString leastLength.tokens () = .error .outOfRange ∧
      ¬ Computes () leastLength := by
  have hrun : evaluateTokens () leastLength.tokens [] = .error .outOfRange := rfl
  refine ⟨by decide, hrun, rfl, fun h => ?_⟩
  rw [h []] at hrun
  cases hrun

/-! ## Substrings with any integers of the lexer -/

def IsInt (n : Int) : Prop := -2147483648 ≤ n ∧ n ≤ 2147483647

instance : DecidablePred IsInt := fun n => inferInstanceAs (Decidable (_ ∧ n ≤ _))

/-- The cast of the token fails for those that are no `int`. -/
theorem lexicalCastInt_of_lexInteger {text : Value} (h : lexInteger text = some n) :
    lexicalCastInt text = if IsInt n then some n else none := by
  obtain ⟨hnumber, -⟩ := Option.filter_eq_some_iff.mp h
  have hcast : lexicalCastInt text
      = (some n).filter fun n => -2147483648 ≤ n ∧ n ≤ 2147483647 := by
    unfold lexicalCastInt
    rw [← hnumber]
    split
    · rfl
    · cases hnumber
    · next digits hminus hplus =>
      split
      · exact absurd rfl (hminus _)
      · rfl
  rw [hcast]
  exact if_congr decide_eq_true_iff rfl rfl

/-- The bytes that the documentation selects for any two numbers, in a string that counts as `n`
bytes. `extract` stops at the ends of the string. -/
def bytesSelected (n : Int) (string : Value) (start length : Int) : Value :=
  if start < -n ∨ n ≤ start then []
  else
    let p := firstOf n start
    if 0 ≤ length then string.extract p.toNat (p + length).toNat
    else string.extract (p + length).toNat p.toNat

/-- What the documentation says about any two numbers. -/
def substringMeaning (string : Value) (start length : Int) : Value :=
  if string = [] then [] else bytesSelected string.length string start length

/-- The results of the operations on numbers of the type `int` that the token performs. -/
def intResults (string : Value) (start length : Int) : List Int :=
  let stringLength := int32 string.length
  if string = [] then []
  else if start < int32 (-stringLength) ∨ start ≥ stringLength then [-stringLength]
  else
    let startPos := if start < 0 then int32 (stringLength + start) else start
    [-stringLength] ++ (if start < 0 then [stringLength + start] else []) ++
      if length < 0 then
        -length :: if int32 (-length) ≤ startPos then [startPos - int32 (-length)] else []
      else []

/-- The token pushes what the documentation says, without a signed overflow. -/
def SubstringDocumented (pkt : Pkt) (string startText lengthText : Value) (start length : Int) :
    Prop :=
  (∀ values, Token.evaluate pkt (lengthText :: startText :: string :: values) .substring
      = .ok (substringMeaning string start length :: values)) ∧
    ∀ n ∈ intResults string start length, IsInt n

variable {lengthText startText : Value}

theorem substring_not_int (hne : string ≠ []) (hall : lengthText ≠ .ofString "all")
    (h : lexicalCastInt startText = none ∨ lexicalCastInt lengthText = none) :
    ∃ text, substring string startText lengthText = .error (.evalTypeError text) := by
  unfold substring
  rw [if_neg hne]
  rcases h with hstart | hlength
  · rw [hstart]
    exact ⟨_, rfl⟩
  cases lexicalCastInt startText with
  | none => exact ⟨_, rfl⟩
  | some start =>
    show ∃ text, (if lengthText = _ then _ else _) = _
    rw [if_neg hall, hlength]
    exact ⟨_, rfl⟩

/-- With an `int` for the length, the code and the documentation select the same bytes of a string
that counts as `n` bytes. -/
theorem selection_eq_bytesSelected {start : Int} {length : IntLiteral} :
    selection n string start (.integer length) = bytesSelected n string start length.value := by
  unfold selection bytesSelected
  by_cases hout : start < -n ∨ n ≤ start
  · rw [if_pos hout, if_pos hout]
  have hfirst := firstOf_inside hout
  rw [if_neg hout, if_neg hout]
  dsimp only
  by_cases hneg : length.value < 0
  · rw [if_pos hneg, if_neg (by omega)]
    congr 1
    omega
  · rw [if_neg hneg, if_pos (by omega)]
    congr 1
    omega

/--
The token gets along with the numbers on a string of `n` bytes as an `int`: the conversions succeed,
the least `int` is not negated, and the count selects what the real length does.
-/
structure CountsFit (n : Int) (string : Value) (start length : Int) : Prop where
  startIsInt : IsInt start
  lengthIsInt : IsInt length
  negatesCount : IsInt (-n)
  negatesLength : length = -2147483648 → start < -n ∨ n ≤ start
  sameBytes : bytesSelected n string start length = bytesSelected string.length string start length

/-- For strings of less than 2 GiB the condition is on the numbers alone. -/
theorem countsFit_iff_of_short {start length : Int} (hsize : string.length ≤ 2147483647) :
    CountsFit (int32 string.length) string start length ↔
      IsInt start ∧ IsInt length ∧
        ¬ (length = -2147483648 ∧ -string.length ≤ start ∧ start < string.length) := by
  have hn : int32 string.length = string.length := int32_of_int (by omega) (by omega)
  rw [hn]
  constructor
  · rintro ⟨hstart, hlength, -, hneg, -⟩
    exact ⟨hstart, hlength, fun h => by have := hneg h.1; omega⟩
  · rintro ⟨hstart, hlength, hneg⟩
    refine ⟨hstart, hlength, ?_, fun h => by omega, rfl⟩
    unfold IsInt
    omega

/-- The operations of the token stay in the type `int` if what it negates has a negation. -/
theorem intResults_isInt {start length : Int} (hn : int32 string.length = n) (hcount : IsInt (-n))
    (hlength : IsInt length) (hneg : length = -2147483648 → start < -n ∨ n ≤ start) :
    ∀ m ∈ intResults string start length, IsInt m := by
  have hminus : int32 (-n) = -n := int32_of_int hcount.1 hcount.2
  have hrange : IsInt n := hn ▸ int32_range
  unfold IsInt at hlength hcount hrange ⊢
  unfold intResults
  simp only [hn, hminus]
  by_cases hout : start < -n ∨ start ≥ n
  · rw [if_pos hout]
    split
    · exact nofun
    · rw [forall_mem_singleton]
      omega
  · have hsum : start < 0 → int32 (n + start) = n + start :=
      fun hstart => int32_of_int (by omega) (by omega)
    have hminus : int32 (-length) = -length := int32_of_int (by omega) (by omega)
    intro m hmem
    split at hmem
    · cases hmem
    simp only [mem_append, mem_cons, not_mem_nil, or_false, mem_ite_nil_right]
      at hmem
    rcases hmem with (rfl | ⟨hstart, rfl⟩) | ⟨hlength, rfl | ⟨-, rfl⟩⟩
    · omega
    · omega
    · omega
    split
    · next hstart =>
      omega
    · omega

/-- The negated count is always among the results. -/
theorem neg_count_mem_intResults (hne : string ≠ []) {start length : Int} :
    -int32 string.length ∈ intResults string start length := by
  unfold intResults
  rw [if_neg hne]
  dsimp only
  split <;> simp

theorem evaluate_substring :
    Token.evaluate pkt (lengthText :: startText :: string :: values) .substring
      = (substring string startText lengthText).map (· :: values) := by
  show (do return (← substring string startText lengthText) :: values) = _
  cases substring string startText lengthText <;> rfl

/-- The token follows its documentation on a non-empty string exactly if both numbers are of the
type `int`, what is negated can be, and the count of the string as an `int` leads to the bytes that its
length does. -/
theorem substring_documented_iff (pkt : Pkt) (string startText lengthText : Value) (start length : Int)
    (hstart : lexInteger startText = some start) (hlength : lexInteger lengthText = some length) :
    SubstringDocumented pkt string startText lengthText start length ↔
      string = [] ∨ CountsFit (int32 string.length) string start length := by
  unfold SubstringDocumented
  simp only [evaluate_substring]
  by_cases hempty : string = []
  · subst hempty
    exact iff_of_true ⟨fun _ => rfl, nofun⟩ (.inl rfl)
  have hall : lengthText ≠ .ofString "all" := by
    rintro rfl
    cases hlength
  rw [or_iff_right hempty, substringMeaning, if_neg hempty]
  by_cases hint : IsInt start ∧ IsInt length
  · let first : IntLiteral :=
      ⟨startText, start, (lexicalCastInt_of_lexInteger hstart).trans (if_pos hint.1)⟩
    let count : IntLiteral :=
      ⟨lengthText, length, (lexicalCastInt_of_lexInteger hlength).trans (if_pos hint.2)⟩
    have hrun : substring string first.text (LengthExpr.integer count).text = _ := substring_eq rfl
    rw [selection_eq_bytesSelected] at hrun
    rw [show substring string startText lengthText = _ from hrun]
    by_cases hover : Overflows (int32 string.length) start (.integer count)
    · rw [if_pos hover]
      refine iff_of_false (fun h => nomatch h.1 []) fun h => ?_
      obtain ⟨hmin, hin⟩ := hover
      have hout := h.negatesLength hmin
      omega
    · rw [if_neg hover]
      constructor
      · rintro ⟨hvalue, hresults⟩
        refine ⟨hint.1, hint.2, hresults _ (neg_count_mem_intResults hempty), fun hmin => ?_, ?_⟩
        · by_contra hin
          exact hover ⟨hmin, by omega⟩
        · simpa [Except.map] using hvalue []
      · intro h
        refine ⟨fun values => ?_, intResults_isInt rfl h.negatesCount hint.2 h.negatesLength⟩
        rw [← h.sameBytes]
        rfl
  · have hcast : lexicalCastInt startText = none ∨ lexicalCastInt lengthText = none := by
      rw [lexicalCastInt_of_lexInteger hstart, lexicalCastInt_of_lexInteger hlength]
      exact (Decidable.not_and_iff_or_not.mp hint).imp (fun h => if_neg h) fun h => if_neg h
    obtain ⟨text, herror⟩ := substring_not_int hempty hall hcast
    rw [herror]
    exact iff_of_false (fun h => nomatch h.1 []) fun h => hint ⟨h.startIsInt, h.lengthIsInt⟩

theorem substring_documented_sample :
    SubstringDocumented () (.ofString "foobar") (.ofString "-3") (.ofString "2") (-3) 2 :=
  (substring_documented_iff () _ _ _ _ _ (by decide) (by decide)).mpr
    (.inr ((countsFit_iff_of_short (by decide)).mpr (by decide)))

/-- `substring('foobar', 0, 2147483648)` means the whole string. -/
theorem long_length_throws :
    lexInteger (.ofString "0") = some 0 ∧ lexInteger (.ofString "2147483648") = some 2147483648 ∧
      substringMeaning (.ofString "foobar") 0 2147483648 = .ofString "foobar" ∧
      Token.evaluate () [.ofString "2147483648", .ofString "0", .ofString "foobar"] .substring
        = .error (.evalTypeError ("the parameter '2147483648' for the length of the substring " ++
            "couldn't be converted to an integer.")) := by
  decide

end Eval
