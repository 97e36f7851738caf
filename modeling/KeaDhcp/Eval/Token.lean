import Mathlib.Algebra.Order.Ring.Int

/-!
# Tokens of classification expressions

`src/lib/eval/token.cc` and `evaluate.cc`: an expression is a list of tokens, each of which works on
a stack of values. Values are strings of bytes, also the booleans. Numbers of the type `int` have
32 bits and wrap around.
-/

namespace Eval

abbrev Value := List UInt8

/-- The top is in front. -/
abbrev ValueStack := List Value

def Value.ofString (s : String) : Value := s.toList.map fun c => UInt8.ofNat c.toNat

def Value.toString (v : Value) : String := String.ofList (v.map fun b => Char.ofNat b.toNat)

inductive EvalError where
  | evalBadStack (text : String)
  | evalTypeError (text : String)
  /-- `std::out_of_range`, which `substr` throws. -/
  | outOfRange
  deriving DecidableEq

/-! ## Booleans and numbers -/

def Value.ofBool (b : Bool) : Value := if b then .ofString "true" else .ofString "false"

def toBool (value : Value) : Except EvalError Bool :=
  if value = .ofString "true" then .ok true
  else if value = .ofString "false" then .ok false
  else
    .error (.evalTypeError ("Incorrect boolean. Expected exactly \"false\" or \"true\", got \"" ++
      value.toString ++ "\""))

/-- The value of an `int` after a computation. -/
def int32 (n : Int) : Int := n.bmod (2 ^ 32)

def decimalDigits (digits : Value) : Option Nat :=
  if digits = [] then none
  else
    digits.foldlM (fun n digit => if 48 ≤ digit ∧ digit ≤ 57 then some (n * 10 + (digit.toNat - 48))
      else none) 0

/-- `boost::lexical_cast<int>`; it fails for numbers that are no `int`. -/
def lexicalCastInt (text : Value) : Option Int :=
  let number : Option Int :=
    match text with
    | 45 :: digits => (decimalDigits digits).map fun n => -(n : Int)
    | 43 :: digits => (decimalDigits digits).map Int.ofNat
    | digits => (decimalDigits digits).map Int.ofNat
  number.filter fun n => -2147483648 ≤ n ∧ n ≤ 2147483647

/-! ## Substrings -/

/-- `std::string::substr`. Its arguments are of the type `size_t`, in which a negative `int` becomes
a number that is greater than the length of every string. -/
def substr (string : Value) (pos length : Int) : Except EvalError Value :=
  if pos < 0 ∨ pos > string.length then .error .outOfRange
  else if length < 0 then .ok (string.drop pos.toNat)
  else .ok ((string.drop pos.toNat).take length.toNat)

/-- What `TokenSubstring` makes of its three values. -/
def substring (string startStr lenStr : Value) : Except EvalError Value :=
  if string = [] then .ok []
  else do
    let startPos ←
      match lexicalCastInt startStr with
      | some n => .ok n
      | none =>
        .error (.evalTypeError ("the parameter '" ++ startStr.toString ++
          "' for the starting position of the substring couldn't be converted to an integer."))
    let length ←
      if lenStr = .ofString "all" then .ok (int32 string.length)
      else
        match lexicalCastInt lenStr with
        | some n => .ok n
        | none =>
          .error (.evalTypeError ("the parameter '" ++ lenStr.toString ++
            "' for the length of the substring couldn't be converted to an integer."))
    let stringLength := int32 string.length
    if startPos < int32 (-stringLength) ∨ startPos ≥ stringLength then .ok []
    else
      let startPos := if startPos < 0 then int32 (stringLength + startPos) else startPos
      if length < 0 then
        let length := int32 (-length)
        if length ≤ startPos then substr string (int32 (startPos - length)) length
        else substr string 0 startPos
      else substr string startPos length

/-! ## Tokens -/

/-- The tokens of expressions on packets. Those for literals, options, fields and classes push one
value that depends on the packet only. -/
inductive Token (Pkt : Type) where
  | value (evaluate : Pkt → Value)
  | condition (evaluate : Pkt → Bool)
  | equal | substring | concat | ifElse | not | and | or

def badStack (count : String) (operator : String) (values : ValueStack) : EvalError :=
  .evalBadStack ("Incorrect stack order. Expected at least " ++ count ++ " values for " ++ operator ++
    ", got " ++ toString values.length)

namespace Token

variable {Pkt : Type}

def evaluate (pkt : Pkt) (values : ValueStack) : Token Pkt → Except EvalError ValueStack
  | value evaluate => .ok (evaluate pkt :: values)
  | condition evaluate => .ok (.ofBool (evaluate pkt) :: values)
  | equal =>
    match values with
    | op1 :: op2 :: rest => .ok (.ofBool (op1 = op2) :: rest)
    | _ => .error (badStack "2" "== operator" values)
  | substring =>
    match values with
    | lenStr :: startStr :: string :: rest => do
      return (← Eval.substring string startStr lenStr) :: rest
    | _ => .error (badStack "3" "substring operator" values)
  | concat =>
    match values with
    | op1 :: op2 :: rest => .ok ((op2 ++ op1) :: rest)
    | _ => .error (badStack "2" "concat" values)
  | ifElse =>
    match values with
    | iffalse :: iftrue :: cond :: rest => do
      return (if ← toBool cond then iftrue else iffalse) :: rest
    | _ => .error (badStack "3" "ifelse" values)
  | not =>
    match values with
    | op :: rest => do return .ofBool (!(← toBool op)) :: rest
    | [] => .error (.evalBadStack "Incorrect empty stack.")
  | and =>
    match values with
    | op1 :: op2 :: rest => do
      let val1 ← toBool op1
      let val2 ← toBool op2
      return .ofBool (val1 && val2) :: rest
    | _ => .error (badStack "2" "and operator" values)
  | or =>
    match values with
    | op1 :: op2 :: rest => do
      let val1 ← toBool op1
      let val2 ← toBool op2
      return .ofBool (val1 || val2) :: rest
    | _ => .error (badStack "2" "or operator" values)

end Token

/-! ## Expressions -/

abbrev Expression (Pkt : Type) := List (Token Pkt)

variable {Pkt : Type}

/-- The loop over the tokens. -/
def evaluateTokens (pkt : Pkt) : Expression Pkt → ValueStack → Except EvalError ValueStack
  | [], values => .ok values
  | token :: expr, values => do evaluateTokens pkt expr (← token.evaluate pkt values)

/-- The check at the end: the stack holds the result only. -/
def singleValue : ValueStack → Except EvalError Value
  | [value] => .ok value
  | values =>
    .error (.evalBadStack ("Incorrect stack order. Expected exactly 1 value at the end of " ++
      "evaluation, got " ++ toString values.length))

def evaluateBool (expr : Expression Pkt) (pkt : Pkt) : Except EvalError Bool := do
  let values ← evaluateTokens pkt expr []
  toBool (← singleValue values)

def evaluateString (expr : Expression Pkt) (pkt : Pkt) : Except EvalError Value := do
  let values ← evaluateTokens pkt expr []
  singleValue values

end Eval
