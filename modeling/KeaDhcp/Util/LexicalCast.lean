import KeaDhcp.Infra.Decimal

/-!
# Numbers from strings

`boost::lexical_cast` from strings to the 64-bit integers.
-/

namespace Util

open Infra

/-- The sign of a number, with `true` for negative ones, and its digits. -/
def splitSign : List UInt8 → Bool × List UInt8
  | [] => (false, [])
  | c :: digits =>
    if c = 0x2d then (true, digits)
    else if c = 0x2b then (false, digits)
    else (false, c :: digits)

def lexicalCastInt64 (number : List UInt8) : Option Int :=
  let (negative, digits) := splitSign number
  if digits = [] ∨ ¬ ∀ c ∈ digits, IsDigit c then none
  else
    let value : Int := if negative then - (decimalValue digits : Int) else decimalValue digits
    if -2 ^ 63 ≤ value ∧ value < 2 ^ 63 then some value else none

/-- The cast to `uint64_t`, for which a negative number is taken modulo `2 ^ 64`. -/
def lexicalCastUint64 (number : List UInt8) : Option Nat :=
  let (negative, digits) := splitSign number
  if digits = [] ∨ ¬ ∀ c ∈ digits, IsDigit c then none
  else
    let value := decimalValue digits
    if value < 2 ^ 64 then some (if negative then (2 ^ 64 - value) % 2 ^ 64 else value) else none

theorem splitSign_digits {digits : List UInt8} (h : ∀ c ∈ digits, IsDigit c) :
    splitSign digits = (false, digits) := by
  cases digits with
  | nil => rfl
  | cons c digits =>
    have hc := h c List.mem_cons_self
    have hsign : ¬ IsDigit 0x2d ∧ ¬ IsDigit 0x2b := by decide
    have hminus : c ≠ 0x2d := fun heq => hsign.1 (heq ▸ hc)
    have hplus : c ≠ 0x2b := fun heq => hsign.2 (heq ▸ hc)
    rw [splitSign, if_neg hminus, if_neg hplus]

theorem lexicalCastUint64_decimal {n : Nat} (h : n < 2 ^ 64) :
    lexicalCastUint64 (decimal n) = some n := by
  have hdigits : ¬ (decimal n = [] ∨ ¬ ∀ c ∈ decimal n, IsDigit c) := by
    rintro (hnil | hdigit)
    · exact decimal_ne_nil hnil
    · exact hdigit fun c hc => isDigit_of_mem_decimal hc
  unfold lexicalCastUint64
  rw [splitSign_digits fun c hc => isDigit_of_mem_decimal hc]
  dsimp only
  rw [if_neg hdigits, decimalValue_decimal, if_pos h]
  rfl

end Util
