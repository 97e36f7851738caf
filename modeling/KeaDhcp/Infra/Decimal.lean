import Mathlib.Data.Nat.Digits.Lemmas

/-!
# Decimal numbers
-/

namespace Infra

open List

def IsDigit (c : UInt8) : Prop := 0x30 ≤ c ∧ c ≤ 0x39

instance (c : UInt8) : Decidable (IsDigit c) := inferInstanceAs (Decidable (_ ∧ _))

instance (digits : List UInt8) : Decidable (∀ c ∈ digits, IsDigit c) := decidableBAll _ _

def digitByte (d : Nat) : UInt8 := UInt8.ofNat (0x30 + d)

def decimal (n : Nat) : List UInt8 :=
  if n = 0 then [0x30] else ((Nat.digits 10 n).map digitByte).reverse

def decimalValue (digits : List UInt8) : Nat :=
  digits.foldl (fun value c => 10 * value + (c.toNat - 0x30)) 0

theorem toNat_digitByte {d : Nat} (h : d < 10) : (digitByte d).toNat = 0x30 + d := by
  rw [digitByte, UInt8.toNat_ofNat']
  omega

theorem isDigit_digitByte {d : Nat} (h : d < 10) : IsDigit (digitByte d) := by
  have hnat := toNat_digitByte h
  constructor
  · show (0x30 : UInt8).toNat ≤ (digitByte d).toNat
    rw [hnat]
    exact Nat.le_add_right _ _
  · show (digitByte d).toNat ≤ (0x39 : UInt8).toNat
    rw [hnat]
    show 0x30 + d ≤ 0x39
    omega

theorem isDigit_of_mem_decimal {n : Nat} {c : UInt8} (h : c ∈ decimal n) : IsDigit c := by
  unfold decimal at h
  split at h
  · rw [mem_singleton.mp h]
    decide
  · obtain ⟨d, hd, rfl⟩ := mem_map.mp (mem_reverse.mp h)
    exact isDigit_digitByte (Nat.digits_lt_base (by omega) hd)

theorem decimal_ne_nil {n : Nat} : decimal n ≠ [] := by
  unfold decimal
  split
  · exact cons_ne_nil _ _
  · next h =>
    intro hnil
    have hdigits := map_eq_nil_iff.mp (reverse_eq_nil_iff.mp hnil)
    exact h (Nat.digits_eq_nil_iff_eq_zero.mp hdigits)

theorem decimalValue_reverse {digits : List Nat} (h : ∀ d ∈ digits, d < 10) :
    decimalValue (digits.map digitByte).reverse = Nat.ofDigits 10 digits := by
  unfold decimalValue
  rw [foldl_reverse]
  induction digits with
  | nil => rfl
  | cons d digits ih =>
    rw [forall_mem_cons] at h
    rw [map_cons, foldr_cons, ih h.2, toNat_digitByte h.1, Nat.ofDigits_cons]
    omega

@[simp] theorem decimalValue_decimal {n : Nat} : decimalValue (decimal n) = n := by
  unfold decimal
  split
  · next h => rw [h]; rfl
  · rw [decimalValue_reverse fun d hd => Nat.digits_lt_base (by omega) hd, Nat.ofDigits_digits]

end Infra
