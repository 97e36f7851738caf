import Mathlib.Tactic.Ring

/-!
# Numbers in network byte order

Written and read as fixed numbers of bytes.
-/

namespace Infra

/-- The last `w` bytes of `n`. -/
def netBytes : (w n : Nat) → List UInt8
  | 0, _ => []
  | w + 1, n => UInt8.ofNat (n / 256 ^ w) :: netBytes w n

def netValue : List UInt8 → Nat
  | [] => 0
  | b :: bs => b.toNat * 256 ^ bs.length + netValue bs

variable (w n : Nat)

@[simp] theorem length_netBytes : (netBytes w n).length = w := by
  induction w with
  | zero => rfl
  | succ w ih => simp [netBytes, ih]

theorem netValue_lt (bs : List UInt8) : netValue bs < 256 ^ bs.length := by
  induction bs with
  | nil => decide
  | cons b bs ih =>
    have hb : b.toNat < 256 := b.toNat_lt
    calc netValue (b :: bs) = b.toNat * 256 ^ bs.length + netValue bs := rfl
      _ < b.toNat * 256 ^ bs.length + 256 ^ bs.length := Nat.add_lt_add_left ih _
      _ = (b.toNat + 1) * 256 ^ bs.length := by ring
      _ ≤ 256 * 256 ^ bs.length := Nat.mul_le_mul_right _ hb
      _ = 256 ^ (b :: bs).length := by rw [List.length_cons]; ring

theorem netValue_netBytes_mod : netValue (netBytes w n) = n % 256 ^ w := by
  induction w with
  | zero => simp [netBytes, netValue, Nat.mod_one]
  | succ w ih =>
    have hpow : 256 ^ (w + 1) = 256 ^ w * 256 := Nat.pow_succ ..
    simp only [netBytes, netValue, length_netBytes, ih, UInt8.toNat_ofNat']
    rw [hpow, Nat.mod_mul, Nat.add_comm, Nat.mul_comm]

theorem netValue_netBytes {w n : Nat} (h : n < 256 ^ w) : netValue (netBytes w n) = n := by
  rw [netValue_netBytes_mod, Nat.mod_eq_of_lt h]

/-- Bytes in front of those that are written do not show in them. -/
theorem netBytes_add_mul {k : Nat} : netBytes w (k * 256 ^ w + n) = netBytes w n := by
  induction w generalizing k with
  | zero => rfl
  | succ w ih =>
    have hshift : k * 256 ^ (w + 1) + n = k * 256 * 256 ^ w + n := by rw [Nat.pow_succ]; ring
    have hhead : UInt8.ofNat ((k * 256 * 256 ^ w + n) / 256 ^ w) = UInt8.ofNat (n / 256 ^ w) := by
      rw [Nat.mul_comm _ (256 ^ w), Nat.mul_add_div (Nat.pow_pos (by decide))]
      apply UInt8.toNat_inj.mp
      simp [UInt8.toNat_ofNat']
    rw [hshift, netBytes, netBytes, hhead, ih]

theorem netBytes_mod : netBytes w (n % 256 ^ w) = netBytes w n := by
  rw [← netBytes_add_mul w (n % 256 ^ w), Nat.mul_comm, Nat.div_add_mod]

theorem netBytes_netValue (bs : List UInt8) : netBytes bs.length (netValue bs) = bs := by
  induction bs with
  | nil => rfl
  | cons b bs ih =>
    have hdiv : (b.toNat * 256 ^ bs.length + netValue bs) / 256 ^ bs.length = b.toNat := by
      rw [Nat.mul_comm, Nat.mul_add_div (Nat.pow_pos (by decide)), Nat.div_eq_of_lt (netValue_lt bs),
        Nat.add_zero]
    simp only [List.length_cons, netBytes, netValue, hdiv, UInt8.ofNat_toNat, List.cons.injEq,
      true_and]
    rw [netBytes_add_mul, ih]

/-- The bits of a number, from the first one of the first byte on. -/
theorem testBit_netValue {bs : List UInt8} {i : Nat} (h : i < 8 * bs.length) :
    (netValue bs).testBit (8 * bs.length - 1 - i) = (bs[i / 8]?.getD 0).toNat.testBit (7 - i % 8) := by
  induction bs generalizing i with
  | nil => cases h
  | cons b bs ih =>
    have hlow : netValue bs < 2 ^ (8 * bs.length) := by
      rw [Nat.pow_mul]
      exact netValue_lt bs
    rw [netValue, Nat.mul_comm, show 256 ^ bs.length = 2 ^ (8 * bs.length) from (Nat.pow_mul 2 8 _).symm,
      Nat.testBit_two_pow_mul_add _ hlow]
    rw [List.length_cons] at h ⊢
    by_cases hi : i < 8
    · rw [if_neg (by omega), Nat.div_eq_of_lt hi]
      congr 1
      omega
    · obtain ⟨j, rfl⟩ := Nat.exists_eq_add_of_le (not_lt.mp hi)
      rw [if_pos (by omega), show 8 * (bs.length + 1) - 1 - (8 + j) = 8 * bs.length - 1 - j by omega,
        ih (by omega), Nat.add_div_left j (by decide), Nat.add_mod_left, List.getElem?_cons_succ]

/-- Any bytes start with a number, when they are enough. -/
theorem exists_netBytes {w : Nat} {bytes : List UInt8} (h : w ≤ bytes.length) :
    ∃ n rest, n < 256 ^ w ∧ bytes = netBytes w n ++ rest := by
  have hfront : (bytes.take w).length = w := by
    rw [List.length_take]
    omega
  have hlt := netValue_lt (bytes.take w)
  have hback := netBytes_netValue (bytes.take w)
  rw [hfront] at hlt hback
  exact ⟨_, bytes.drop w, hlt, by rw [hback, List.take_append_drop]⟩

end Infra
