import Mathlib.Data.List.Basic
import KeaDhcp.Infra.BigEndian

/-!
# Fields of a type, a length and a value

A field starts with its type and the length of its value, each a number of `w` bytes. Fields
follow each other without a separator, so a reader takes them off the front of the bytes.
-/

namespace Infra

open List

structure Tlv where
  type : Nat
  value : List UInt8
  deriving DecidableEq

namespace Tlv

def encode (w : Nat) (f : Tlv) : List UInt8 :=
  netBytes w f.type ++ netBytes w f.value.length ++ f.value

/-- The type and the length can be written. -/
structure Fits (w : Nat) (f : Tlv) : Prop where
  type : f.type < 256 ^ w
  length : f.value.length < 256 ^ w

theorem length_encode (w : Nat) (f : Tlv) : (f.encode w).length = w + w + f.value.length := by
  simp [encode, Nat.add_assoc]

end Tlv

/-- The first field of the bytes and the bytes behind it; nothing when the bytes end within it. -/
def takeField (w : Nat) (bytes : List UInt8) : Option (Tlv × List UInt8) :=
  if bytes.length < w + w then none
  else
    let length := netValue ((bytes.drop w).take w)
    let rest := bytes.drop (w + w)
    if rest.length < length then none
    else some ({ type := netValue (bytes.take w), value := rest.take length }, rest.drop length)

variable {w : Nat} {f : Tlv} {bytes rest : List UInt8}

theorem takeField_header {type length : Nat} (htype : type < 256 ^ w) (hlength : length < 256 ^ w) :
    takeField w (netBytes w type ++ (netBytes w length ++ rest)) =
      if rest.length < length then none
      else some ({ type := type, value := rest.take length }, rest.drop length) := by
  have hfront : (netBytes w type ++ (netBytes w length ++ rest)).take w = netBytes w type :=
    take_left' (length_netBytes w type)
  have hbehind : (netBytes w type ++ (netBytes w length ++ rest)).drop w =
      netBytes w length ++ rest := drop_left' (length_netBytes w type)
  have hmiddle : (netBytes w length ++ rest).take w = netBytes w length :=
    take_left' (length_netBytes w length)
  unfold takeField
  rw [if_neg (by simp), ← drop_drop]
  simp only [hfront, hbehind, hmiddle, drop_left' (length_netBytes w length),
    netValue_netBytes htype, netValue_netBytes hlength]

/-- Bytes that are too short for a header, or a header with the bytes behind it. -/
theorem takeField_cases (w : Nat) (bytes : List UInt8) :
    bytes.length < w + w ∧ takeField w bytes = none ∨
      ∃ type length rest, type < 256 ^ w ∧ length < 256 ^ w ∧
        bytes = netBytes w type ++ (netBytes w length ++ rest) ∧
        takeField w bytes = if rest.length < length then none
          else some ({ type := type, value := rest.take length }, rest.drop length) := by
  by_cases hshort : bytes.length < w + w
  · exact .inl ⟨hshort, if_pos hshort⟩
  obtain ⟨type, behind, htype, rfl⟩ := exists_netBytes (w := w) (show w ≤ bytes.length by omega)
  rw [length_append, length_netBytes] at hshort
  obtain ⟨length, rest, hlength, rfl⟩ := exists_netBytes (w := w) (show w ≤ behind.length by omega)
  exact .inr ⟨type, length, rest, htype, hlength, rfl, takeField_header htype hlength⟩

theorem takeField_encode (h : f.Fits w) (rest : List UInt8) :
    takeField w (f.encode w ++ rest) = some (f, rest) := by
  rw [Tlv.encode, append_assoc, append_assoc, takeField_header h.type h.length,
    if_neg (by rw [length_append]; omega), take_left, drop_left]

/-- What is taken was encoded in front of the rest. -/
theorem takeField_eq_some (h : takeField w bytes = some (f, rest)) :
    f.Fits w ∧ bytes = f.encode w ++ rest := by
  obtain ⟨-, hnone⟩ | ⟨type, length, behind, htype, hlength, rfl, heq⟩ := takeField_cases w bytes
  · rw [hnone] at h
    cases h
  rw [heq] at h
  split at h
  · cases h
  cases h
  have hvalue : (behind.take length).length = length := by
    rw [length_take]
    omega
  refine ⟨⟨htype, by rw [hvalue]; exact hlength⟩, ?_⟩
  rw [Tlv.encode, hvalue, append_assoc, append_assoc, take_append_drop]

end Infra
