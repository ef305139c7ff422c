import Mathlib.Data.Nat.Size
import KeyForms.Magnitude
import KeyForms.Proofs.Octets

/-!
# Magnitudes as numbers

A magnitude is a number and nothing more. Its bit length is the bit length of
the number it writes (`Magnitude.bitLength_eq_size`), although it is counted
on the octets and only the first of them is looked at. The bit length tells
how many octets there are, and the number tells them when their count is
known, so two magnitudes of one value are the same (`Magnitude.value_inj`).
-/

namespace KeyForms.Magnitude

/-- **The number of significant bits** is that of the number. -/
theorem bitLength_eq_size (m : Magnitude) : m.bitLength = Nat.size m.value := by
  obtain ⟨octets, hhead⟩ := m
  cases octets with
  | nil => rfl
  | cons high rest =>
    have hne : high.toNat ≠ 0 := by
      intro hzero
      have : high = 0 := UInt8.toNat_inj.1 hzero
      exact hhead (by rw [this, List.head?_cons])
    have hrest := Octets.value_lt rest
    have hpow : 256 ^ rest.length = 2 ^ (8 * rest.length) := by
      rw [show (256 : Nat) = 2 ^ 8 from rfl, ← pow_mul]
    have hvalue : value ⟨high :: rest, hhead⟩
        = high.toNat * 2 ^ (8 * rest.length) + Octets.value rest := by
      rw [value, Octets.value_cons, hpow]
    rw [hpow] at hrest
    have hlow := Nat.log2_self_le hne
    have hhigh : high.toNat < 2 ^ (high.toNat.log2 + 1) := Nat.lt_log2_self
    show high.toNat.log2 + 1 + 8 * rest.length = _
    rw [hvalue]
    refine Nat.le_antisymm ?_ ?_
    · -- the highest bit is set
      have hmul := Nat.mul_le_mul_right (2 ^ (8 * rest.length)) hlow
      rw [← pow_add] at hmul
      have hlt := Nat.lt_size.2 (hmul.trans (Nat.le_add_right _ (Octets.value rest)))
      omega
    · -- and no bit above it
      rw [Nat.size_le, pow_add]
      have hmul := Nat.mul_le_mul_right (2 ^ (8 * rest.length)) (Nat.succ_le_of_lt hhigh)
      rw [Nat.succ_mul] at hmul
      omega

/-- **The bit length tells the number of octets.** -/
theorem length_octets (m : Magnitude) : m.octets.length = (m.bitLength + 7) / 8 := by
  obtain ⟨octets, hhead⟩ := m
  cases octets with
  | nil =>
    show 0 = (0 + 7) / 8
    decide
  | cons high rest =>
    have hlt : high.toNat.log2 < 8 := by
      have hhigh := high.toNat_lt
      rcases Nat.eq_zero_or_pos high.toNat with hzero | hpos
      · rw [hzero]
        decide
      · exact (Nat.log2_lt (by omega)).2 hhigh
    show rest.length + 1 = (high.toNat.log2 + 1 + 8 * rest.length + 7) / 8
    omega

/-- **Magnitudes of one value are the same.** -/
theorem value_inj {m n : Magnitude} : m.value = n.value ↔ m = n := by
  constructor
  · intro h
    have hlength : m.octets.length = n.octets.length := by
      rw [length_octets, length_octets, bitLength_eq_size, bitLength_eq_size, h]
    have hm := Octets.ofNat_value m.octets
    have hn := Octets.ofNat_value n.octets
    have hoctets : m.octets = n.octets := by
      rw [← hm, ← hn, hlength]
      exact congrArg _ h
    obtain ⟨octets, hhead⟩ := m
    subst hoctets
    rfl
  · rintro rfl
    rfl

/-- **Octets have one magnitude exactly when they write one number.** -/
theorem ofOctets_eq_iff {s t : Octets} : ofOctets s = ofOctets t ↔ s.value = t.value := by
  rw [← value_inj, value_ofOctets, value_ofOctets]

/-- The number is zero when there are no octets. -/
theorem isZero_eq_true_iff {m : Magnitude} : m.isZero = true ↔ m.value = 0 := by
  rw [isZero, List.isEmpty_iff, ← List.length_eq_zero_iff, length_octets, bitLength_eq_size,
    ← Nat.size_eq_zero (n := m.value)]
  omega

/-- **The bit length is the least number of bits** in which the number can be
written. -/
theorem bitLength_le_iff {m : Magnitude} {t : Nat} : m.bitLength ≤ t ↔ m.value < 2 ^ t := by
  rw [bitLength_eq_size, Nat.size_le]

end KeyForms.Magnitude
