import KeyForms.Wraparound
import Mathlib.Data.List.Basic
import Mathlib.Data.Nat.ModEq
import Mathlib.Tactic.Ring

/-!
# Wrap-around arithmetic is arithmetic modulo `2^521 - 1`

Digits write a number, and many digits write numbers with one residue. Which number it
is depends on the steps in which it was computed, but the residue does not: every
operation on digits is the operation of its name on residues. `Wraparound.Writes` says
that digits have a residue, and there is one lemma for each operation, up to the root
of a square (`Wraparound.Writes.sqrt`).

Two steps do more than arithmetic on digits. To settle digits is to add at the low end
what is carried out at the top, where it is worth the modulus and one
(`Writes.settle`), and a digit that is shifted out at the top is worth two at the low
end (`Writes.shift`).
-/

namespace KeyForms.Wraparound

/-! ## Carrying keeps the value -/

/-- What one carried out of the highest digit is worth. -/
def weight : Digits → Nat
  | [] => 1
  | [_] => topBase
  | _ :: e :: ds => base * weight (e :: ds)

/-- Carrying moves value out at the top and loses none. -/
theorem value_carry (c : Nat) (ds : Digits) :
    value (carry c ds).1 + weight ds * (carry c ds).2 = value ds + c := by
  fun_induction carry c ds with
  | case1 c => simp [value, weight]
  | case2 c d =>
    have := Nat.mod_add_div (d + c) topBase
    simp only [value, weight]
    omega
  | case3 c d e ds upper ih =>
    have := Nat.mod_add_div (d + c) base
    simp only [value, weight, Nat.mul_assoc] at ih ⊢
    rw [Nat.add_assoc, ← Nat.mul_add, ih, Nat.mul_add]
    omega

@[simp] theorem length_carry (c : Nat) (ds : Digits) : (carry c ds).1.length = ds.length := by
  fun_induction carry c ds with
  | case1 => rfl
  | case2 => rfl
  | case3 c d e ds upper ih => simp [upper, ih]

/-- Adding at the low end adds, as long as there are digits to carry into. -/
theorem value_carryInto {steps c : Nat} {ds : Digits} (h : steps < ds.length) :
    value (carryInto steps c ds) = value ds + c := by
  fun_induction carryInto steps c ds with
  | case1 => simp at h
  | case2 c d ds =>
    simp only [value]
    omega
  | case3 steps c d ds ih =>
    have := Nat.mod_add_div (d + c) base
    simp only [value]
    rw [ih (by simpa using h), Nat.mul_add]
    omega

@[simp] theorem length_carryInto (steps c : Nat) (ds : Digits) :
    (carryInto steps c ds).length = ds.length := by
  fun_induction carryInto steps c ds with
  | case1 => rfl
  | case2 => rfl
  | case3 steps c d ds ih => simp [ih]

/-- What is carried out of the last digit is worth the modulus and one. -/
theorem weight_eq {ds : Digits} (h : ds.length = count) : weight ds = modulus + 1 := by
  match ds, h with
  | [_, _, _, _, _, _, _, _, _], _ =>
    simp only [weight]
    decide

/-- Settling takes the modulus away as often as something is carried out at the top. -/
theorem value_settle {ds : Digits} (h : ds.length = count) :
    value ds = value (settle ds) + modulus * (carry 0 ds).2 := by
  have hcarry := value_carry 0 ds
  have hsettle : value (settle ds) = value (carry 0 ds).1 + (carry 0 ds).2 := by
    refine value_carryInto ?_
    rw [length_carry, h]
    decide
  rw [weight_eq h, Nat.add_mul, Nat.one_mul] at hcarry
  rw [hsettle, ← Nat.add_zero (value ds), ← hcarry]
  ac_rfl

/-! ## Values of rows of digits -/

theorem value_zipWith_add {as bs : Digits} (h : as.length = bs.length) :
    value (List.zipWith (· + ·) as bs) = value as + value bs := by
  induction as generalizing bs with
  | nil =>
    obtain rfl := List.length_eq_zero_iff.1 h.symm
    rfl
  | cons a as ih =>
    cases bs with
    | nil => cases h
    | cons b bs =>
      simp only [List.zipWith_cons_cons, value]
      rw [ih (Nat.succ.inj h)]
      ring

theorem value_map_mul (d : Nat) (ds : Digits) : value (ds.map (d * ·)) = d * value ds := by
  induction ds with
  | nil => rfl
  | cons e ds ih =>
    simp only [List.map_cons, value]
    rw [ih]
    ring

theorem value_append (as bs : Digits) :
    value (as ++ bs) = value as + base ^ as.length * value bs := by
  induction as with
  | nil => simp [value]
  | cons a as ih =>
    simp only [List.cons_append, List.length_cons, value]
    rw [ih]
    ring

theorem value_replicate_zero (n : Nat) : value (List.replicate n 0) = 0 := by
  induction n with
  | zero => rfl
  | succ n ih => simp only [List.replicate_succ, value, ih, Nat.mul_zero]

theorem shift_concat (lower : Digits) (top : Nat) : shift (lower ++ [top]) = 2 * top :: lower := by
  rw [shift, List.getLast?_concat, List.dropLast_concat]

/-- Shifting multiplies by the base, but for what is moved out at the top. -/
theorem value_shift {lower : Digits} {top : Nat} (h : lower.length + 1 = count) :
    base * value (lower ++ [top]) = value (shift (lower ++ [top])) + modulus * (2 * top) := by
  -- nine places up is `2^522`, which is twice what one at the top is worth
  have hbase : base ^ lower.length * base = 2 * modulus + 2 := by
    rw [Nat.succ.inj h]
    decide
  calc base * value (lower ++ [top])
    _ = base * value lower + base ^ lower.length * base * top := by
      rw [value_append, value, value]
      ring
    _ = base * value lower + (2 * modulus + 2) * top := by rw [hbase]
    _ = 2 * top + base * value lower + modulus * (2 * top) := by ring
    _ = value (shift (lower ++ [top])) + modulus * (2 * top) := by rw [shift_concat, value]

theorem value_split (more n : Nat) : value (split more n) = n := by
  induction more generalizing n with
  | zero => simp [split, value]
  | succ more ih =>
    rw [split, value, ih]
    exact Nat.mod_add_div n base

@[simp] theorem length_split (more n : Nat) : (split more n).length = more + 1 := by
  induction more generalizing n with
  | zero => rfl
  | succ more ih => rw [split, List.length_cons, ih]

/-! ## Residues -/

/-- **Digits write the residue of a number**: there are as many as there should be, and
the number that they write is the same modulo `2^521 - 1`. -/
structure Writes (ds : Digits) (n : Nat) : Prop where
  /-- There are as many digits as there should be. -/
  length : ds.length = count
  /-- The residue is that of the number. -/
  residue : value ds ≡ n [MOD modulus]

theorem modEq_of_eq_add {a b k n : Nat} (h : a = b + modulus * k) (ha : a ≡ n [MOD modulus]) :
    b ≡ n [MOD modulus] := by
  refine Nat.ModEq.trans ?_ ha
  rw [h, Nat.ModEq, Nat.add_mul_mod_self_left]

theorem writes_ofNat (n : Nat) : Writes (ofNat n) n where
  length := length_split _ _
  residue := by rw [ofNat, value_split]

theorem writes_zero : Writes (List.replicate count 0) 0 where
  length := List.length_replicate
  residue := by rw [value_replicate_zero]

namespace Writes

variable {ds as bs : Digits} {m n : Nat}

theorem congr (h : Writes ds m) (hmod : m ≡ n [MOD modulus]) : Writes ds n :=
  ⟨h.length, h.residue.trans hmod⟩

/-- **Settled digits have the residue they had before.** -/
theorem settle (h : Writes ds n) : Writes (settle ds) n where
  length := by rw [Wraparound.settle, length_carryInto, length_carry, h.length]
  residue := modEq_of_eq_add (value_settle h.length) h.residue

theorem zipWith_add (ha : Writes as m) (hb : Writes bs n) :
    Writes (List.zipWith (· + ·) as bs) (m + n) where
  length := by rw [List.length_zipWith, ha.length, hb.length, Nat.min_self]
  residue := by
    rw [value_zipWith_add (ha.length.trans hb.length.symm)]
    exact ha.residue.add hb.residue

theorem map_mul (d : Nat) (h : Writes ds n) : Writes (ds.map (d * ·)) (d * n) where
  length := by rw [List.length_map, h.length]
  residue := by
    rw [value_map_mul]
    exact h.residue.mul_left d

/-- **The sum of digits** has the residue of the sum. -/
theorem sum (ha : Writes as m) (hb : Writes bs n) : Writes (sum as bs) (m + n) :=
  (ha.zipWith_add hb).settle

/-- **Shifted digits** have the residue of the product with the base. -/
theorem shift (h : Writes ds n) : Writes (shift ds) (base * n) := by
  obtain rfl | ⟨lower, top, rfl⟩ := List.eq_nil_or_concat' ds
  · cases h.length
  have hlength : lower.length + 1 = count := by
    rw [← h.length, List.length_append, List.length_singleton]
  refine ⟨?_, modEq_of_eq_add (value_shift hlength) (h.residue.mul_left base)⟩
  rw [shift_concat, List.length_cons, hlength]

/-- The columns of a product, from some digit of the one factor on. -/
theorem columns (as : Digits) (hb : Writes bs n) :
    Writes (columns as bs) (value as * n) := by
  induction as with
  | nil =>
    rw [value, Nat.zero_mul]
    exact writes_zero
  | cons d ds ih =>
    have hsum : value (d :: ds) * n = d * n + base * (value ds * n) := by
      rw [value]
      ring
    rw [hsum]
    exact (hb.map_mul d).zipWith_add ih.shift

/-- **The product of digits** has the residue of the product. -/
theorem product (ha : Writes as m) (hb : Writes bs n) : Writes (product as bs) (m * n) :=
  ((columns as hb).congr (ha.residue.mul_right n)).settle

theorem squareTimes (times : Nat) (h : Writes ds n) :
    Writes (squareTimes times ds) (n ^ 2 ^ times) := by
  induction times generalizing ds n with
  | zero => rwa [Nat.pow_zero, Nat.pow_one]
  | succ times ih =>
    have hpow : (n * n) ^ 2 ^ times = n ^ 2 ^ (times + 1) := by
      rw [← Nat.pow_two, ← Nat.pow_mul, Nat.pow_succ']
    rw [← hpow]
    exact ih (h.product h)

/-- **The root of digits** has the residue of a power: of the one that is a root where
there is one. -/
theorem sqrt (h : Writes ds n) : Writes (sqrt ds) (n ^ 2 ^ 519) :=
  h.squareTimes 519

end Writes

end KeyForms.Wraparound
