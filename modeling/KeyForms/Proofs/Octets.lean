import Mathlib.Data.List.Induction
import Mathlib.Tactic.Ring
import KeyForms.Octets

/-!
# Octet strings as numbers

An octet string of a known width and the number it writes determine each
other: `Octets.value_ofNat` and `Octets.ofNat_value` are the two directions,
and everything the formats do with coordinates, lengths and labels goes
through them.

Cutting an octet string in two is where numbers can go wrong.
`Octets.value_append` says what a cut does to the value, and
`Octets.values_eq_of_cut_iff` what it takes for a string that is cut in a
second place to show the same two numbers there: it is the same place, or
there are only zeros between the two.
-/

namespace KeyForms.Octets

/-- **The value of two parts**: the first one is moved up by the length of
the second. -/
theorem value_append (s t : Octets) :
    value (s ++ t) = value s * 256 ^ t.length + value t := by
  induction t using List.reverseRecOn with
  | nil => simp
  | append_singleton t b ih =>
    rw [← List.append_assoc, value_concat, value_concat, ih, List.length_append,
      List.length_singleton, pow_succ]
    ring

theorem value_lt (s : Octets) : value s < 256 ^ s.length := by
  induction s using List.reverseRecOn with
  | nil => simp
  | append_singleton s b ih =>
    have hb := b.toNat_lt
    rw [value_concat, List.length_append, List.length_singleton, pow_succ]
    omega

/-- One more octet on the left counts for as much as there are octets after
it. -/
theorem value_cons (b : UInt8) (s : Octets) :
    value (b :: s) = b.toNat * 256 ^ s.length + value s := by
  have hone : value [b] = b.toNat := by simp [value]
  rw [← List.singleton_append, value_append, hone]

/-- **Zeros in front do not count**, however many there are. -/
@[simp] theorem value_zeros_append (n : Nat) (s : Octets) :
    value (List.replicate n 0 ++ s) = value s := by
  induction n with
  | zero => rfl
  | succ n ih => rw [List.replicate_succ, List.cons_append, value_zero_cons, ih]

/-- **Octet strings of one length are in the order of the numbers they
write**: the first octet in which they differ decides for both. -/
theorem lt_iff_value_lt {s t : Octets} (h : s.length = t.length) :
    s < t ↔ value s < value t := by
  induction s generalizing t with
  | nil =>
    rw [List.eq_nil_of_length_eq_zero h.symm]
    simp
  | cons a s ih =>
    cases t with
    | nil => contradiction
    | cons b t =>
      have hlength : s.length = t.length := by simpa using h
      have hs := value_lt s
      have ht := value_lt t
      rw [List.cons_lt_cons_iff, ih hlength, UInt8.lt_iff_toNat_lt, ← UInt8.toNat_inj,
        value_cons, value_cons, hlength]
      rw [hlength] at hs
      rcases Nat.lt_trichotomy a.toNat b.toNat with hlt | heq | hgt
      · have hmul := Nat.mul_le_mul_right (256 ^ t.length) (Nat.succ_le_of_lt hlt)
        rw [Nat.succ_mul] at hmul
        omega
      · rw [heq]
        omega
      · have hmul := Nat.mul_le_mul_right (256 ^ t.length) (Nat.succ_le_of_lt hgt)
        rw [Nat.succ_mul] at hmul
        omega

/-! ## Numbers at a width -/

/-- **Writing a number at a width keeps its last digits.** -/
theorem value_ofNat (width n : Nat) : value (ofNat width n) = n % 256 ^ width := by
  induction width generalizing n with
  | zero => simp [ofNat, Nat.mod_one]
  | succ width ih =>
    rw [ofNat, value_concat, ih, pow_succ', Nat.mod_mul, UInt8.toNat_ofNat']
    omega

theorem value_ofNat_of_lt {width n : Nat} (h : n < 256 ^ width) :
    value (ofNat width n) = n := by
  rw [value_ofNat, Nat.mod_eq_of_lt h]

/-- **An octet string is the writing of its value** at its own width. -/
theorem ofNat_value (s : Octets) : ofNat s.length (value s) = s := by
  induction s using List.reverseRecOn with
  | nil => rfl
  | append_singleton s b ih =>
    have hb := b.toNat_lt
    have hhigh : (256 * value s + b.toNat) / 256 = value s := by omega
    have hlow : UInt8.ofNat (256 * value s + b.toNat) = b := by
      apply UInt8.toNat_inj.1
      rw [UInt8.toNat_ofNat']
      omega
    rw [List.length_append, List.length_singleton, value_concat, ofNat, hhigh, hlow, ih]

/-- The form of `ofNat_value` for a width that is known otherwise. -/
theorem ofNat_value_of_length {width : Nat} {s : Octets} (h : s.length = width) :
    ofNat width (value s) = s := by
  subst h
  exact ofNat_value s

/-- The first of the last digits of a number. -/
theorem head?_ofNat_succ (width n : Nat) :
    (ofNat (width + 1) n).head? = some (UInt8.ofNat (n / 256 ^ width)) := by
  induction width generalizing n with
  | zero => simp [ofNat]
  | succ width ih =>
    rw [ofNat, List.head?_append, ih, Option.some_or, Nat.div_div_eq_div_mul, pow_succ']

/-- **Bringing an octet string to a width keeps its last digits.** -/
theorem value_fixedWidth (width : Nat) (s : Octets) :
    value (fixedWidth width s) = value s % 256 ^ width := by
  rw [fixedWidth, value_zeros_append]
  rcases Nat.le_total s.length width with hshort | hlong
  · -- nothing is dropped, and there is room for the whole number
    rw [Nat.sub_eq_zero_of_le hshort, List.drop_zero, Nat.mod_eq_of_lt]
    exact (value_lt s).trans_le (Nat.pow_le_pow_right (by decide) hshort)
  · have hlength : (s.drop (s.length - width)).length = width := by
      rw [List.length_drop]
      omega
    have hkept := value_lt (s.drop (s.length - width))
    have hcut := value_append (s.take (s.length - width)) (s.drop (s.length - width))
    rw [hlength] at hkept hcut
    rw [List.take_append_drop] at hcut
    rw [hcut, Nat.mul_add_mod', Nat.mod_eq_of_lt hkept]

/-- **Octet strings are the same at a width exactly when their numbers have the same
last digits.** -/
theorem fixedWidth_eq_iff {width : Nat} {s t : Octets} :
    fixedWidth width s = fixedWidth width t ↔ value s % 256 ^ width = value t % 256 ^ width := by
  rw [← value_fixedWidth, ← value_fixedWidth]
  constructor
  · exact congrArg value
  · intro h
    rw [← ofNat_value_of_length (length_fixedWidth width s), h,
      ofNat_value_of_length (length_fixedWidth width t)]

/-! ## Cutting in two -/

/-- **More octets change a number** unless there are none of them, or there
are zeros only. -/
theorem value_append_eq_left_iff {s t : Octets} :
    value (s ++ t) = value s ↔ t = [] ∨ value (s ++ t) = 0 := by
  rw [value_append]
  constructor
  · intro h
    cases t with
    | nil => exact Or.inl rfl
    | cons b t =>
      have hpow : 256 ≤ 256 ^ (b :: t).length := Nat.le_self_pow (by simp) 256
      have hmul := Nat.mul_le_mul_left (value s) hpow
      right
      omega
  · rintro (rfl | h)
    · simp
    · have hmul : value s * 256 ^ t.length = 0 := by omega
      have hs : value s = 0 := (Nat.mul_eq_zero.1 hmul).resolve_right (by simp)
      rw [h, hs]

/-- **The same numbers on either side of two cuts.** A string `x ++ y` that
is cut after `w` octets instead shows the numbers `x` and `y` write exactly
when `x` has `w` octets, or when both first parts are zero. -/
theorem values_eq_of_cut_iff {x y : Octets} {w : Nat} (h : w ≤ (x ++ y).length) :
    value x = value ((x ++ y).take w) ∧ value y = value ((x ++ y).drop w)
      ↔ x.length = w ∨ value x = 0 ∧ value ((x ++ y).take w) = 0 := by
  constructor
  · rintro ⟨hx, -⟩
    rcases Nat.lt_trichotomy x.length w with hlt | heq | hgt
    · -- octets of `y` stand in the first part
      have htake : (x ++ y).take w = x ++ y.take (w - x.length) := by
        rw [List.take_append, List.take_of_length_le hlt.le]
      rw [htake] at hx ⊢
      rcases value_append_eq_left_iff.1 hx.symm with hnil | hzero
      · rw [List.length_append] at h
        have hlength := congrArg List.length hnil
        rw [List.length_take, List.length_nil] at hlength
        omega
      · exact Or.inr ⟨hx.trans hzero, hzero⟩
    · exact Or.inl heq
    · -- octets of `x` stand in the second part
      have htake : (x ++ y).take w = x.take w := List.take_append_of_le_length hgt.le
      rw [htake] at hx ⊢
      have hcut : value (x.take w ++ x.drop w) = value (x.take w) := by
        rw [List.take_append_drop, hx]
      rcases value_append_eq_left_iff.1 hcut with hnil | hzero
      · rw [List.drop_eq_nil_iff] at hnil
        omega
      · rw [List.take_append_drop] at hzero
        exact Or.inr ⟨hzero, hx.symm.trans hzero⟩
  · rintro (rfl | ⟨hx, htake⟩)
    · simp
    · refine ⟨hx.trans htake.symm, ?_⟩
      -- both are the value of the whole string
      have hwhole : value (x ++ y) = value ((x ++ y).take w ++ (x ++ y).drop w) := by
        rw [List.take_append_drop]
      rwa [value_append, value_append, hx, htake, Nat.zero_mul, Nat.zero_mul, Nat.zero_add,
        Nat.zero_add] at hwhole

end KeyForms.Octets
