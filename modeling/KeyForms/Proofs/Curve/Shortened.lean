import KeyForms.Proofs.Curve.Coordinates
import KeyForms.Proofs.Wraparound
import Mathlib.NumberTheory.LegendreSymbol.Basic
import Mathlib.NumberTheory.LucasLehmer

/-!
# Points from their first coordinates

A shortened form has the first coordinate of a point and says which of the two roots of
the equation is the second one. So whoever reads it has to find a root. The prime of
each curve leaves 3 on division by 4, and then a power of a square is a root of it
(`Residue.sqrt_eq_or`).

On the largest curve the power is computed in wrap-around digits. That may give another
number than on the other curves, but it has the same residue
(`Curve.Point.rootOf_mod`). Even and odd are said of the number and not of the residue,
so the two words may change places. No point is lost by this, and none is found twice:
each point is read from exactly one of the forms `0x02` and `0x03` of its first
coordinate, and from the form `0x05` if it has the smaller root
(`Curve.Point.ofOctets?_shortened`).

This takes a prime, since modulo other numbers there are more than two roots. For the
largest curve, whose prime is a Mersenne prime, the test of Lucas and Lehmer decides
that it is one (`Curve.prime_p521`).
-/

namespace KeyForms

/-! ## Powers and roots -/

namespace Residue

theorem powBits_eq {m bits b e : Nat} (h : e < 2 ^ bits) : powBits m bits b e = b ^ e % m := by
  induction bits generalizing b e with
  | zero =>
    obtain rfl := Nat.lt_one_iff.1 h
    rfl
  | succ bits ih =>
    have hhalf : e / 2 < 2 ^ bits := Nat.div_lt_of_lt_mul (by rwa [← Nat.pow_succ'])
    have hsquare : (b * b % m) ^ (e / 2) % m = b ^ (2 * (e / 2)) % m := by
      rw [← Nat.pow_mod, ← Nat.pow_two, ← Nat.pow_mul]
    have hsplit := Nat.div_add_mod e 2
    rw [powBits, ih hhalf, hsquare]
    split
    · rename_i heven
      rw [heven, Nat.add_zero] at hsplit
      rw [hsplit]
    · rename_i hodd
      rw [Nat.mod_two_ne_zero.1 hodd] at hsplit
      rw [Nat.mul_mod_mod, ← Nat.pow_succ', Nat.succ_eq_add_one, hsplit]

/-- **A power is what it should be**, modulo the number. -/
theorem pow_eq (m b e : Nat) : pow m b e = b ^ e % m := by
  rw [pow, powBits_eq Nat.lt_log2_self, ← Nat.pow_mod]

/-- **The power of a square is one of its two roots**, modulo a prime that leaves 3 on
division by 4. -/
theorem sqrt_eq_or {p a y : Nat} (hp : p.Prime) (hfour : p % 4 = 3) (hy : y < p)
    (h : y * y % p = a % p) : sqrt p a = y ∨ 0 < y ∧ sqrt p a = p - y := by
  have : Fact p.Prime := ⟨hp⟩
  have hlt : sqrt p a < p := by
    rw [sqrt, pow_eq]
    exact Nat.mod_lt _ hp.pos
  -- among the residues it is the square of the root, raised, and so the root times a sign
  have hsquare : (a : ZMod p) = y ^ 2 := by
    rw [← Nat.cast_pow, Nat.pow_two, ZMod.natCast_eq_natCast_iff']
    exact h.symm
  have hpow : (sqrt p a : ZMod p) = y ^ (p / 2) * y := by
    have hexponent : 2 * ((p + 1) / 4) = p / 2 + 1 := by omega
    rw [sqrt, pow_eq, ZMod.natCast_mod, Nat.cast_pow, hsquare, ← pow_mul, hexponent, pow_succ]
  rcases Nat.eq_zero_or_pos y with rfl | hpos
  · left
    rw [Nat.cast_zero, mul_zero, ZMod.natCast_eq_zero_iff] at hpow
    exact Nat.eq_zero_of_dvd_of_lt hpow hlt
  · have hne : (y : ZMod p) ≠ 0 := by
      rw [ne_eq, ZMod.natCast_eq_zero_iff]
      exact Nat.not_dvd_of_pos_of_lt hpos hy
    rcases ZMod.pow_div_two_eq_neg_one_or_one p hne with hone | hone
    · left
      rw [hone, one_mul, ZMod.natCast_eq_natCast_iff'] at hpow
      rwa [Nat.mod_eq_of_lt hlt, Nat.mod_eq_of_lt hy] at hpow
    · right
      have hneg : ((p - y : Nat) : ZMod p) = -1 * y := by
        rw [Nat.cast_sub hy.le, ZMod.natCast_self, zero_sub, neg_one_mul]
      rw [hone, ← hneg, ZMod.natCast_eq_natCast_iff'] at hpow
      rw [Nat.mod_eq_of_lt hlt, Nat.mod_eq_of_lt (Nat.sub_lt hp.pos hpos)] at hpow
      exact ⟨hpos, hpow⟩

end Residue

namespace Curve

variable {c : Curve}

/-! ## The primes -/

theorem prime_mod_four (c : Curve) : c.prime % 4 = 3 := by
  cases c <;> decide

/-- **The prime of the largest curve is a prime.** -/
theorem prime_p521 : p521.prime.Prime := by
  have hmersenne : p521.prime = mersenne 521 := by decide +kernel
  rw [hmersenne]
  exact lucas_lehmer_sufficiency _ (by decide) (by norm_num)

/-- The right-hand side of the equation, without a subtraction that could go below
zero. -/
theorem rhs_modEq (c : Curve) (x : Nat) :
    x * x * x + (c.prime - 3) * x + c.b ≡ c.rhs x [MOD c.prime] := by
  have hthree : 3 ≤ c.prime := by
    cases c <;> decide
  have hnonneg : 0 ≤ (((x * x * x : Nat) : Int) - 3 * x + c.b) % c.prime :=
    Int.emod_nonneg _ (by omega)
  rw [← Int.natCast_modEq_iff, rhs, Int.toNat_of_nonneg hnonneg]
  refine Int.ModEq.trans ?_ (Int.mod_modEq _ _).symm
  rw [Int.modEq_iff_dvd]
  refine ⟨-x, ?_⟩
  push_cast [Nat.cast_sub hthree]
  ring

theorem rhs_lt (c : Curve) (x : Nat) : c.rhs x < c.prime := by
  have hpos : 0 < c.prime := by
    cases c <;> decide
  rw [rhs, Int.toNat_lt' hpos]
  exact Int.emod_lt_of_pos _ (Int.natCast_pos.2 hpos)

namespace Point

/-! ## The root that is found -/

/-- The right-hand side is computed in wrap-around digits, term by term. -/
theorem writes_wrappedRhs (x : Nat) : Wraparound.Writes (wrappedRhs p521 x) (p521.rhs x) := by
  have hx := Wraparound.writes_ofNat x
  have hlinear := (Wraparound.writes_ofNat (p521.prime - 3)).product hx
  have hterms := (((hx.product hx).product hx).sum hlinear).sum (Wraparound.writes_ofNat p521.b)
  exact hterms.congr (rhs_modEq p521 x)

/-- **The root has one residue on every curve**, however it is computed. -/
theorem rootOf_mod (c : Curve) (x : Nat) :
    rootOf c x % c.prime = Residue.sqrt c.prime (c.rhs x) := by
  have hsmall : Residue.sqrt c.prime (c.rhs x) % c.prime = Residue.sqrt c.prime (c.rhs x) := by
    rw [Residue.sqrt, Residue.pow_eq, Nat.mod_mod]
  cases c with
  | p256 => exact hsmall
  | p384 => exact hsmall
  | p521 =>
    have hexponent : (p521.prime + 1) / 4 = 2 ^ 519 := by decide +kernel
    rw [Residue.sqrt, Residue.pow_eq, hexponent]
    exact (writes_wrappedRhs x).sqrt.residue

variable {x : Nat} {root : Root} {p : c.Point}

/-- **A root that is found is one of the two** that the curve has over the first
coordinate of a point. -/
theorem rootOf_mod_eq_or (hprime : c.prime.Prime) (p : c.Point) :
    rootOf c p.x % c.prime = p.y ∨ 0 < p.y ∧ rootOf c p.x % c.prime = c.prime - p.y := by
  obtain ⟨-, hy, hequation⟩ := p.isPoint
  rw [rootOf_mod]
  refine Residue.sqrt_eq_or hprime c.prime_mod_four hy ?_
  rw [hequation, Nat.mod_eq_of_lt (c.rhs_lt p.x)]

/-! ## Shortened forms -/

theorem lift?_eq_some_iff :
    lift? c x root = some p ↔ p.x = x ∧ p.y = root.choose c (rootOf c x) :=
  ofCoordinates?_eq_some_iff

/-- The first octet of a shortened form. -/
def Root.tag : Root → UInt8
  | .even => 0x02
  | .odd => 0x03
  | .smaller => 0x05

/-- **The shortened form of a point** for one of the roots. -/
def shortened (p : c.Point) (root : Root) : Octets :=
  root.tag :: Octets.ofNat c.fieldOctets p.x

/-- A shortened form is read by its root. -/
theorem ofOctets?_tag {body : Octets} (h : body.length = c.fieldOctets) :
    ofOctets? c (root.tag :: body) = lift? c (Octets.value body) root := by
  have htag : root.tag ≠ uncompressedTag := by
    cases root <;> decide
  rw [ofOctets?, if_neg htag, if_pos h]
  cases root <;> rfl

/-- **What is read from a shortened form** has the first coordinate that is written
there. -/
theorem ofOctets?_shortened_eq_some_iff {q : c.Point} :
    ofOctets? c (p.shortened root) = some q
      ↔ q.x = p.x ∧ q.y = root.choose c (rootOf c p.x) := by
  rw [shortened, ofOctets?_tag (Octets.length_ofNat _ _),
    Octets.value_ofNat_of_lt (p.isPoint.1.trans c.prime_lt), lift?_eq_some_iff]

/-- **A point is read from its shortened forms.** It is read from one of the forms for
an even and an odd root and not from the other one, and it is read from the form for
the smaller root exactly if it has that. -/
theorem ofOctets?_shortened (hprime : c.prime.Prime) (p : c.Point) :
    (ofOctets? c (p.shortened .even) = some p ↔ ofOctets? c (p.shortened .odd) ≠ some p)
      ∧ (ofOctets? c (p.shortened .smaller) = some p ↔ p.y ≤ c.prime - p.y) := by
  have hroot := rootOf_mod_eq_or hprime p
  have hfour := c.prime_mod_four
  have hy := p.isPoint.2.1
  simp only [ne_eq, ofOctets?_shortened_eq_some_iff, true_and, Root.choose]
  generalize rootOf c p.x % c.prime = residue at hroot ⊢
  constructor
  · -- the prime is odd, so the two roots are different numbers
    split <;> split <;> omega
  · omega

/-- On the largest curve a point is read from its shortened forms. -/
theorem ofOctets?_shortened_p521 (p : p521.Point) :
    (ofOctets? p521 (p.shortened .even) = some p ↔ ofOctets? p521 (p.shortened .odd) ≠ some p)
      ∧ (ofOctets? p521 (p.shortened .smaller) = some p ↔ p.y ≤ p521.prime - p.y) :=
  ofOctets?_shortened prime_p521 p

end Point

end Curve

end KeyForms
