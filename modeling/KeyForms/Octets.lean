/-!
# Octet strings

Every format of a public key is an octet string, and most of what a key
says is a number written in one: coordinates, moduli, lengths. This module
fixes the representation – a list of octets, the first octet first – and the
three readings the formats share.

`Octets.value` is the unsigned big-endian number an octet string writes.
`Octets.ofNat` writes a number at a given width, and `Octets.fixedWidth`
brings an octet string to a given width by dropping or adding octets at its
most significant end. `Octets.splitAt?` is how every reader takes a field of
a stated length: it answers exactly when the octets are there
(`splitAt?_eq_some_iff`).
-/

namespace KeyForms

/-- An octet string, first octet first. -/
abbrev Octets := List UInt8

namespace Octets

/-- **The unsigned big-endian value** of an octet string. The empty string
is zero. -/
def value (s : Octets) : Nat :=
  s.foldl (fun n b => 256 * n + b.toNat) 0

/-- The last `width` base-256 digits of `n`, the most significant first. -/
def ofNat : Nat → Nat → Octets
  | 0, _ => []
  | width + 1, n => ofNat width (n / 256) ++ [UInt8.ofNat n]

/-- **An octet string at a fixed width**: zeros are put in front of a short
one, and a long one keeps its last `width` octets. -/
def fixedWidth (width : Nat) (s : Octets) : Octets :=
  List.replicate (width - s.length) 0 ++ s.drop (s.length - width)

/-- The first `n` octets and what follows them, when there are that many. -/
def splitAt? (n : Nat) (s : Octets) : Option (Octets × Octets) :=
  if (s.take n).length = n then some (s.take n, s.drop n) else none

/-! ## Widths -/

@[simp] theorem length_ofNat (width n : Nat) : (ofNat width n).length = width := by
  induction width generalizing n with
  | zero => rfl
  | succ width ih => simp [ofNat, ih]

@[simp] theorem length_fixedWidth (width : Nat) (s : Octets) :
    (fixedWidth width s).length = width := by
  simp only [fixedWidth, List.length_append, List.length_replicate, List.length_drop]
  omega

/-- An octet string of the right width is left as it is. -/
theorem fixedWidth_of_length {width : Nat} {s : Octets} (h : s.length = width) :
    fixedWidth width s = s := by
  simp [fixedWidth, h]

/-! ## Values -/

@[simp] theorem value_nil : value [] = 0 := rfl

/-- One more octet on the right multiplies by 256 and adds. -/
theorem value_concat (s : Octets) (b : UInt8) :
    value (s ++ [b]) = 256 * value s + b.toNat := by
  simp [value, List.foldl_append]

/-- A zero in front changes no value. -/
@[simp] theorem value_zero_cons (s : Octets) : value (0 :: s) = value s := rfl

/-! ## Fields of a stated length -/

/-- **A field is read exactly when it is there.** -/
theorem splitAt?_eq_some_iff {n : Nat} {s front rest : Octets} :
    splitAt? n s = some (front, rest) ↔ front.length = n ∧ s = front ++ rest := by
  unfold splitAt?
  constructor
  · intro h
    split at h
    · rename_i hn
      cases h
      exact ⟨hn, (List.take_append_drop n s).symm⟩
    · contradiction
  · rintro ⟨rfl, rfl⟩
    simp

@[simp] theorem splitAt?_append (front rest : Octets) :
    splitAt? front.length (front ++ rest) = some (front, rest) :=
  splitAt?_eq_some_iff.2 ⟨rfl, rfl⟩

end Octets

end KeyForms
