import KeyForms.Octets

/-!
# Writing DER elements

A DER element is a tag, a length and a content. Lengths are written in the
shortest of three forms: one octet up to 127, `0x81` and one octet up to 255,
`0x82` and two octets up to 65535. A longer content has no form here, and
asking for it is the one way in which writing fails (`Der.TooLong`).

Three kinds of element are written: an object identifier from its content, a
bit string of whole octets, and a sequence of elements written before.
-/

namespace KeyForms.Der

/-- The identifier octets of the elements that describe a public key. -/
abbrev Tag := UInt8

namespace Tag

/-- BIT STRING. -/
def bitString : Tag := 0x03

/-- OBJECT IDENTIFIER. -/
def objectIdentifier : Tag := 0x06

/-- SEQUENCE, which is always constructed. -/
def sequence : Tag := 0x30

end Tag

/-- A content of `length` octets has no two-octet length. -/
structure TooLong where
  /-- The length that was asked for. -/
  length : Nat
deriving DecidableEq

/-- The longest content that is written. -/
def maxLength : Nat := 0xffff

/-- **The length octets of a content of `n` octets**, in the shortest form. -/
def lengthOctets (n : Nat) : Except TooLong Octets :=
  if n ≤ 0x7f then .ok (Octets.ofNat 1 n)
  else if n ≤ 0xff then .ok (0x81 :: Octets.ofNat 1 n)
  else if n ≤ maxLength then .ok (0x82 :: Octets.ofNat 2 n)
  else .error ⟨n⟩

/-- A tag and a content. -/
structure Element where
  /-- The identifier octet. -/
  tag : Tag
  /-- The content octets. -/
  content : Octets
deriving DecidableEq

/-- The octets of an element: tag, length, content. -/
def Element.encode (e : Element) : Except TooLong Octets :=
  match lengthOctets e.content.length with
  | .ok length => .ok (e.tag :: (length ++ e.content))
  | .error long => .error long

/-- An object identifier, from its content octets. -/
def objectIdentifier (content : Octets) : Except TooLong Octets :=
  Element.encode ⟨Tag.objectIdentifier, content⟩

/-- A bit string of whole octets: the octet that counts the unused bits of
the last octet is zero. -/
def bitString (content : Octets) : Except TooLong Octets :=
  Element.encode ⟨Tag.bitString, 0 :: content⟩

/-- A sequence of elements that are already written, in the order given. -/
def sequence (parts : List Octets) : Except TooLong Octets :=
  Element.encode ⟨Tag.sequence, parts.flatten⟩

/-! ## When writing fails -/

/-- A length is refused exactly above 65535, and the refusal names it. -/
theorem lengthOctets_eq_error_iff {n : Nat} {long : TooLong} :
    lengthOctets n = .error long ↔ maxLength < n ∧ long = ⟨n⟩ := by
  have hmax : maxLength = 0xffff := rfl
  unfold lengthOctets
  split
  · simp; omega
  · split
    · simp; omega
    · split
      · simp; omega
      · rw [Except.error.injEq, eq_comm]
        exact ⟨fun h => ⟨by omega, h⟩, fun h => h.2⟩

/-- An element is refused exactly when its content is too long. -/
theorem Element.encode_eq_error_iff {e : Element} {long : TooLong} :
    e.encode = .error long ↔ maxLength < e.content.length ∧ long = ⟨e.content.length⟩ := by
  rw [← lengthOctets_eq_error_iff]
  unfold Element.encode
  split <;> simp_all

end KeyForms.Der
