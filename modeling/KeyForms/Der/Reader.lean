import KeyForms.Der.Element

/-!
# Reading DER elements

The reader is strict. A length must be in its shortest form, so each content
has one spelling; the indefinite form and lengths of more than four octets
are refused; and a tag must be one octet of a kind that is in use.

`Element.read` takes one element from the front and leaves what follows it.
`Element.readAll` takes an octet string apart into elements until nothing is
left, which is how the content of a sequence is read.
-/

namespace KeyForms.Der

/-- **The tags the reader knows**: the universal types with an identifier
octet of their own, and the one-octet tags of the other three classes. -/
def Tag.isKnown (tag : Tag) : Bool :=
  if tag < 0x40 then
    [0x01, 0x02, 0x03, 0x04, 0x05, 0x06, 0x09, 0x0a, 0x0c, 0x12, 0x13, 0x14, 0x15, 0x16, 0x17,
      0x18, 0x1a, 0x1e, 0x30, 0x31].contains tag
  else tag.toNat % 32 ≠ 31

/-- Whether the digits of a length of its own octets are the shortest ones:
below 128 the short form is due, and a leading zero is never due. -/
def isShortest (digits : Octets) : Bool :=
  0x80 ≤ digits.value && digits.head? ≠ some 0

/-- A length at the front of an octet string, and what follows it. -/
def readLength : Octets → Option (Nat × Octets)
  | [] => none
  | first :: s =>
    if first < 0x80 then some (first.toNat, s)
    else if first = 0x80 ∨ 0x84 < first then none
    else
      match Octets.splitAt? (first.toNat - 0x80) s with
      | none => none
      | some (digits, rest) => if isShortest digits then some (digits.value, rest) else none

/-- **One element at the front** of an octet string, and what follows it. -/
def Element.read : Octets → Option (Element × Octets)
  | [] => none
  | tag :: s =>
    if Tag.isKnown tag then
      match readLength s with
      | none => none
      | some (length, s) =>
        match Octets.splitAt? length s with
        | none => none
        | some (content, rest) => some (⟨tag, content⟩, rest)
    else none

/-- The elements of an octet string, at most `bound` of them. -/
def Element.readUpTo : Nat → Octets → Option (List Element)
  | _, [] => some []
  | 0, _ :: _ => none
  | bound + 1, s =>
    match Element.read s with
    | none => none
    | some (e, rest) => (Element.readUpTo bound rest).map (e :: ·)

/-- **The elements of an octet string**, with nothing left over. There are no
more of them than octets. -/
def Element.readAll (s : Octets) : Option (List Element) :=
  Element.readUpTo s.length s

end KeyForms.Der
