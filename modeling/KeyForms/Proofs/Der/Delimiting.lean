import Mathlib.Data.List.Forall2
import KeyForms.Proofs.Der.RoundTrip

/-!
# Elements delimit themselves

A written element says where it ends, so it can be read in front of anything, and
a row of elements is its parts and not only their octets put together. What it
takes is that the length is written in a way that the reader accepts, and of
these there is one for each number (`Der.IsLength.unique`).

That one is also the shortest. A number could be written with zeros in front, or
in the long form where the short form will do (`Der.IsDefiniteLength`); each of
these takes more octets (`Der.IsLength.eq_or_length_lt`). The writers never
choose one of them, not even next to the numbers where the form changes.

The three kinds of element differ in their tags and in the octet in front of a
bit string, so there is one statement about all of them
(`Der.Element.isOutcome_encode`).
-/

namespace KeyForms

/-- Octets that do not begin with a zero write a number that takes all of them. -/
theorem Octets.pow_le_value_cons {b : UInt8} (h : b ≠ 0) (s : Octets) :
    256 ^ s.length ≤ value (b :: s) := by
  have hpos : 1 ≤ b.toNat := Nat.one_le_iff_ne_zero.2 fun hzero => h (UInt8.toNat_inj.1 hzero)
  calc 256 ^ s.length
    _ = 1 * 256 ^ s.length := (Nat.one_mul _).symm
    _ ≤ b.toNat * 256 ^ s.length := Nat.mul_le_mul_right _ hpos
    _ ≤ b.toNat * 256 ^ s.length + value s := Nat.le_add_right _ _
    _ = value (b :: s) := (value_cons b s).symm

namespace Der

/-! ## The least length -/

/-- **Octets are a definite length of a content** of `n` octets, of any form: the
short form, or the long form with any number of digits, be they needed or not. -/
inductive IsDefiniteLength (n : Nat) : Octets → Prop where
  /-- The short form. -/
  | short {octet : UInt8} (hlt : octet < 0x80) (h : octet.toNat = n) : IsDefiniteLength n [octet]
  /-- The long form. -/
  | long {count : UInt8} {digits : Octets} (hne : digits ≠ [])
    (hcount : count.toNat = 0x80 + digits.length) (h : digits.value = n) :
    IsDefiniteLength n (count :: digits)

theorem isShortest_iff {digits : Octets} :
    isShortest digits = true ↔ 0x80 ≤ digits.value ∧ digits.head? ≠ some 0 := by
  rw [isShortest, Bool.and_eq_true, decide_eq_true_iff, decide_eq_true_iff]

/-- **The shortest digits are no more than any others** of the same number. -/
theorem length_le_of_isShortest {digits other : Octets} (h : isShortest digits = true)
    (hvalue : other.value = digits.value) : digits.length ≤ other.length := by
  obtain ⟨-, hhead⟩ := isShortest_iff.1 h
  cases digits with
  | nil => exact Nat.zero_le _
  | cons b s =>
    have hb : b ≠ 0 := by
      rintro rfl
      exact hhead rfl
    have hlow := Octets.pow_le_value_cons hb s
    have hhigh := Octets.value_lt other
    rw [hvalue] at hhigh
    exact (Nat.pow_lt_pow_iff_right (by decide)).1 (hlow.trans_lt hhigh)

namespace IsLength

variable {n : Nat} {length other : Octets}

theorem isDefiniteLength (h : IsLength n length) : IsDefiniteLength n length := by
  cases h with
  | short hlt h => exact .short hlt h
  | long hcount hshortest h =>
    refine .long ?_ hcount h
    rintro rfl
    cases hshortest

/-- **Every other definite length is longer.** -/
theorem eq_or_length_lt (h : IsLength n length) (hother : IsDefiniteLength n other) :
    other = length ∨ length.length < other.length := by
  cases h with
  | short hlt h =>
    cases hother with
    | short hlt' h' => exact Or.inl (congrArg (fun b => [b]) (UInt8.toNat_inj.1 (h'.trans h.symm)))
    | long hne hcount' h' =>
      right
      exact Nat.succ_lt_succ (List.length_pos_iff.2 hne)
  | @long count digits hcount hshortest h =>
    cases hother with
    | short hlt' h' =>
      -- such a number has no short form
      have hle := (isShortest_iff.1 hshortest).1
      rw [h, ← h'] at hle
      exact absurd hle (Nat.not_le.2 hlt')
    | @long count' digits' hne hcount' h' =>
      have hle := length_le_of_isShortest hshortest (h'.trans h.symm)
      rcases hle.eq_or_lt with heq | hlt
      · left
        have hdigits : digits' = digits := by
          rw [← Octets.ofNat_value digits', ← Octets.ofNat_value digits, h', h, heq]
        have hcounts : count' = count := by
          rw [← UInt8.toNat_inj, hcount, hcount', heq]
        rw [hdigits, hcounts]
      · exact Or.inr (Nat.succ_lt_succ hlt)

/-- **A number has one length** that is read. -/
theorem unique (h : IsLength n length) (hother : IsLength n other) : other = length := by
  rcases h.eq_or_length_lt hother.isDefiniteLength with heq | hlt
  · exact heq
  · rcases hother.eq_or_length_lt h.isDefiniteLength with heq | hgt
    · exact heq.symm
    · exact absurd hgt hlt.asymm

end IsLength

/-- **The least length of a content** of `n` octets: it is the only one that is
read, and any other definite length takes more octets. -/
structure IsLeastLength (n : Nat) (length : Octets) : Prop where
  /-- It is a length that is read. -/
  isLength : IsLength n length
  /-- There is no other that is read. -/
  unique : ∀ other, IsLength n other → other = length
  /-- There is no other that is as short. -/
  least : ∀ other, IsDefiniteLength n other → other ≠ length → length.length < other.length

theorem IsLength.isLeastLength {n : Nat} {length : Octets} (h : IsLength n length) :
    IsLeastLength n length where
  isLength := h
  unique _ hother := h.unique hother
  least _ hother hne := (h.eq_or_length_lt hother).resolve_left hne

/-! ## Writing an element -/

namespace Element

/-- **The outcome of writing an element.** Writing fails exactly if the content has
more than 65535 octets, and the error has their number. What is written is the tag,
the least length and the content, and in front of anything it is read as the
element. -/
structure IsOutcome (e : Element) (outcome : Except TooLong Octets) : Prop where
  /-- The content is too long, and there is no other reason to fail. -/
  error_iff : ∀ long, outcome = .error long ↔ 65535 < e.content.length ∧ long = ⟨e.content.length⟩
  /-- What is written has three parts. -/
  form : ∀ s, outcome = .ok s →
    ∃ length, IsLeastLength e.content.length length ∧ s = e.tag :: (length ++ e.content)
  /-- The element is read, and what follows it is left. -/
  read : ∀ s rest, outcome = .ok s → Element.read (s ++ rest) = some (e, rest)

theorem isOutcome_encode {e : Element} (h : Tag.isKnown e.tag = true) : e.IsOutcome e.encode where
  error_iff _ := encode_eq_error_iff
  form s hs := by
    obtain ⟨hlength⟩ := isForm_of_encode hs
    exact ⟨_, hlength.isLeastLength, rfl⟩
  read s rest hs := read_append ⟨h, hs⟩ rest

end Element

/-! ## Rows of elements -/

/-- **Octets that one of the writers has written.** -/
inductive IsWritten : Octets → Prop where
  /-- An object identifier. -/
  | objectIdentifier {content s : Octets} (h : objectIdentifier content = .ok s) : IsWritten s
  /-- A bit string. -/
  | bitString {content s : Octets} (h : bitString content = .ok s) : IsWritten s
  /-- A sequence, of any octets. -/
  | sequence {parts : List Octets} {s : Octets} (h : sequence parts = .ok s) : IsWritten s

theorem IsWritten.exists_isWrittenAs {s : Octets} (h : IsWritten s) :
    ∃ e : Element, e.IsWrittenAs s := by
  cases h with
  | objectIdentifier h => exact ⟨_, rfl, h⟩
  | bitString h => exact ⟨_, rfl, h⟩
  | sequence h => exact ⟨_, rfl, h⟩

theorem exists_forall₂_isWrittenAs {parts : List Octets} (h : ∀ part ∈ parts, IsWritten part) :
    ∃ es, List.Forall₂ Element.IsWrittenAs es parts := by
  induction parts with
  | nil => exact ⟨[], .nil⟩
  | cons part parts ih =>
    obtain ⟨hpart, hparts⟩ := List.forall_mem_cons.1 h
    obtain ⟨e, he⟩ := hpart.exists_isWrittenAs
    obtain ⟨es, hes⟩ := ih hparts
    exact ⟨e :: es, .cons he hes⟩

/-- **Elements delimit themselves.** The reader is strict: what it reads is the form of
the element, with nothing left out. An object identifier, a bit string and a
sequence are written unless the content is too long, the octet for the unused bits
and all parts of a sequence included, and are read back in front of anything, with
the tag and the content that they were written from. The length is the least one.
If the parts of a sequence are themselves written by these writers, then reading
one element after the other until nothing is left gives these parts, in their
order. -/
theorem writers_delimit :
    (∀ s e rest, Element.read s = some (e, rest) → ∃ form, e.IsForm form ∧ s = form ++ rest)
      ∧ (∀ content, (Element.mk 0x06 content).IsOutcome (objectIdentifier content))
      ∧ (∀ content, (Element.mk 0x03 (0 :: content)).IsOutcome (bitString content))
      ∧ (∀ parts, (Element.mk 0x30 parts.flatten).IsOutcome (sequence parts)
        ∧ parts.flatten.length = (parts.map List.length).sum)
      ∧ ∀ parts, (∀ part ∈ parts, IsWritten part) →
        ∃ es, Element.readAll parts.flatten = some es
          ∧ List.Forall₂ Element.IsWrittenAs es parts := by
  refine ⟨?strict, ?objectIdentifier, ?bitString, ?sequence, ?row⟩
  case strict => exact fun s e rest => Element.exists_isForm_of_read
  case objectIdentifier => exact fun content => Element.isOutcome_encode rfl
  case bitString => exact fun content => Element.isOutcome_encode rfl
  case sequence => exact fun parts => ⟨Element.isOutcome_encode rfl, List.length_flatten⟩
  case row =>
    intro parts h
    obtain ⟨es, hes⟩ := exists_forall₂_isWrittenAs h
    exact ⟨es, Element.readAll_flatten hes, hes⟩

/-- A bit string of 127 octets, which has the long form because of the octet for
the unused bits, read in front of an octet that looks like its own tag, and in a
sequence with an object identifier and an empty sequence. An object identifier of
65535 octets, which is the longest one, and a sequence that is too long although
its parts are not. -/
theorem writers_delimit_edges :
    (∃ key row, bitString (List.replicate 127 0xff) = .ok key ∧ key.take 3 = [0x03, 0x81, 0x80]
        ∧ Element.read (key ++ [0x03]) = some (⟨0x03, 0 :: List.replicate 127 0xff⟩, [0x03])
        ∧ sequence [[0x06, 0x01, 0x2b], key, [0x30, 0x00]] = .ok row
        ∧ ∃ es, Element.readAll [[0x06, 0x01, 0x2b], key, [0x30, 0x00]].flatten = some es
          ∧ List.Forall₂ Element.IsWrittenAs es [[0x06, 0x01, 0x2b], key, [0x30, 0x00]])
      ∧ (∃ s length, objectIdentifier (List.replicate 65535 0) = .ok s
        ∧ IsLeastLength 65535 length ∧ s = 0x06 :: (length ++ List.replicate 65535 0))
      ∧ bitString (List.replicate 65535 0) = .error ⟨65536⟩
      ∧ sequence [List.replicate 65535 0, [0]] = .error ⟨65536⟩ := by
  obtain ⟨-, hidentifier, hbits, hsequence, hrow⟩ := writers_delimit
  have hlength (n : Nat) : (List.replicate n (0 : UInt8)).length = n := List.length_replicate
  refine ⟨?row, ?longest, ?bitString, ?sequence⟩
  case row =>
    have hkey : bitString (List.replicate 127 0xff)
        = .ok (0x03 :: 0x81 :: 0x80 :: 0x00 :: List.replicate 127 0xff) := by
      decide +kernel
    have hparts : sequence [[0x06, 0x01, 0x2b],
        0x03 :: 0x81 :: 0x80 :: 0x00 :: List.replicate 127 0xff, [0x30, 0x00]]
        = .ok (0x30 :: 0x81 :: 0x88 :: [[0x06, 0x01, 0x2b],
          0x03 :: 0x81 :: 0x80 :: 0x00 :: List.replicate 127 0xff, [0x30, 0x00]].flatten) := by
      decide +kernel
    refine ⟨_, _, hkey, rfl, (hbits _).read _ _ hkey, hparts, hrow _ fun part hpart => ?_⟩
    have hfirst : objectIdentifier [0x2b] = .ok [0x06, 0x01, 0x2b] := rfl
    have hlast : sequence [] = .ok [0x30, 0x00] := rfl
    simp only [List.mem_cons, List.not_mem_nil, or_false] at hpart
    obtain rfl | rfl | rfl := hpart
    · exact .objectIdentifier hfirst
    · exact .bitString hkey
    · exact .sequence hlast
  case longest =>
    cases hs : objectIdentifier (List.replicate 65535 0) with
    | error long =>
      obtain ⟨hlong, -⟩ := ((hidentifier _).error_iff long).1 hs
      rw [hlength] at hlong
      omega
    | ok s =>
      obtain ⟨length, hleast, heq⟩ := (hidentifier _).form s hs
      rw [hlength] at hleast
      exact ⟨s, length, rfl, hleast, heq⟩
  case bitString =>
    refine ((hbits _).error_iff _).2 ?_
    rw [List.length_cons, hlength]
    exact ⟨by decide, rfl⟩
  case sequence =>
    obtain ⟨houtcome, hsum⟩ := hsequence [List.replicate 65535 0, [0]]
    refine (houtcome.error_iff _).2 ?_
    show 65535 < [List.replicate 65535 0, [0]].flatten.length
      ∧ TooLong.mk 65536 = ⟨[List.replicate 65535 0, [0]].flatten.length⟩
    rw [hsum, List.map_cons, hlength]
    exact ⟨by decide, rfl⟩

end Der

end KeyForms
