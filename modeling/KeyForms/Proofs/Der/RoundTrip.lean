import KeyForms.Der.Reader
import KeyForms.Proofs.Octets

/-!
# Written elements are read

An element that can be written is read back in front of any other octets, and
exactly it: the same tag, the same content, and what follows it is left
(`Der.Element.read_append`). The reader takes a length in its shortest form
only, and the writer changes form at 128 and at 256, so this is a statement
about the lengths: the form that is written is always the one that is due
(`Der.isLength_of_lengthOctets`). And there is no other that is read
(`Der.IsLength.exists_of_readLength`).

A row of elements is read by taking one after the other. The reader counts
down from the number of octets, which is more than it ever needs
(`Der.Element.readUpTo_eq_readAll`), so the count plays no part in the
statements about rows.
-/

namespace KeyForms.Der

/-! ## Lengths -/

/-- **Octets are the length of a content** of `n` octets. In the short form the
number is one octet; in the long form an octet counts the digits of the number,
and there are no more of them than it takes. -/
inductive IsLength (n : Nat) : Octets → Prop where
  /-- The short form. -/
  | short {octet : UInt8} (hlt : octet < 0x80) (h : octet.toNat = n) : IsLength n [octet]
  /-- The long form. -/
  | long {count : UInt8} {digits : Octets} (hcount : count.toNat = 0x80 + digits.length)
    (hshortest : isShortest digits = true) (h : digits.value = n) : IsLength n (count :: digits)

/-- **The digits of a number are the shortest** when it has as many of them and
does not fit the short form. -/
theorem isShortest_ofNat {width n : Nat} (hshort : 0x80 ≤ n) (hlow : 256 ^ width ≤ n)
    (hhigh : n < 256 ^ (width + 1)) : isShortest (Octets.ofNat (width + 1) n) = true := by
  -- the first digit is not zero
  have hdigit : 0 < n / 256 ^ width ∧ n / 256 ^ width < 256 :=
    ⟨Nat.div_pos hlow (by simp), Nat.div_lt_of_lt_mul (by rwa [← pow_succ])⟩
  rw [isShortest, Octets.value_ofNat_of_lt hhigh, Octets.head?_ofNat_succ, Bool.and_eq_true,
    decide_eq_true_iff, decide_eq_true_iff, ne_eq, Option.some.injEq, ← UInt8.toNat_inj,
    UInt8.toNat_ofNat']
  refine ⟨hshort, ?_⟩
  show ¬ n / 256 ^ width % 256 = 0
  omega

theorem isLength_cons_ofNat {count : UInt8} {width n : Nat}
    (hcount : count.toNat = 0x80 + (width + 1)) (hshort : 0x80 ≤ n) (hlow : 256 ^ width ≤ n)
    (hhigh : n < 256 ^ (width + 1)) : IsLength n (count :: Octets.ofNat (width + 1) n) :=
  .long (by rw [hcount, Octets.length_ofNat]) (isShortest_ofNat hshort hlow hhigh)
    (Octets.value_ofNat_of_lt hhigh)

/-- **What is written for a number is its length**, whichever of the three forms
it has: the guards of the writer keep each form from losing digits. -/
theorem isLength_of_lengthOctets {n : Nat} {length : Octets} (h : lengthOctets n = .ok length) :
    IsLength n length := by
  have hmax : maxLength = 0xffff := rfl
  unfold lengthOctets at h
  split at h
  · cases h
    have hoctet : (UInt8.ofNat n).toNat = n := by
      rw [UInt8.toNat_ofNat', Nat.mod_eq_of_lt (by omega)]
    refine .short ?_ hoctet
    rw [UInt8.lt_iff_toNat_lt, hoctet]
    show n < 0x80
    omega
  · split at h
    · cases h
      exact isLength_cons_ofNat (by decide) (by omega) (by omega) (by omega)
    · split at h
      · cases h
        exact isLength_cons_ofNat (by decide) (by omega) (by omega) (by omega)
      · contradiction

/-- **A length is read**, if it has no more than four digits. -/
theorem IsLength.readLength_append {n : Nat} {length : Octets} (h : IsLength n length)
    (hle : length.length ≤ 5) (s : Octets) : readLength (length ++ s) = some (n, s) := by
  cases h with
  | short hlt h =>
    subst h
    exact if_pos hlt
  | @long count digits hcount hshortest h =>
    subst h
    have hne : digits ≠ [] := by
      rintro rfl
      cases hshortest
    have hpos := List.length_pos_iff.2 hne
    rw [List.length_cons] at hle
    have hlong : ¬ count < 0x80 := by
      rw [UInt8.lt_iff_toNat_lt, hcount]
      show ¬ 0x80 + digits.length < 0x80
      omega
    have hknown : ¬ (count = 0x80 ∨ 0x84 < count) := by
      rw [← UInt8.toNat_inj, UInt8.lt_iff_toNat_lt, hcount]
      show ¬ (0x80 + digits.length = 0x80 ∨ 0x84 < 0x80 + digits.length)
      omega
    have hwidth : count.toNat - 0x80 = digits.length := by omega
    rw [List.cons_append, readLength, if_neg hlong, if_neg hknown, hwidth,
      Octets.splitAt?_append]
    exact if_pos hshortest

/-- The number of octets that a length is written in. -/
def lengthWidth (n : Nat) : Nat :=
  if n ≤ 0x7f then 1 else if n ≤ 0xff then 2 else 3

theorem lengthWidth_le (n : Nat) : lengthWidth n ≤ 3 := by
  unfold lengthWidth
  split
  · decide
  · split <;> decide

theorem length_of_lengthOctets {n : Nat} {length : Octets} (h : lengthOctets n = .ok length) :
    length.length = lengthWidth n := by
  unfold lengthOctets at h
  split at h
  · rename_i hshort
    cases h
    rw [lengthWidth, if_pos hshort]
    rfl
  · rename_i hshort
    split at h
    · rename_i hbyte
      cases h
      rw [lengthWidth, if_neg hshort, if_pos hbyte]
      rfl
    · rename_i hbyte
      split at h
      · cases h
        rw [lengthWidth, if_neg hshort, if_neg hbyte]
        rfl
      · cases h

/-- **A written length is read**, whichever of the three forms it has. -/
theorem readLength_append {n : Nat} {length : Octets} (h : lengthOctets n = .ok length)
    (s : Octets) : readLength (length ++ s) = some (n, s) := by
  have hwidth := lengthWidth_le n
  rw [← length_of_lengthOctets h] at hwidth
  exact (isLength_of_lengthOctets h).readLength_append (by omega) s

/-- **What is read as a length is one**, in its only form. -/
theorem IsLength.exists_of_readLength {n : Nat} {s rest : Octets}
    (h : readLength s = some (n, rest)) : ∃ length, IsLength n length ∧ s = length ++ rest := by
  cases s with
  | nil => contradiction
  | cons first s =>
    simp only [readLength] at h
    split at h
    · rename_i hlt
      cases h
      exact ⟨_, .short hlt rfl, rfl⟩
    · rename_i hlong
      split at h
      · cases h
      · split at h
        · cases h
        · rename_i digits rest' hsplit
          split at h
          · rename_i hshortest
            cases h
            obtain ⟨hlength, rfl⟩ := Octets.splitAt?_eq_some_iff.1 hsplit
            rw [UInt8.lt_iff_toNat_lt, Nat.not_lt] at hlong
            have hle : 0x80 ≤ first.toNat := hlong
            exact ⟨_, .long (by omega) hshortest rfl, rfl⟩
          · cases h

/-! ## Elements -/

namespace Element

/-- **Octets are the written form of an element**, and its tag is one that is
read. -/
def IsWrittenAs (e : Element) (s : Octets) : Prop :=
  Tag.isKnown e.tag = true ∧ e.encode = .ok s

variable {e : Element} {s : Octets}

/-- What is written for an element. -/
theorem exists_length_of_encode (h : e.encode = .ok s) :
    ∃ length, lengthOctets e.content.length = .ok length ∧ s = e.tag :: (length ++ e.content) := by
  unfold encode at h
  split at h
  · rename_i length hlength
    cases h
    exact ⟨length, hlength, rfl⟩
  · cases h

/-- **Octets are the form of an element**: its tag, the length of its content,
and the content. -/
inductive IsForm (e : Element) : Octets → Prop where
  /-- The three parts. -/
  | mk {length : Octets} (h : IsLength e.content.length length) :
    IsForm e (e.tag :: (length ++ e.content))

/-- **What is written for an element is its form.** -/
theorem isForm_of_encode (h : e.encode = .ok s) : e.IsForm s := by
  obtain ⟨length, hlength, rfl⟩ := exists_length_of_encode h
  exact .mk (isLength_of_lengthOctets hlength)

/-- **An element is written if its content is not too long.** -/
theorem exists_encode (h : e.content.length ≤ maxLength) :
    ∃ s, e.encode = .ok s
      ∧ s.length = 1 + lengthWidth e.content.length + e.content.length := by
  cases hlength : lengthOctets e.content.length with
  | error long =>
    obtain ⟨hlt, -⟩ := lengthOctets_eq_error_iff.1 hlength
    omega
  | ok length =>
    refine ⟨e.tag :: (length ++ e.content), ?_, ?_⟩
    · rw [encode, hlength]
    · rw [List.length_cons, List.length_append, length_of_lengthOctets hlength]
      omega

/-- **An element is written exactly if its content is not too long.** -/
theorem exists_encode_iff : (∃ s, e.encode = .ok s) ↔ e.content.length ≤ maxLength := by
  constructor
  · rintro ⟨s, hs⟩
    by_contra hlong
    rw [encode_eq_error_iff.2 ⟨Nat.lt_of_not_le hlong, rfl⟩] at hs
    cases hs
  · intro h
    obtain ⟨s, hs, -⟩ := exists_encode h
    exact ⟨s, hs⟩

/-- **A written element is read**, whatever follows it. -/
theorem read_append (h : e.IsWrittenAs s) (rest : Octets) :
    Element.read (s ++ rest) = some (e, rest) := by
  obtain ⟨length, hlength, rfl⟩ := exists_length_of_encode h.2
  rw [List.cons_append, List.append_assoc, Element.read, if_pos h.1, readLength_append hlength]
  simp only [Octets.splitAt?_append]

/-- **What is read as an element is its form**, and what follows is left. -/
theorem exists_isForm_of_read {rest : Octets} (h : Element.read s = some (e, rest)) :
    ∃ form, e.IsForm form ∧ s = form ++ rest := by
  cases s with
  | nil => contradiction
  | cons tag s =>
    simp only [Element.read] at h
    split at h
    · split at h
      · cases h
      · rename_i hlength
        split at h
        · cases h
        · rename_i content rest' hsplit
          cases h
          obtain ⟨length, hform, rfl⟩ := IsLength.exists_of_readLength hlength
          obtain ⟨rfl, rfl⟩ := Octets.splitAt?_eq_some_iff.1 hsplit
          exact ⟨_, .mk (e := ⟨tag, content⟩) hform, by simp⟩
    · cases h

/-- **Every element takes at least one octet.** -/
theorem length_lt_of_read {s rest : Octets} (h : Element.read s = some (e, rest)) :
    rest.length < s.length := by
  obtain ⟨form, ⟨-⟩, rfl⟩ := exists_isForm_of_read h
  rw [List.cons_append, List.length_cons, List.length_append]
  omega

/-! ## Rows of elements -/

/-- One more than the number of octets is as good as that number. -/
theorem readUpTo_succ {bound : Nat} (h : s.length ≤ bound) :
    readUpTo (bound + 1) s = readUpTo bound s := by
  induction bound generalizing s with
  | zero =>
    rw [List.length_eq_zero_iff.1 (Nat.le_zero.1 h)]
    rfl
  | succ bound ih =>
    cases s with
    | nil => rfl
    | cons b s =>
      rw [readUpTo, readUpTo]
      split
      · rfl
      · rename_i hread
        have hlt := length_lt_of_read hread
        rw [ih (by omega)]
      all_goals simp

/-- **The count does not matter** as long as there are no more octets than it
says. -/
theorem readUpTo_eq_readAll {bound : Nat} (h : s.length ≤ bound) :
    readUpTo bound s = readAll s := by
  unfold readAll
  induction bound with
  | zero => rw [Nat.le_zero.1 h]
  | succ bound ih =>
    rcases Nat.lt_or_ge bound s.length with hlt | hge
    · rw [show s.length = bound + 1 by omega]
    · rw [readUpTo_succ hge, ih hge]

/-- **The first of a row of elements**, and the others after it. -/
theorem readAll_append (h : e.IsWrittenAs s) (rest : Octets) :
    readAll (s ++ rest) = (readAll rest).map (e :: ·) := by
  obtain ⟨length, -, hs⟩ := exists_length_of_encode h.2
  have hread := read_append h rest
  subst hs
  rw [List.cons_append] at hread ⊢
  show readUpTo ((length ++ e.content ++ rest).length + 1) (e.tag :: (length ++ e.content ++ rest))
    = _
  rw [readUpTo, hread]
  · have hle : rest.length ≤ (length ++ e.content ++ rest).length := by
      rw [List.length_append]
      omega
    simp only [readUpTo_eq_readAll hle]
  · simp

/-- **A row of written elements is read as that row**, with nothing left. -/
theorem readAll_flatten {es : List Element} {parts : List Octets}
    (h : List.Forall₂ IsWrittenAs es parts) : readAll parts.flatten = some es := by
  induction h with
  | nil => rfl
  | cons hhead _ ih => rw [List.flatten_cons, readAll_append hhead, ih, Option.map_some]

/-- An element by itself. -/
theorem readAll_of_isWrittenAs (h : e.IsWrittenAs s) : readAll s = some [e] := by
  rw [← readAll_flatten (.cons h .nil), List.flatten_cons, List.flatten_nil, List.append_nil]

/-- **A row that is read is a row of forms**, one after the other, with nothing
between them. -/
theorem exists_forms_of_readUpTo {bound : Nat} {es : List Element}
    (h : readUpTo bound s = some es) :
    ∃ forms, List.Forall₂ IsForm es forms ∧ s = forms.flatten := by
  induction bound generalizing s es with
  | zero =>
    cases s with
    | nil =>
      cases h
      exact ⟨[], .nil, rfl⟩
    | cons b s => cases h
  | succ bound ih =>
    cases s with
    | nil =>
      cases h
      exact ⟨[], .nil, rfl⟩
    | cons b s =>
      rw [readUpTo] at h
      · split at h
        · cases h
        · rename_i e rest hread
          obtain ⟨es, hes, rfl⟩ := Option.map_eq_some_iff.1 h
          obtain ⟨form, hform, heq⟩ := exists_isForm_of_read hread
          obtain ⟨forms, hforms, rfl⟩ := ih hes
          exact ⟨form :: forms, .cons hform hforms, heq⟩
      · simp

end Element

end KeyForms.Der
