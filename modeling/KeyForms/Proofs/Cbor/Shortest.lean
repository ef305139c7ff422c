import KeyForms.Proofs.Cbor.RoundTrip

/-!
# Shortest heads

Most arguments can be written in several widths, and a reader takes them all.
`Cbor.Head.IsShortest` says of octets that they are the shortest way to write
a head, by comparison with every other octet string that is read as that head
and without a word on how heads are written. There is one such octet string
for each head, and it is the one that the writer puts down
(`Cbor.Head.isShortest_iff`).

Shortest heads also have an order, as octet strings. It is that of the major
types, and within one major type that of the arguments
(`Cbor.encodeHead_lt_of_major_lt`, `Cbor.encodeHead_lt_of_lt`). This is not
plain from the widths: an argument that needs more digits could still come
first if its initial octet did not tell. It does, because the further
information that stands for more digits is the larger number.
-/

namespace KeyForms.Cbor

variable {info n m : Nat} {head : Head} {s : Octets}

/-! ## Shortest heads -/

/-- **Octets are a shortest head**: they are read as the head with nothing
left over, and no fewer octets are. -/
def Head.IsShortest (head : Head) (s : Octets) : Prop :=
  Head.read s = .ok (head, []) ∧ ∀ t, Head.read t = .ok (head, []) → s.length ≤ t.length

/-- The major type of a head. -/
def Head.major : Head → Nat
  | unsigned _ => 0
  | negative _ => 1
  | string .octets _ => 2
  | string .text _ => 3
  | array _ => 4
  | map _ => 5
  | tag _ => 6
  | simple _ | float _ | stop => 7

/-- The argument of a head, or `none` for an indefinite length and for a
stop. -/
def Head.argument : Head → Option Nat
  | unsigned n | negative n | tag n | simple n | float n => some n
  | string _ length | array length | map length => length
  | stop => none

/-- **A head tells its major type and its argument**, though not always the
further information. -/
theorem Head.major_argument_of_ofParts? {major : Nat} {argument : Option Nat}
    (h : ofParts? major info argument = some head) :
    head.major = major ∧ head.argument = argument := by
  unfold ofParts? at h
  split at h
  -- simple values and numbers share a major type
  case h_8 n =>
    rw [Option.some.injEq] at h
    split at h
    · cases h
      exact ⟨rfl, rfl⟩
    · cases h
      exact ⟨rfl, rfl⟩
  case h_10 => cases h
  all_goals
    cases h
    exact ⟨rfl, rfl⟩

/-- **What is read as a head** is an initial octet with the major type, and the
argument after it. -/
theorem Head.exists_of_read {rest : Octets} (h : Head.read s = .ok (head, rest)) :
    ∃ info t, s = initialOctet head.major info :: t
      ∧ readArgument info t = .ok (head.argument, rest) := by
  cases s with
  | nil => cases h
  | cons initial s =>
    simp only [Head.read] at h
    split at h
    · cases h
    · rename_i argument rest hargument
      split at h
      · rename_i head' hparts
        cases h
        obtain ⟨hmajor, rfl⟩ := major_argument_of_ofParts? hparts
        refine ⟨initial.toNat % 32, s, ?_, hargument⟩
        rw [initialOctet, hmajor, Nat.div_add_mod, UInt8.ofNat_toNat]
      · cases h

/-- **What is read as a head with an argument** is a spelling of it. -/
theorem Head.exists_spelling_of_read {rest : Octets} (h : Head.read s = .ok (head, rest))
    (hn : head.argument = some n) : ∃ t, HeadSpelling head.major n t ∧ s = t ++ rest := by
  obtain ⟨info, t, rfl, hargument⟩ := exists_of_read h
  rw [hn] at hargument
  obtain ⟨hroom, rfl⟩ := readArgument_eq_ok_iff.1 hargument
  exact ⟨_, .mk hroom, rfl⟩

section Shortest

variable (major n : Nat) (hhead : ∀ info, Head.ofParts? major info (some n) = some head)
include hhead

/-- **The written head is the shortest**, and no other is as short. -/
theorem Head.isShortest_iff (hmajor : major < 8) :
    head.IsShortest s ↔ n < argumentBound ∧ s = encodeHead major n := by
  obtain ⟨rfl, hn⟩ := major_argument_of_ofParts? (hhead 0)
  constructor
  · rintro ⟨hread, hleast⟩
    obtain ⟨t, ⟨hroom⟩, hs⟩ := exists_spelling_of_read hread hn
    rw [List.append_nil] at hs
    subst hs
    have hbound := hroom.lt_argumentBound
    have hwritten := read_encodeHead hmajor hbound hhead []
    rw [List.append_nil] at hwritten
    have hle := hleast _ hwritten
    rw [length_encodeHead, List.length_cons, Octets.length_ofNat] at hle
    rcases hroom.eq_or_lt with rfl | hlt
    · exact ⟨hbound, (encodeHead_eq head.major n).symm⟩
    · omega
  · rintro ⟨hbound, rfl⟩
    have hwritten := read_encodeHead hmajor hbound hhead []
    rw [List.append_nil] at hwritten
    refine ⟨hwritten, fun t ht => ?_⟩
    obtain ⟨_, ⟨hroom⟩, rfl⟩ := exists_spelling_of_read ht hn
    rw [length_encodeHead, List.append_nil, List.length_cons, Octets.length_ofNat]
    rcases hroom.eq_or_lt with heq | hlt
    · rw [heq]
    · omega

end Shortest

/-! ## Shortest items -/

/-- **Octets are a shortest integer**: a shortest head of either sign. -/
inductive IsShortestInteger : Int → Octets → Prop where
  /-- The integer is not negative. -/
  | unsigned {n : Nat} {s : Octets} (h : (Head.unsigned n).IsShortest s) : IsShortestInteger n s
  /-- The integer is negative. -/
  | negative {n : Nat} {s : Octets} (h : (Head.negative n).IsShortest s) :
    IsShortestInteger (-1 - n) s

/-- **Octets are a shortest byte string**: a shortest head with its length,
and the octets of the string. -/
inductive IsShortestOctets (content : Octets) : Octets → Prop where
  /-- A head in front of the content. -/
  | mk {head : Octets} (h : (Head.string .octets (some content.length)).IsShortest head) :
    IsShortestOctets content (head ++ content)

theorem isShortestInteger_iff {n : Int} :
    IsShortestInteger n s
      ↔ (-argumentBound ≤ n ∧ n < argumentBound) ∧ s = encodeInteger n := by
  constructor
  · intro h
    cases h with
    | @unsigned n _ h =>
      obtain ⟨hbound, rfl⟩ := (Head.isShortest_iff 0 n (fun _ => rfl) (by decide)).1 h
      refine ⟨by omega, ?_⟩
      rw [encodeInteger, if_pos (Int.natCast_nonneg n), Int.toNat_natCast]
    | @negative n _ h =>
      obtain ⟨hbound, rfl⟩ := (Head.isShortest_iff 1 n (fun _ => rfl) (by decide)).1 h
      refine ⟨by omega, ?_⟩
      rw [encodeInteger, if_neg (by omega), Int.sub_sub_self, Int.toNat_natCast]
  · rintro ⟨hbound, rfl⟩
    unfold encodeInteger
    split
    · have h : (Head.unsigned n.toNat).IsShortest (encodeHead 0 n.toNat) :=
        (Head.isShortest_iff 0 _ (fun _ => rfl) (by decide)).2 ⟨by omega, rfl⟩
      have hn : (n.toNat : Int) = n := Int.toNat_of_nonneg (by assumption)
      simpa only [hn] using IsShortestInteger.unsigned h
    · have h : (Head.negative (-1 - n).toNat).IsShortest (encodeHead 1 (-1 - n).toNat) :=
        (Head.isShortest_iff 1 _ (fun _ => rfl) (by decide)).2 ⟨by omega, rfl⟩
      have hn : -1 - ((-1 - n).toNat : Int) = n := by omega
      simpa only [hn] using IsShortestInteger.negative h

theorem isShortestOctets_iff {content : Octets} :
    IsShortestOctets content s ↔ content.length < argumentBound ∧ s = encodeOctets content := by
  constructor
  · rintro ⟨h⟩
    obtain ⟨hbound, rfl⟩ := (Head.isShortest_iff 2 _ (fun _ => rfl) (by decide)).1 h
    exact ⟨hbound, rfl⟩
  · rintro ⟨hbound, rfl⟩
    exact .mk ((Head.isShortest_iff 2 _ (fun _ => rfl) (by decide)).2 ⟨hbound, rfl⟩)

/-! ## The order of shortest heads -/

/-- **The heads of one major type** are in the order of their arguments. More
digits make a larger initial octet, and for as many digits the order is that
of the numbers. -/
theorem encodeHead_lt_of_lt {major : Nat} (hmajor : major < 8) (hm : m < argumentBound)
    (h : n < m) : encodeHead major n < encodeHead major m := by
  have hroomn := hasRoom_shortestInfo (h.trans hm)
  have hroomm := hasRoom_shortestInfo hm
  have hinfon := hroomn.info_lt
  have hinfom := hroomm.info_lt
  rw [encodeHead_eq, encodeHead_eq, List.cons_lt_cons_iff, UInt8.lt_iff_toNat_lt,
    toNat_initialOctet hmajor (by omega), toNat_initialOctet hmajor (by omega)]
  rcases Nat.lt_or_eq_of_le (shortestInfo_mono h.le) with hlt | heq
  · left
    omega
  · right
    rw [heq] at hroomn ⊢
    refine ⟨rfl, ?_⟩
    rcases Nat.lt_or_ge (shortestInfo m) 24 with hlt | hge
    · -- without digits the two arguments would be the same
      rw [hasRoom_iff_of_lt hlt] at hroomn hroomm
      omega
    · rw [hasRoom_iff_of_le hge] at hroomn hroomm
      rw [digitCount, if_neg (by omega), Octets.lt_iff_value_lt (by simp),
        Octets.value_ofNat_of_lt hroomn.2, Octets.value_ofNat_of_lt hroomm.2]
      exact h

/-- **The heads of a smaller major type come first**, whatever their
arguments. -/
theorem encodeHead_lt_of_major_lt {major major' : Nat} (hmajor' : major' < 8)
    (hn : n < argumentBound) (hm : m < argumentBound) (h : major < major') :
    encodeHead major n < encodeHead major' m := by
  have hinfon := (hasRoom_shortestInfo hn).info_lt
  have hinfom := (hasRoom_shortestInfo hm).info_lt
  rw [encodeHead_eq, encodeHead_eq, List.cons_lt_cons_iff, UInt8.lt_iff_toNat_lt,
    toNat_initialOctet (h.trans hmajor') (by omega), toNat_initialOctet hmajor' (by omega)]
  left
  omega

end KeyForms.Cbor
