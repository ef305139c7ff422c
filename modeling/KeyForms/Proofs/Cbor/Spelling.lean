import Mathlib.Data.List.Forall2
import KeyForms.Cbor.Item
import KeyForms.Proofs.Cbor.Argument

/-!
# Spellings of items

An item is written in one way and can be read in many. A head may have more
digits than it needs; an integer may be the value of a byte string behind a
tag; and a byte string may come in chunks, which may come in chunks
themselves. This module says what the spellings of heads, integers and byte
strings are, as octets and without a word on how they are read, and shows that
all of them are read alike.

The statements are about a spelling in front of any other octets, like those
about written items. Only the chunks of a byte string need more: the reader
does not follow their nesting but counts the ends that are still to come. It
gets through a row of chunks in as many steps as these have heads and ends,
whatever that count is, and then goes on as if nothing had been there
(`Cbor.ChunksSpelling.exists_readChunks_eq`).
-/

namespace KeyForms.Cbor

/-- At any depth an item is read with or without a reader of items. -/
theorem exists_readItem_eq (depth : Nat) : ∃ inner, readItem depth = readItemWith inner := by
  cases depth with
  | zero => exact ⟨none, rfl⟩
  | succ depth => exact ⟨some (readItem depth), rfl⟩

/-- The outermost item may be a container, and those in it may be nested once
less. -/
theorem read_eq : read = readItemWith (some (readItem 255)) := rfl

/-! ## Heads -/

/-- A head is read from its initial octet and its argument. -/
theorem Head.read_initialOctet_cons {major info : Nat} (hmajor : major < 8) (hinfo : info < 32)
    {s rest : Octets} {argument : Option Nat} {head : Head}
    (hargument : readArgument info s = .ok (argument, rest))
    (hhead : Head.ofParts? major info argument = some head) :
    Head.read (initialOctet major info :: s) = .ok (head, rest) := by
  have hdiv : (32 * major + info) / 32 = major := by omega
  have hmod : (32 * major + info) % 32 = info := by omega
  simp only [Head.read, toNat_initialOctet hmajor hinfo, hdiv, hmod, hargument, hhead]

/-- **The spellings of a head** with a major type and an argument: an initial
octet whose further information has room for the argument, and the digits of
the argument. -/
inductive HeadSpelling (major n : Nat) : Octets → Prop where
  /-- A head of any width. -/
  | mk {info : Nat} (h : HasRoom n info) :
    HeadSpelling major n (initialOctet major info :: Octets.ofNat (digitCount info) n)

namespace HeadSpelling

variable {major n : Nat} {s : Octets}

theorem read_append (h : HeadSpelling major n s) (hmajor : major < 8) {head : Head}
    (hhead : ∀ info, Head.ofParts? major info (some n) = some head) (t : Octets) :
    Head.read (s ++ t) = .ok (head, t) := by
  obtain ⟨hroom⟩ := h
  have hinfo := hroom.info_lt
  exact Head.read_initialOctet_cons hmajor (by omega) (readArgument_eq_ok_iff.2 ⟨hroom, rfl⟩)
    (hhead _)

/-- **No stop begins like a head** of an item. -/
theorem head?_append_ne_stop (h : HeadSpelling major n s) (hmajor : major < 7) (t : Octets) :
    (s ++ t).head? ≠ some stopOctet := by
  obtain ⟨hroom⟩ := h
  intro hstop
  have hinfo := hroom.info_lt
  have htoNat := congrArg UInt8.toNat (Option.some.inj hstop)
  rw [toNat_initialOctet (by omega) (by omega)] at htoNat
  have hoctet : stopOctet.toNat = 255 := rfl
  omega

/-- The written head is a spelling. -/
theorem encodeHead (hn : n < argumentBound) : HeadSpelling major n (encodeHead major n) := by
  rw [encodeHead_eq]
  exact .mk (hasRoom_shortestInfo hn)

end HeadSpelling

/-! ## Integers -/

/-- **The spellings of an integer**: a head of either sign, or a tag in front
of a byte string of at most 16 octets with a definite length. The byte string
may begin with zeros, and be empty. -/
inductive IntegerSpelling : Int → Octets → Prop where
  /-- The argument of a head, from zero upward. -/
  | unsigned {n : Nat} {s : Octets} (h : HeadSpelling 0 n s) : IntegerSpelling n s
  /-- The argument of a head, from minus one downward. -/
  | negative {n : Nat} {s : Octets} (h : HeadSpelling 1 n s) : IntegerSpelling (-1 - n) s
  /-- The value of a byte string, from zero upward. -/
  | unsignedString {tag head digits : Octets} (htag : HeadSpelling 6 2 tag)
    (hhead : HeadSpelling 2 digits.length head) (hlength : digits.length ≤ 16) :
    IntegerSpelling digits.value (tag ++ (head ++ digits))
  /-- The value of a byte string, from minus one downward. -/
  | negativeString {tag head digits : Octets} (htag : HeadSpelling 6 3 tag)
    (hhead : HeadSpelling 2 digits.length head) (hlength : digits.length ≤ 16) :
    IntegerSpelling (-1 - digits.value) (tag ++ (head ++ digits))

/-- A tag in front of a short byte string is read as an integer, if it makes
one. -/
theorem readItemWith_bignum (inner : Option (Reader Item)) {tag : Nat} {s head digits : Octets}
    {n : Int} (hs : HeadSpelling 6 tag s) (hhead : HeadSpelling 2 digits.length head)
    (htag : (tag = 2 ∨ tag = 3) ∧ digits.length ≤ bignumMaxLength)
    (hn : bignum tag digits.value = .ok n) (t : Octets) :
    readItemWith inner (s ++ (head ++ digits) ++ t) = .ok (.integer n, t) := by
  have hreadTag : Head.read (s ++ (head ++ (digits ++ t)))
      = .ok (.tag tag, head ++ (digits ++ t)) :=
    hs.read_append (by decide) (fun _ => rfl) _
  have hreadHead : Head.read (head ++ (digits ++ t))
      = .ok (.string .octets (some digits.length), digits ++ t) :=
    hhead.read_append (by decide) (fun _ => rfl) _
  have htake : take digits.length (digits ++ t) = .ok (digits, t) :=
    take_eq_ok_iff.2 ⟨rfl, rfl⟩
  rw [List.append_assoc, List.append_assoc]
  simp only [readItemWith, hreadTag, hreadHead, bignumLength?, if_pos htag, htake, hn]

namespace IntegerSpelling

variable {n : Int} {s : Octets}

/-- **Every spelling of an integer is read** as that integer, unless it is one
that takes more than 128 bits. -/
theorem readItemWith_append (h : IntegerSpelling n s) (inner : Option (Reader Item))
    (hn : -0x80000000000000000000000000000000 ≤ n) (t : Octets) :
    readItemWith inner (s ++ t) = .ok (.integer n, t) := by
  cases h with
  | @unsigned n _ h =>
    have hread : Head.read (s ++ t) = .ok (.unsigned n, t) :=
      h.read_append (by decide) (fun _ => rfl) t
    simp only [readItemWith, hread]
  | @negative n _ h =>
    have hread : Head.read (s ++ t) = .ok (.negative n, t) :=
      h.read_append (by decide) (fun _ => rfl) t
    simp only [readItemWith, hread]
  | unsignedString htag hhead hlength =>
    exact readItemWith_bignum inner htag hhead ⟨.inl rfl, hlength⟩ rfl t
  | @negativeString _ _ digits htag hhead hlength =>
    have hvalue : digits.value < 0x80000000000000000000000000000000 := by omega
    exact readItemWith_bignum inner htag hhead ⟨.inr rfl, hlength⟩ (if_pos hvalue) t

theorem head?_append_ne_stop (h : IntegerSpelling n s) (t : Octets) :
    (s ++ t).head? ≠ some stopOctet := by
  cases h with
  | unsigned h => exact h.head?_append_ne_stop (by decide) t
  | negative h => exact h.head?_append_ne_stop (by decide) t
  | unsignedString htag hhead hlength =>
    rw [List.append_assoc]
    exact htag.head?_append_ne_stop (by decide) _
  | negativeString htag hhead hlength =>
    rw [List.append_assoc]
    exact htag.head?_append_ne_stop (by decide) _

/-- The form of `readItemWith_append` for integers of 64 bits, which are far from
the bound. -/
theorem readItem_append {n : Int64} (h : IntegerSpelling n.toInt s) (depth : Nat) (t : Octets) :
    readItem depth (s ++ t) = .ok (.integer n.toInt, t) := by
  have hlow := n.le_toInt
  obtain ⟨inner, hinner⟩ := exists_readItem_eq depth
  rw [hinner, h.readItemWith_append inner (by omega)]

/-- The written integer is a spelling. -/
theorem encodeInteger (hlow : -argumentBound ≤ n) (hhigh : n < argumentBound) :
    IntegerSpelling n (encodeInteger n) := by
  unfold Cbor.encodeInteger
  split
  · have h : IntegerSpelling (n.toNat : Int) (encodeHead 0 n.toNat) :=
      .unsigned (.encodeHead (by omega))
    rwa [Int.toNat_of_nonneg (by assumption)] at h
  · have h : IntegerSpelling (-1 - ((-1 - n).toNat : Int)) (encodeHead 1 (-1 - n).toNat) :=
      .negative (.encodeHead (by omega))
    rwa [Int.toNat_of_nonneg (by omega), Int.sub_sub_self] at h

/-- The form of `encodeInteger` for integers of 64 bits. -/
theorem encodeInt64 (n : Int64) : IntegerSpelling n.toInt (Cbor.encodeInteger n.toInt) := by
  have hbound : (argumentBound : Int) = 0x10000000000000000 := rfl
  have hlow := n.le_toInt
  have hhigh := n.toInt_lt
  exact encodeInteger (by omega) (by omega)

end IntegerSpelling

/-! ## Byte strings -/

/-- **The spellings of octets in chunks**, one after the other: a chunk has a
definite length, or it has an indefinite one and is made of chunks itself. -/
inductive ChunksSpelling : Octets → Octets → Prop where
  /-- No chunks. -/
  | nil : ChunksSpelling [] []
  /-- A chunk of definite length, and more. -/
  | definite {chunk head content s : Octets} (hhead : HeadSpelling 2 chunk.length head)
    (h : ChunksSpelling content s) :
    ChunksSpelling (chunk ++ content) (head ++ (chunk ++ s))
  /-- A chunk of indefinite length, and more. -/
  | indefinite {chunk chunks content s : Octets} (hchunk : ChunksSpelling chunk chunks)
    (h : ChunksSpelling content s) :
    ChunksSpelling (chunk ++ content) (initialOctet 2 31 :: (chunks ++ stopOctet :: s))

/-- **The spellings of a byte string.** -/
inductive OctetsSpelling (content : Octets) : Octets → Prop where
  /-- With a definite length. -/
  | definite {head : Octets} (hhead : HeadSpelling 2 content.length head) :
    OctetsSpelling content (head ++ content)
  /-- In chunks. -/
  | indefinite {chunks : Octets} (h : ChunksSpelling content chunks) :
    OctetsSpelling content (initialOctet 2 31 :: (chunks ++ [stopOctet]))

/-- The initial octet of a byte string of indefinite length. -/
theorem Head.read_indefinite (s : Octets) :
    Head.read (initialOctet 2 31 :: s) = .ok (.string .octets none, s) := rfl

/-- The octet of a stop is a head by itself. -/
theorem Head.read_stop (s : Octets) : Head.read (stopOctet :: s) = .ok (.stop, s) := rfl

/-- Any octets can be a byte string, so reading a chunk of one is taking it. -/
theorem readChunk_octets (n : Nat) : readChunk .octets n = take n := by
  funext s
  unfold readChunk
  cases take n s <;> rfl

/-- **Chunks are read through**: they take no more steps than octets, add their
content to what comes after them, and leave the number of open strings as it
was. -/
theorem ChunksSpelling.exists_readChunks_eq {content s : Octets} (h : ChunksSpelling content s) :
    ∃ steps ≤ s.length, ∀ bound unstopped t,
      readChunks .octets (bound + steps) unstopped (s ++ t)
        = (readChunks .octets bound unstopped t).map
          fun field => (content ++ field.1, field.2) := by
  induction h with
  | nil =>
    refine ⟨0, Nat.le_refl 0, fun bound unstopped t => ?_⟩
    show readChunks .octets bound unstopped t = _
    cases readChunks .octets bound unstopped t <;> rfl
  | @definite chunk head content s hhead h ih =>
    obtain ⟨steps, hsteps, ih⟩ := ih
    refine ⟨steps + 1, ?_, fun bound unstopped t => ?_⟩
    · obtain ⟨hroom⟩ := hhead
      simp only [List.length_append, List.length_cons]
      omega
    · have hread : Head.read (head ++ (chunk ++ (s ++ t)))
          = .ok (.string .octets (some chunk.length), chunk ++ (s ++ t)) :=
        hhead.read_append (by decide) (fun _ => rfl) _
      have htake : take chunk.length (chunk ++ (s ++ t)) = .ok (chunk, s ++ t) :=
        take_eq_ok_iff.2 ⟨rfl, rfl⟩
      rw [← Nat.add_assoc, List.append_assoc, List.append_assoc]
      simp only [readChunks, hread, if_true, readChunk_octets, htake, ih]
      cases readChunks .octets bound unstopped t with
      | error failure => rfl
      | ok field => simp [Except.map]
  | @indefinite chunk chunks content s hchunk h ihchunk ih =>
    obtain ⟨stepsChunk, hstepsChunk, ihchunk⟩ := ihchunk
    obtain ⟨steps, hsteps, ih⟩ := ih
    refine ⟨steps + 1 + stepsChunk + 1, ?_, fun bound unstopped t => ?_⟩
    · simp only [List.length_append, List.length_cons]
      omega
    · -- the chunk is read with one more open string, which its end closes
      have hbound : bound + (steps + 1 + stepsChunk + 1)
          = bound + steps + 1 + stepsChunk + 1 := by omega
      rw [hbound, List.cons_append, List.append_assoc, List.cons_append]
      simp only [readChunks, Head.read_indefinite, if_true, ihchunk, Head.read_stop, ih]
      cases readChunks .octets bound unstopped t with
      | error failure => rfl
      | ok field => simp [Except.map]

/-- **Every spelling of a byte string is read** as that byte string. -/
theorem OctetsSpelling.readItem_append {content s : Octets} (h : OctetsSpelling content s)
    (depth : Nat) (t : Octets) :
    readItem depth (s ++ t) = .ok (.string .octets content, t) := by
  obtain ⟨inner, hinner⟩ := exists_readItem_eq depth
  rw [hinner]
  cases h with
  | @definite head hhead =>
    have hread : Head.read (head ++ (content ++ t))
        = .ok (.string .octets (some content.length), content ++ t) :=
      hhead.read_append (by decide) (fun _ => rfl) _
    have htake : take content.length (content ++ t) = .ok (content, t) :=
      take_eq_ok_iff.2 ⟨rfl, rfl⟩
    rw [List.append_assoc]
    simp only [readItemWith, hread, readString, readChunk_octets, htake]
  | @indefinite chunks h =>
    obtain ⟨steps, hsteps, hchunks⟩ := h.exists_readChunks_eq
    -- there is a step left for the end
    obtain ⟨bound, hbound⟩ : ∃ bound, (chunks ++ stopOctet :: t).length = bound + 1 + steps :=
      ⟨chunks.length + t.length - steps, by simp; omega⟩
    have hread : readString .octets none (chunks ++ stopOctet :: t) = .ok (content, t) := by
      rw [readString, hbound, hchunks]
      simp [readChunks, Head.read_stop, Except.map]
    rw [List.cons_append, List.append_assoc]
    simp only [readItemWith, Head.read_indefinite, List.singleton_append, hread]

/-- The written byte string is a spelling. -/
theorem OctetsSpelling.encodeOctets {content : Octets} (h : content.length < argumentBound) :
    OctetsSpelling content (encodeOctets content) :=
  .definite (.encodeHead h)

/-! ## Sequences -/

section Sequences

variable {α β : Type} {Spelling : α → Octets → Prop} {one : Reader β} {read : α → β}
  (hone : ∀ a s, Spelling a s → ∀ t, one (s ++ t) = .ok (read a, t))
include hone

/-- **Values are read in a row**, each in its own spelling. -/
theorem readTimes_flatten {as : List α} {spellings : List Octets}
    (h : List.Forall₂ Spelling as spellings) (t : Octets) :
    readTimes one as.length (spellings.flatten ++ t) = .ok (as.map read, t) := by
  induction h with
  | nil => rfl
  | cons ha _ ih =>
    rw [List.flatten_cons, List.append_assoc, List.length_cons, readTimes, hone _ _ ha]
    simp only [ih, List.map_cons]

variable (hstop : ∀ a s, Spelling a s → ∀ t, (s ++ t).head? ≠ some stopOctet)
include hstop

/-- **Values are read up to the end**, if none of them begins like it. -/
theorem readUntilStop_flatten {as : List α} {spellings : List Octets}
    (h : List.Forall₂ Spelling as spellings) {bound : Nat} (hbound : as.length < bound)
    (t : Octets) :
    readUntilStop one bound (spellings.flatten ++ stopOctet :: t) = .ok (as.map read, t) := by
  induction h generalizing bound with
  | nil =>
    cases bound with
    | zero => exact absurd hbound (Nat.not_lt_zero _)
    | succ bound => rfl
  | cons ha _ ih =>
    cases bound with
    | zero => exact absurd hbound (Nat.not_lt_zero _)
    | succ bound =>
      rw [List.flatten_cons, List.append_assoc, readUntilStop, if_neg (hstop _ _ ha _),
        hone _ _ ha]
      simp only [ih (Nat.lt_of_succ_lt_succ hbound), List.map_cons]

omit hone in
/-- As many values have as many octets, or more. -/
theorem length_le_length_flatten {as : List α} {spellings : List Octets}
    (h : List.Forall₂ Spelling as spellings) : as.length ≤ spellings.flatten.length := by
  induction h with
  | nil => exact Nat.le_refl 0
  | @cons a s as spellings ha _ ih =>
    have hne : s ≠ [] := by
      rintro rfl
      exact hstop a [] ha [stopOctet] rfl
    have hpos := List.length_pos_of_ne_nil hne
    rw [List.flatten_cons, List.length_append, List.length_cons]
    omega

end Sequences

end KeyForms.Cbor
