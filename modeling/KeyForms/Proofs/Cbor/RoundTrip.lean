import KeyForms.Proofs.Cbor.Spelling

/-!
# Written items are read

What the writer puts down is read back as it was meant, whatever follows it.
The statements are about a written item in front of any other octets, so they
compose: an item that is read leaves exactly the octets after it, and the
next one starts there.

Each of them is one of the spellings that are read alike, so all that is left
to say is under which condition it is written at all: there is no head for an
argument of `2^64` and more (`argumentBound`).
-/

namespace KeyForms.Cbor

/-! ## Heads -/

/-- **A written head is read.** The major type is any whose heads do not
depend on the width of the argument. -/
theorem Head.read_encodeHead {major n : Nat} {head : Head} (hmajor : major < 8)
    (hn : n < argumentBound) (hhead : ∀ info, Head.ofParts? major info (some n) = some head)
    (s : Octets) : Head.read (encodeHead major n ++ s) = .ok (head, s) :=
  (HeadSpelling.encodeHead hn).read_append hmajor hhead s

/-! ## Items -/

/-- **A written integer is read**, as an item of any container. -/
theorem readItem_encodeInteger (depth : Nat) (n : Int64) (s : Octets) :
    readItem depth (encodeInteger n.toInt ++ s) = .ok (.integer n.toInt, s) :=
  (IntegerSpelling.encodeInt64 n).readItem_append depth s

/-- **A written byte string is read**, and as a byte string. -/
theorem readItem_encodeOctets (depth : Nat) {content : Octets}
    (h : content.length < argumentBound) (s : Octets) :
    readItem depth (encodeOctets content ++ s) = .ok (.string .octets content, s) :=
  (OctetsSpelling.encodeOctets h).readItem_append depth s

/-! ## Sequences -/

/-- **Written values are read in a row**, if each is read where it stands. -/
theorem readTimes_flatMap {α β : Type} {one : Reader β} {write : α → Octets} {read : α → β}
    {as : List α} (h : ∀ a ∈ as, ∀ s, one (write a ++ s) = .ok (read a, s)) (s : Octets) :
    readTimes one as.length (as.flatMap write ++ s) = .ok (as.map read, s) := by
  have hone : ∀ a t, a ∈ as ∧ write a = t → ∀ s, one (t ++ s) = .ok (read a, s) := by
    rintro a _ ⟨ha, rfl⟩
    exact h a ha
  have hwrite : List.Forall₂ (fun a t => a ∈ as ∧ write a = t) as (as.map write) := by
    rw [List.forall₂_map_right_iff, List.forall₂_same]
    exact fun a ha => ⟨ha, rfl⟩
  rw [List.flatMap_def]
  exact readTimes_flatten hone hwrite s

theorem readPair_append {α : Type} {one : Reader α} {s t : Octets} {a b : α}
    (ha : ∀ rest, one (s ++ rest) = .ok (a, rest)) (hb : ∀ rest, one (t ++ rest) = .ok (b, rest))
    (rest : Octets) : readPair one (s ++ t ++ rest) = .ok ((a, b), rest) := by
  rw [List.append_assoc]
  simp only [readPair, ha, hb]

/-- **A written map is read**: its head says how many pairs to expect. -/
theorem readItemWith_encodeMapHead (one : Reader Item) {size : Nat} (h : size < argumentBound)
    {s rest : Octets} {pairs : List (Item × Item)}
    (hpairs : readTimes (readPair one) size s = .ok (pairs, rest)) :
    readItemWith (some one) (encodeMapHead size ++ s) = .ok (.map pairs, rest) := by
  have hread : Head.read (encodeHead 5 size ++ s) = .ok (.map (some size), s) :=
    Head.read_encodeHead (by decide) h (fun _ => rfl) s
  simp only [encodeMapHead, readItemWith, hread, readMany, hpairs]

end KeyForms.Cbor
