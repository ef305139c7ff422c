import Mathlib.Algebra.Order.BigOperators.Group.List
import KeyForms.Proofs.Cbor.Spelled

/-!
# What is read takes its octets

A reader invents nothing. The content of a string was among the octets that it
was read from, and every item took at least one octet besides
(`Cbor.Advances`). So the items of a container, and the contents of the
strings among them, are no more than the octets that it was read from, however
much a head promised.
-/

namespace KeyForms.Cbor

variable {s rest : Octets}

/-- The number of octets that the content of an item has. Containers are not
counted through. -/
def Item.contentLength : Item → Nat
  | .string _ content => content.length
  | _ => 0

/-- **A reader advances** by more octets than what it reads has weight. -/
def Advances {α : Type} (one : Reader α) (weight : α → Nat) : Prop :=
  ∀ s a rest, one s = .ok (a, rest) → weight a + rest.length < s.length

/-! ## Strings -/

theorem length_add_le_of_readChunk {kind : StringKind} {n : Nat} {content : Octets}
    (h : readChunk kind n s = .ok (content, rest)) : content.length + rest.length ≤ s.length := by
  unfold readChunk at h
  split at h
  · cases h
  · rename_i htake
    split at h
    · cases h
      obtain ⟨-, rfl⟩ := take_eq_ok_iff.1 htake
      rw [List.length_append]
    · cases h

theorem length_add_le_of_readChunks {kind : StringKind} {bound unstopped : Nat}
    {content : Octets} (h : readChunks kind bound unstopped s = .ok (content, rest)) :
    content.length + rest.length ≤ s.length := by
  induction bound generalizing unstopped content s with
  | zero => cases h
  | succ bound ih =>
    rw [readChunks] at h
    split at h
    · cases h
    · rename_i hread
      have hlt := Head.length_lt_of_read hread
      split at h
      · cases h
        rw [List.length_nil]
        omega
      · have hle := ih h
        omega
    · rename_i hread
      have hlt := Head.length_lt_of_read hread
      split at h
      · have hle := ih h
        omega
      · cases h
    · rename_i hread
      have hlt := Head.length_lt_of_read hread
      split at h
      · split at h
        · cases h
        · rename_i hchunk
          have hchunk' := length_add_le_of_readChunk hchunk
          split at h
          · cases h
          · rename_i hchunks
            cases h
            have hle := ih hchunks
            rw [List.length_append]
            omega
      · cases h
    · cases h

theorem length_add_le_of_readString {kind : StringKind} {length : Option Nat} {content : Octets}
    (h : readString kind length s = .ok (content, rest)) :
    content.length + rest.length ≤ s.length := by
  cases length with
  | none => exact length_add_le_of_readChunks h
  | some n => exact length_add_le_of_readChunk h

/-! ## Sequences -/

section Sequences

variable {α : Type} {one : Reader α} {weight : α → Nat} (hone : Advances one weight)
include hone

theorem sum_add_le_of_readTimes {n : Nat} {as : List α}
    (h : readTimes one n s = .ok (as, rest)) :
    (as.map (weight · + 1)).sum + rest.length ≤ s.length := by
  induction n generalizing as s with
  | zero =>
    cases h
    simp
  | succ n ih =>
    rw [readTimes] at h
    split at h
    · cases h
    · rename_i hfirst
      split at h
      · cases h
      · rename_i hothers
        cases h
        have hlt := hone _ _ _ hfirst
        have hle := ih hothers
        rw [List.map_cons, List.sum_cons]
        omega

/-- **The values of a container**, and one for each of them, are no more than
the octets they are read from. -/
theorem sum_add_le_of_readMany {length : Option Nat} {as : List α}
    (h : readMany one length s = .ok (as, rest)) :
    (as.map (weight · + 1)).sum + rest.length ≤ s.length := by
  cases length with
  | none =>
    have hle := sum_add_le_of_readTimes hone (readTimes_of_readUntilStop h)
    rw [List.length_cons] at hle
    omega
  | some n => exact sum_add_le_of_readTimes hone h

/-- A container has no more values than it has octets. -/
theorem length_le_of_readMany {length : Option Nat} {as : List α}
    (h : readMany one length s = .ok (as, rest)) : as.length ≤ s.length := by
  have hsum := sum_add_le_of_readMany hone h
  have hlength := List.length_le_sum_of_one_le (as.map (weight · + 1))
    (List.forall_mem_map.2 fun _ _ => Nat.le_add_left 1 _)
  rw [List.length_map] at hlength
  omega

/-- No value of a container has more weight than the container has octets. -/
theorem weight_le_of_readMany {length : Option Nat} {as : List α}
    (h : readMany one length s = .ok (as, rest)) {a : α} (ha : a ∈ as) :
    weight a ≤ s.length := by
  have hsum := sum_add_le_of_readMany hone h
  have hle := List.le_sum_of_mem (List.mem_map_of_mem (f := (weight · + 1)) ha)
  omega

theorem advances_readPair : Advances (readPair one) fun pair => weight pair.1 + weight pair.2 := by
  intro s pair rest h
  unfold readPair at h
  split at h
  · cases h
  · rename_i hfirst
    split at h
    · cases h
    · rename_i hsecond
      cases h
      have hlt := hone _ _ _ hfirst
      have hlt' := hone _ _ _ hsecond
      dsimp only
      omega

end Sequences

/-! ## Items -/

/-- **Reading an item advances** if reading the items in it does. -/
theorem advances_readItemWith {inner : Option (Reader Item)}
    (hinner : ∀ one, inner = some one → Advances one Item.contentLength) :
    Advances (readItemWith inner) Item.contentLength := by
  intro s item rest h
  cases readAs_of_readItemWith h with
  | unsigned hread | negative hread | simple hread | float hread =>
    have hlt := Head.length_lt_of_read hread
    simpa only [Item.contentLength, Nat.zero_add]
  | bignum hread hnext hlength htake hn =>
    have hlt := Head.length_lt_of_read hread
    have hlt' := Head.length_lt_of_read hnext
    obtain ⟨-, rfl⟩ := take_eq_ok_iff.1 htake
    rw [List.length_append] at hlt'
    simp only [Item.contentLength]
    omega
  | string hread hcontent =>
    have hlt := Head.length_lt_of_read hread
    have hle := length_add_le_of_readString hcontent
    simp only [Item.contentLength]
    omega
  | array hone hread hitems =>
    have hlt := Head.length_lt_of_read hread
    have hle := sum_add_le_of_readMany (hinner _ hone) hitems
    simp only [Item.contentLength]
    omega
  | map hone hread hpairs =>
    have hlt := Head.length_lt_of_read hread
    have hle := sum_add_le_of_readMany (advances_readPair (hinner _ hone)) hpairs
    simp only [Item.contentLength]
    omega
  | tagged hone hread hitem =>
    have hlt := Head.length_lt_of_read hread
    have hlt' := hinner _ hone _ _ _ hitem
    simp only [Item.contentLength]
    omega

theorem advances_readItem (depth : Nat) : Advances (readItem depth) Item.contentLength := by
  induction depth with
  | zero =>
    refine advances_readItemWith fun one hone => ?_
    cases hone
  | succ depth ih =>
    refine advances_readItemWith fun one hone => ?_
    cases hone
    exact ih

end KeyForms.Cbor
