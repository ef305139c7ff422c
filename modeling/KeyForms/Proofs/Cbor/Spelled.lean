import KeyForms.Proofs.Cbor.Shortest

/-!
# What is read is a spelling

The spellings of integers and byte strings are all read alike. Here is the
other direction: what is read as an integer or as a byte string is one of
their spellings, in front of what is left. So the spellings are said without
the reader, and are still neither too many nor too few.

For the chunks of a byte string the nesting has to be found again. When the
reader stands inside of several open strings, what it has still to read is
some chunks and an end for each of them (`Cbor.ClosingSpelling`). A head in
front of that adds a chunk to the innermost string; the head of an indefinite
chunk makes the innermost string a chunk of the one around it.
-/

namespace KeyForms.Cbor

variable {s rest : Octets}

/-! ## Heads -/

/-- **What is read as a head without an argument** is an initial octet. -/
theorem Head.eq_of_read {head : Head} (h : Head.read s = .ok (head, rest))
    (hnone : head.argument = none) : s = initialOctet head.major 31 :: rest := by
  obtain ⟨info, t, rfl, hargument⟩ := exists_of_read h
  rw [hnone] at hargument
  unfold readArgument at hargument
  split at hargument
  · cases hargument
  · split at hargument
    · split at hargument <;> cases hargument
    · split at hargument
      · cases hargument
        subst_vars
        rfl
      · cases hargument

/-! ## Items -/

/-- **The ways in which an item is read**, by its head and what follows it. -/
inductive ReadAs (inner : Option (Reader Item)) (s rest : Octets) : Item → Prop where
  /-- An integer, from zero upward. -/
  | unsigned {n : Nat} (h : Head.read s = .ok (.unsigned n, rest)) :
    ReadAs inner s rest (.integer n)
  /-- An integer, from minus one downward. -/
  | negative {n : Nat} (h : Head.read s = .ok (.negative n, rest)) :
    ReadAs inner s rest (.integer (-1 - n))
  /-- A tag that makes an integer of a byte string. -/
  | bignum {tag : Nat} {next : Head} {t digits : Octets} {length : Nat} {t' : Octets} {n : Int}
    (h : Head.read s = .ok (.tag tag, t)) (hnext : Head.read t = .ok (next, t'))
    (hlength : bignumLength? tag next = some length) (htake : take length t' = .ok (digits, rest))
    (hn : Cbor.bignum tag digits.value = .ok n) : ReadAs inner s rest (.integer n)
  /-- A string. -/
  | string {kind : StringKind} {length : Option Nat} {t content : Octets}
    (h : Head.read s = .ok (.string kind length, t))
    (hcontent : readString kind length t = .ok (content, rest)) :
    ReadAs inner s rest (.string kind content)
  /-- An array. -/
  | array {length : Option Nat} {t : Octets} {one : Reader Item} {items : List Item}
    (hinner : inner = some one) (h : Head.read s = .ok (.array length, t))
    (hitems : readMany one length t = .ok (items, rest)) : ReadAs inner s rest (.array items)
  /-- A map. -/
  | map {length : Option Nat} {t : Octets} {one : Reader Item} {pairs : List (Item × Item)}
    (hinner : inner = some one) (h : Head.read s = .ok (.map length, t))
    (hpairs : readMany (readPair one) length t = .ok (pairs, rest)) :
    ReadAs inner s rest (.map pairs)
  /-- A tagged item. -/
  | tagged {tag : Nat} {t : Octets} {one : Reader Item} {item : Item}
    (hinner : inner = some one) (h : Head.read s = .ok (.tag tag, t))
    (hitem : one t = .ok (item, rest)) : ReadAs inner s rest (.tagged tag item)
  /-- A simple value. -/
  | simple {n : Nat} (h : Head.read s = .ok (.simple n, rest)) : ReadAs inner s rest (.simple n)
  /-- A floating-point number. -/
  | float {bits : Nat} (h : Head.read s = .ok (.float bits, rest)) :
    ReadAs inner s rest (.float bits)

theorem readAs_of_readItemWith {inner : Option (Reader Item)} {item : Item}
    (h : readItemWith inner s = .ok (item, rest)) : ReadAs inner s rest item := by
  unfold readItemWith at h
  split at h
  case h_1 => cases h
  case h_2 hread =>
    cases h
    exact .unsigned hread
  case h_3 hread =>
    cases h
    exact .negative hread
  case h_4 hread =>
    split at h
    · cases h
    · rename_i hcontent
      cases h
      exact .string hread hcontent
  case h_5 hread =>
    split at h
    · cases h
    · split at h
      · cases h
      · rename_i hitems
        cases h
        exact .array rfl hread hitems
  case h_6 hread =>
    split at h
    · cases h
    · split at h
      · cases h
      · rename_i hpairs
        cases h
        exact .map rfl hread hpairs
  case h_7 hread =>
    split at h
    · cases h
    · rename_i hnext
      split at h
      · rename_i hlength
        split at h
        · cases h
        · rename_i htake
          split at h
          · cases h
          · rename_i hn
            cases h
            exact .bignum hread hnext hlength htake hn
      · split at h
        · cases h
        · split at h
          · cases h
          · rename_i hitem
            cases h
            exact .tagged rfl hread hitem
  case h_8 hread =>
    split at h
    · cases h
      exact .simple hread
    · cases h
  case h_9 hread =>
    cases h
    exact .float hread
  case h_10 => cases h

/-! ## Integers -/

theorem bignumLength?_eq_some_iff {tag n : Nat} {next : Head} :
    bignumLength? tag next = some n
      ↔ next = .string .octets (some n) ∧ (tag = 2 ∨ tag = 3) ∧ n ≤ bignumMaxLength := by
  unfold bignumLength?
  split
  · rename_i length
    rw [Option.ite_none_right_eq_some, Head.string.injEq, Option.some.injEq]
    constructor
    · rintro ⟨h, rfl⟩
      exact ⟨⟨rfl, rfl⟩, h⟩
    · rintro ⟨⟨-, rfl⟩, h⟩
      exact ⟨h, rfl⟩
  · rename_i hne
    constructor
    · intro h
      cases h
    · rintro ⟨rfl, -⟩
      exact absurd rfl (hne n)

/-- **What is read as an integer is a spelling** of it. -/
theorem IntegerSpelling.exists_of_readItemWith {inner : Option (Reader Item)} {n : Int}
    (h : readItemWith inner s = .ok (.integer n, rest)) :
    ∃ t, IntegerSpelling n t ∧ s = t ++ rest := by
  cases readAs_of_readItemWith h with
  | unsigned hread =>
    obtain ⟨t, ht, hs⟩ := Head.exists_spelling_of_read hread rfl
    exact ⟨t, .unsigned ht, hs⟩
  | negative hread =>
    obtain ⟨t, ht, hs⟩ := Head.exists_spelling_of_read hread rfl
    exact ⟨t, .negative ht, hs⟩
  | bignum hread hnext hlength htake hn =>
    obtain ⟨rfl, htag, hle⟩ := bignumLength?_eq_some_iff.1 hlength
    obtain ⟨t, ht, rfl⟩ := Head.exists_spelling_of_read hread rfl
    obtain ⟨head, hhead, rfl⟩ := Head.exists_spelling_of_read hnext rfl
    obtain ⟨rfl, rfl⟩ := take_eq_ok_iff.1 htake
    rename_i digits
    refine ⟨t ++ (head ++ digits), ?_, by simp⟩
    rcases htag with rfl | rfl
    · cases hn
      exact .unsignedString ht hhead hle
    · rw [Cbor.bignum, if_neg (by decide)] at hn
      split at hn
      · cases hn
        exact .negativeString ht hhead hle
      · cases hn

/-! ## Byte strings -/

/-- **What closes open strings**: chunks and an end for the innermost one, and
the same for each of the `unstopped` ones around it. -/
inductive ClosingSpelling : Nat → Octets → Octets → Prop where
  /-- One string is open. -/
  | last {content s : Octets} (h : ChunksSpelling content s) :
    ClosingSpelling 0 content (s ++ [stopOctet])
  /-- There are strings around the innermost one. -/
  | next {unstopped : Nat} {content s content' s' : Octets} (h : ChunksSpelling content s)
    (hnext : ClosingSpelling unstopped content' s') :
    ClosingSpelling (unstopped + 1) (content ++ content') (s ++ stopOctet :: s')

namespace ClosingSpelling

variable {unstopped : Nat} {content : Octets}

/-- A chunk of definite length belongs to the innermost string. -/
theorem definite {chunk head : Octets} (hhead : HeadSpelling 2 chunk.length head)
    (h : ClosingSpelling unstopped content s) :
    ClosingSpelling unstopped (chunk ++ content) (head ++ (chunk ++ s)) := by
  cases h with
  | last h =>
    have hlast := ClosingSpelling.last (.definite hhead h)
    simpa only [List.append_assoc] using hlast
  | next h hnext =>
    have hnext' := ClosingSpelling.next (.definite hhead h) hnext
    simpa only [List.append_assoc] using hnext'

/-- A string that is opened and closed is a chunk of the one around it. -/
theorem indefinite (h : ClosingSpelling (unstopped + 1) content s) :
    ClosingSpelling unstopped content (initialOctet 2 31 :: s) := by
  cases h with
  | next hchunk hnext =>
    cases hnext with
    | last h =>
      have hlast := ClosingSpelling.last (.indefinite hchunk h)
      simpa only [List.append_assoc, List.cons_append] using hlast
    | next h hnext =>
      have hnext' := ClosingSpelling.next (.indefinite hchunk h) hnext
      simpa only [List.append_assoc, List.cons_append] using hnext'

/-- **What is read while strings are open** closes them. -/
theorem exists_of_readChunks {bound : Nat}
    (h : readChunks .octets bound unstopped s = .ok (content, rest)) :
    ∃ t, ClosingSpelling unstopped content t ∧ s = t ++ rest := by
  induction bound generalizing unstopped content s with
  | zero => cases h
  | succ bound ih =>
    rw [readChunks] at h
    split at h
    · cases h
    · rename_i t hread
      obtain rfl : s = stopOctet :: t := Head.eq_of_read hread rfl
      split at h
      · cases h
        exact ⟨_, .last .nil, rfl⟩
      · obtain ⟨t', ht', rfl⟩ := ih h
        exact ⟨_, .next .nil ht', rfl⟩
    · rename_i kind t hread
      split at h
      · subst_vars
        obtain rfl : s = initialOctet 2 31 :: t := Head.eq_of_read hread rfl
        obtain ⟨t', ht', rfl⟩ := ih h
        exact ⟨_, ht'.indefinite, rfl⟩
      · cases h
    · rename_i kind n t hread
      split at h
      · subst_vars
        rw [readChunk_octets] at h
        split at h
        · cases h
        · rename_i chunk t htake
          split at h
          · cases h
          · rename_i chunks t hchunks
            cases h
            obtain ⟨rfl, rfl⟩ := take_eq_ok_iff.1 htake
            obtain ⟨head, hhead, rfl⟩ := Head.exists_spelling_of_read hread rfl
            obtain ⟨t', ht', rfl⟩ := ih hchunks
            exact ⟨_, ht'.definite hhead, by simp⟩
      · cases h
    · cases h

end ClosingSpelling

/-- **What is read as a byte string is a spelling** of it. -/
theorem OctetsSpelling.exists_of_readItemWith {inner : Option (Reader Item)} {content : Octets}
    (h : readItemWith inner s = .ok (.string .octets content, rest)) :
    ∃ t, OctetsSpelling content t ∧ s = t ++ rest := by
  cases readAs_of_readItemWith h with
  | @string _ length t _ hread hcontent =>
    cases length with
    | none =>
      obtain rfl : s = initialOctet 2 31 :: t := Head.eq_of_read hread rfl
      obtain ⟨_, hclosing, rfl⟩ := ClosingSpelling.exists_of_readChunks hcontent
      cases hclosing with
      | last hchunks => exact ⟨_, .indefinite hchunks, rfl⟩
    | some n =>
      rw [readString, readChunk_octets] at hcontent
      obtain ⟨rfl, rfl⟩ := take_eq_ok_iff.1 hcontent
      obtain ⟨head, hhead, rfl⟩ := Head.exists_spelling_of_read hread rfl
      exact ⟨_, .definite hhead, by simp⟩

/-! ## Sequences -/

section Sequences

variable {α β : Type} {Spelling : α → Octets → Prop} {one : Reader β} {read : α → β}
  (hone : ∀ a s rest, one s = .ok (read a, rest) → ∃ t, Spelling a t ∧ s = t ++ rest)
include hone

/-- **Values that are read in a row** are spelled in a row. -/
theorem exists_forall₂_of_readTimes {n : Nat} {as : List α}
    (h : readTimes one n s = .ok (as.map read, rest)) :
    n = as.length ∧ ∃ spellings, List.Forall₂ Spelling as spellings
      ∧ s = spellings.flatten ++ rest := by
  induction n generalizing as s with
  | zero =>
    rw [readTimes, Except.ok.injEq, Prod.mk.injEq, eq_comm, List.map_eq_nil_iff] at h
    obtain ⟨rfl, rfl⟩ := h
    exact ⟨rfl, [], .nil, rfl⟩
  | succ n ih =>
    rw [readTimes] at h
    split at h
    · cases h
    · rename_i b t hb
      split at h
      · cases h
      · rename_i bs t' hbs
        rw [Except.ok.injEq, Prod.mk.injEq, eq_comm, List.map_eq_cons_iff] at h
        obtain ⟨⟨a, as, rfl, rfl, rfl⟩, rfl⟩ := h
        obtain ⟨field, hfield, rfl⟩ := hone _ _ _ hb
        obtain ⟨rfl, fields, hfields, rfl⟩ := ih hbs
        exact ⟨rfl, field :: fields, .cons hfield hfields, by simp⟩

omit hone in
/-- **Reading up to a stop** is reading as many values as there are, and leaves
the stop. -/
theorem readTimes_of_readUntilStop {bound : Nat} {bs : List β}
    (h : readUntilStop one bound s = .ok (bs, rest)) :
    readTimes one bs.length s = .ok (bs, stopOctet :: rest) := by
  induction bound generalizing bs s with
  | zero => cases h
  | succ bound ih =>
    rw [readUntilStop] at h
    split at h
    · rename_i hstop
      obtain ⟨t, rfl⟩ := List.head?_eq_some_iff.1 hstop
      cases h
      rfl
    · split at h
      · cases h
      · rename_i hfirst
        split at h
        · cases h
        · rename_i hothers
          cases h
          rw [List.length_cons, readTimes, hfirst]
          simp only [ih hothers]

/-- **Values that are read up to a stop** are spelled in a row in front of it. -/
theorem exists_forall₂_of_readUntilStop {bound : Nat} {as : List α}
    (h : readUntilStop one bound s = .ok (as.map read, rest)) :
    ∃ spellings, List.Forall₂ Spelling as spellings
      ∧ s = spellings.flatten ++ stopOctet :: rest :=
  (exists_forall₂_of_readTimes hone (readTimes_of_readUntilStop h)).2

end Sequences

end KeyForms.Cbor
