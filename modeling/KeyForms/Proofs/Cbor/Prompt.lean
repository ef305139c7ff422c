import KeyForms.Cbor.Item

/-!
# Readers look no further than they need

A reader that has answered has seen all that its answer depends on. More
octets may follow; they are left over with the rest, and a failure stays the
failure that it was. The one answer that more octets can change is that there
were too few of them, `Failure.truncated`. A reader of which this is true is
prompt (`Cbor.Reader.IsPrompt`).

Reading an item is one step after another, so it is enough to say that steps
can be put together (`Cbor.Reader.Anticipates.andThen`) and to take the readers
apart into steps: a head, and what its kind of item asks for
(`Cbor.readItemWith_eq`). The depth is what the induction is on
(`Cbor.isPrompt_readItem`).

Two readers count down from the number of octets, so with more octets they are
not the same reader any more. Therefore the steps are compared for two readers,
one for the octets at hand and one for those that follow as well
(`Cbor.Reader.Anticipates`).

What is cut off inside an item is always a want of octets
(`Cbor.Reader.IsPrompt.eq_truncated`): an answer to the part would have been
the answer to the whole.
-/

namespace KeyForms.Cbor

variable {α β : Type}

/-! ## Steps -/

namespace Reader

/-- The reader that takes nothing and answers with a value. -/
def done (a : α) : Reader α := fun s => .ok (a, s)

/-- The reader that takes nothing and fails. -/
def fail (failure : Failure) : Reader α := fun _ => .error failure

/-- **One reader after another**, which may depend on what the first one has
read. -/
def andThen (one : Reader α) (next : α → Reader β) : Reader β := fun s =>
  match one s with
  | .error failure => .error failure
  | .ok (a, rest) => next a rest

/-- **A reader that decides** between going on after what it has read and
starting over with another reader. -/
def peek (one : Reader α) (choose : α → Option (Reader β)) (other : Reader β) : Reader β :=
  fun s =>
    match one s with
    | .error failure => .error failure
    | .ok (a, rest) =>
      match choose a with
      | some next => next rest
      | none => other s

/-- **What one reader answers, another one answers** when more octets follow,
unless the first one has run out of octets. -/
def Anticipates (one one' : Reader α) : Prop :=
  ∀ s t, one s ≠ .error .truncated →
    one' (s ++ t) = (one s).map fun field => (field.1, field.2 ++ t)

/-- **A prompt reader** is not changed by octets that follow those it has
answered to. -/
def IsPrompt (one : Reader α) : Prop := one.Anticipates one

theorem isPrompt_done (a : α) : (done a).IsPrompt := fun _ _ _ => rfl

theorem isPrompt_fail (failure : Failure) : (fail failure : Reader α).IsPrompt :=
  fun _ _ _ => rfl

/-- A reader that always runs out of octets anticipates every other. -/
theorem anticipates_of_truncated {one one' : Reader α} (h : ∀ s, one s = .error .truncated) :
    one.Anticipates one' :=
  fun s _ hs => absurd (h s) hs

/-- **Steps anticipate steps.** -/
theorem Anticipates.andThen {one one' : Reader α} {next next' : α → Reader β}
    (h : one.Anticipates one') (hnext : ∀ a, (next a).Anticipates (next' a)) :
    (one.andThen next).Anticipates (one'.andThen next') := by
  intro s t hs
  -- the first step has not run out of octets, or else both together had
  have hone : one s ≠ .error .truncated := by
    intro hone
    exact hs (by rw [Reader.andThen, hone])
  unfold Reader.andThen at hs ⊢
  rw [h s t hone]
  cases hread : one s with
  | error failure => rfl
  | ok field =>
    rw [hread] at hs
    exact hnext field.1 field.2 t hs

theorem IsPrompt.andThen {one : Reader α} {next : α → Reader β} (h : one.IsPrompt)
    (hnext : ∀ a, (next a).IsPrompt) : (one.andThen next).IsPrompt :=
  Anticipates.andThen h hnext

theorem IsPrompt.peek {one : Reader α} {choose : α → Option (Reader β)} {other : Reader β}
    (h : one.IsPrompt) (hchoose : ∀ a, ∀ next ∈ choose a, next.IsPrompt)
    (hother : other.IsPrompt) : (one.peek choose other).IsPrompt := by
  intro s t hs
  have hone : one s ≠ .error .truncated := by
    intro hone
    exact hs (by rw [Reader.peek, hone])
  unfold Reader.peek at hs ⊢
  rw [h s t hone]
  cases hread : one s with
  | error failure => rfl
  | ok field =>
    obtain ⟨a, rest⟩ := field
    simp only [hread] at hs
    simp only [Except.map]
    cases hnext : choose a with
    | none =>
      simp only [hnext] at hs
      exact hother s t hs
    | some next =>
      simp only [hnext] at hs
      exact hchoose a next hnext rest t hs

/-! ### What a prompt reader answers -/

section IsPrompt

variable {one : Reader α} (h : one.IsPrompt)
include h

/-- **What follows is left over** with the rest. -/
theorem IsPrompt.append_of_ok {s rest : Octets} {a : α} (hs : one s = .ok (a, rest))
    (t : Octets) : one (s ++ t) = .ok (a, rest ++ t) := by
  have hne : one s ≠ .error .truncated := by
    rw [hs]
    exact nofun
  rw [h s t hne, hs]
  rfl

/-- **A failure stays the failure that it was**, unless it was for want of
octets. -/
theorem IsPrompt.append_of_error {s : Octets} {failure : Failure}
    (hs : one s = .error failure) (hfailure : failure ≠ .truncated) (t : Octets) :
    one (s ++ t) = .error failure := by
  have hne : one s ≠ .error .truncated := by
    rw [hs]
    exact fun heq => hfailure (Except.error.inj heq)
  rw [h s t hne, hs]
  rfl

/-- **What is cut off before the end of a value is truncated.** -/
theorem IsPrompt.eq_truncated {p q rest : Octets} {a : α} (hs : one (p ++ q) = .ok (a, rest))
    (hq : rest.length < q.length) : one p = .error .truncated := by
  cases hp : one p with
  | ok field =>
    -- the value would have been read of the part, and all of `q` be left over
    have happend := h.append_of_ok hp q
    rw [hs, Except.ok.injEq, Prod.mk.injEq] at happend
    have hlength := congrArg List.length happend.2
    rw [List.length_append] at hlength
    omega
  | error failure =>
    by_cases hfailure : failure = .truncated
    · rw [hfailure]
    · have happend := h.append_of_error hp hfailure q
      rw [hs] at happend
      cases happend

end IsPrompt

end Reader

open Reader

/-! ## Heads -/

theorem isPrompt_take (n : Nat) : (take n).IsPrompt := by
  intro s t hs
  cases htake : take n s with
  | error failure =>
    -- taking a field fails for want of octets only
    unfold take at htake hs
    split at htake
    · cases htake
    · rename_i hnone
      rw [hnone] at hs
      exact absurd rfl hs
  | ok field =>
    obtain ⟨hlength, rfl⟩ := take_eq_ok_iff.1 htake
    exact take_eq_ok_iff.2 ⟨hlength, List.append_assoc _ _ _⟩

theorem isPrompt_readArgument (info : Nat) : (readArgument info).IsPrompt := by
  have heq : readArgument info =
      if info < 24 then done (some info)
      else if info < 28 then
        (take (argumentWidth info)).andThen fun digits => done (some digits.value)
      else if info = 31 then done none
      else fail .illFormed := by
    funext s
    unfold readArgument
    split
    · rfl
    · split
      · rw [Reader.andThen]
        cases take (argumentWidth info) s <;> rfl
      · split <;> rfl
  rw [heq]
  split
  · exact isPrompt_done _
  · split
    · exact (isPrompt_take _).andThen fun digits => isPrompt_done _
    · split
      · exact isPrompt_done _
      · exact isPrompt_fail _

/-- The head that an initial octet begins. -/
def Head.readAfter (initial : UInt8) : Reader Head :=
  (readArgument (initial.toNat % 32)).andThen fun argument =>
    match Head.ofParts? (initial.toNat / 32) (initial.toNat % 32) argument with
    | some head => done head
    | none => fail .illFormed

theorem Head.read_cons (initial : UInt8) (s : Octets) :
    Head.read (initial :: s) = Head.readAfter initial s := by
  simp only [Head.read, Head.readAfter, Reader.andThen]
  cases readArgument (initial.toNat % 32) s with
  | error failure => rfl
  | ok field =>
    dsimp only
    cases Head.ofParts? (initial.toNat / 32) (initial.toNat % 32) field.1 <;> rfl

theorem Head.isPrompt_read : Head.read.IsPrompt := by
  intro s t hs
  cases s with
  | nil => exact absurd rfl hs
  | cons initial s =>
    rw [Head.read_cons] at hs
    rw [List.cons_append, Head.read_cons, Head.read_cons]
    refine (isPrompt_readArgument _).andThen (fun argument => ?_) s t hs
    split
    · exact isPrompt_done _
    · exact isPrompt_fail _

/-! ## Strings -/

variable {kind : StringKind}

theorem isPrompt_readChunk (kind : StringKind) (n : Nat) : (readChunk kind n).IsPrompt := by
  have heq : readChunk kind n = (take n).andThen fun content =>
      if kind.accepts content then done content else fail .illFormed := by
    funext s
    unfold readChunk Reader.andThen
    cases take n s with
    | error failure => rfl
    | ok field =>
      dsimp only
      split <;> rfl
  rw [heq]
  refine (isPrompt_take n).andThen fun content => ?_
  split
  · exact isPrompt_done _
  · exact isPrompt_fail _

/-- What the head of a chunk asks for, when the chunks after it are read by
`more`. -/
def readAfterChunkHead (kind : StringKind) (more : Nat → Reader Octets) (unstopped : Nat) :
    Head → Reader Octets
  | .stop =>
    match unstopped with
    | 0 => done []
    | unstopped + 1 => more unstopped
  | .string kind' none =>
    if kind' = kind then more (unstopped + 1) else fail .illFormed
  | .string kind' (some n) =>
    if kind' = kind then
      (readChunk kind n).andThen fun chunk =>
        (more unstopped).andThen fun chunks => done (chunk ++ chunks)
    else fail .illFormed
  | _ => fail .illFormed

/-- **Chunks are a head and what it asks for.** -/
theorem readChunks_succ (kind : StringKind) (bound unstopped : Nat) :
    readChunks kind (bound + 1) unstopped
      = Head.read.andThen (readAfterChunkHead kind (readChunks kind bound) unstopped) := by
  funext s
  rw [readChunks, Reader.andThen]
  cases Head.read s with
  | error failure => rfl
  | ok field =>
    obtain ⟨head, rest⟩ := field
    cases head with
    | stop => cases unstopped <;> rfl
    | string kind' length =>
      cases length with
      | none =>
        simp only [readAfterChunkHead]
        split <;> rfl
      | some n =>
        simp only [readAfterChunkHead]
        split
        · rw [Reader.andThen]
          cases readChunk kind n rest with
          | error failure => rfl
          | ok field =>
            simp only [Reader.andThen]
            cases readChunks kind bound unstopped field.2 <;> rfl
        · rfl
    | _ => rfl

theorem anticipates_readAfterChunkHead {more more' : Nat → Reader Octets}
    (h : ∀ unstopped, (more unstopped).Anticipates (more' unstopped)) (unstopped : Nat)
    (head : Head) : (readAfterChunkHead kind more unstopped head).Anticipates
      (readAfterChunkHead kind more' unstopped head) := by
  cases head with
  | stop =>
    cases unstopped with
    | zero => exact isPrompt_done _
    | succ unstopped => exact h unstopped
  | string kind' length =>
    cases length with
    | none =>
      simp only [readAfterChunkHead]
      split
      · exact h (unstopped + 1)
      · exact isPrompt_fail _
    | some n =>
      simp only [readAfterChunkHead]
      split
      · exact Anticipates.andThen (isPrompt_readChunk kind n) fun chunk =>
          (h unstopped).andThen fun chunks => isPrompt_done _
      · exact isPrompt_fail _
  | _ => exact isPrompt_fail _

/-- **More steps than are needed** change nothing. -/
theorem anticipates_readChunks {bound bound' : Nat} (hle : bound ≤ bound') (unstopped : Nat) :
    (readChunks kind bound unstopped).Anticipates (readChunks kind bound' unstopped) := by
  induction bound generalizing bound' unstopped with
  | zero => exact anticipates_of_truncated fun s => rfl
  | succ bound ih =>
    obtain ⟨bound', rfl⟩ := Nat.exists_eq_add_one.2 (Nat.lt_of_lt_of_le bound.succ_pos hle)
    rw [readChunks_succ, readChunks_succ]
    exact Anticipates.andThen Head.isPrompt_read
      (anticipates_readAfterChunkHead (ih (Nat.le_of_succ_le_succ hle)) unstopped)

theorem isPrompt_readString (kind : StringKind) (length : Option Nat) :
    (readString kind length).IsPrompt := by
  cases length with
  | some n => exact isPrompt_readChunk kind n
  | none =>
    intro s t hs
    have hle : s.length ≤ (s ++ t).length := by simp
    exact anticipates_readChunks hle 0 s t hs

/-! ## Sequences -/

/-- One value and then several. -/
def Reader.cons (one : Reader α) (more : Reader (List α)) : Reader (List α) :=
  one.andThen fun a => more.andThen fun as => done (a :: as)

theorem Reader.Anticipates.cons {one one' : Reader α} {more more' : Reader (List α)}
    (h : one.Anticipates one') (hmore : more.Anticipates more') :
    (one.cons more).Anticipates (one'.cons more') :=
  h.andThen fun a => hmore.andThen fun as => isPrompt_done (a :: as)

theorem readTimes_succ (one : Reader α) (n : Nat) :
    readTimes one (n + 1) = one.cons (readTimes one n) := by
  funext s
  rw [readTimes, Reader.cons, Reader.andThen]
  cases one s with
  | error failure => rfl
  | ok field =>
    simp only [Reader.andThen]
    cases readTimes one n field.2 <;> rfl

theorem readUntilStop_succ {one : Reader α} {s : Octets} (h : s.head? ≠ some stopOctet)
    (bound : Nat) : readUntilStop one (bound + 1) s = one.cons (readUntilStop one bound) s := by
  rw [readUntilStop, if_neg h, Reader.cons, Reader.andThen]
  cases one s with
  | error failure => rfl
  | ok field =>
    simp only [Reader.andThen]
    cases readUntilStop one bound field.2 <;> rfl

section Sequences

variable {one : Reader α} (hone : one.IsPrompt)
include hone

theorem isPrompt_readTimes (n : Nat) : (readTimes one n).IsPrompt := by
  induction n with
  | zero => exact isPrompt_done _
  | succ n ih =>
    rw [readTimes_succ]
    exact Anticipates.cons hone ih

theorem isPrompt_readPair : (readPair one).IsPrompt := by
  have heq : readPair one = one.andThen fun a => one.andThen fun b => done (a, b) := by
    funext s
    rw [readPair, Reader.andThen]
    cases one s with
    | error failure => rfl
    | ok field =>
      simp only [Reader.andThen]
      cases one field.2 <;> rfl
  rw [heq]
  exact hone.andThen fun a => hone.andThen fun b => isPrompt_done (a, b)

variable (hnil : one [] = .error .truncated)
include hnil

/-- **Values up to a stop** are read alike, if there is no value where there is
no octet: then the stop is looked for at an octet that is there. -/
theorem anticipates_readUntilStop {bound bound' : Nat} (hle : bound ≤ bound') :
    (readUntilStop one bound).Anticipates (readUntilStop one bound') := by
  induction bound generalizing bound' with
  | zero => exact anticipates_of_truncated fun s => rfl
  | succ bound ih =>
    obtain ⟨bound', rfl⟩ := Nat.exists_eq_add_one.2 (Nat.lt_of_lt_of_le bound.succ_pos hle)
    intro s t hs
    by_cases hstop : s.head? = some stopOctet
    · obtain ⟨s, rfl⟩ := List.head?_eq_some_iff.1 hstop
      rfl
    · rw [readUntilStop_succ hstop] at hs ⊢
      have happend : (s ++ t).head? ≠ some stopOctet := by
        cases s with
        | nil =>
          -- a first value is read, so there is a first octet
          refine absurd ?_ hs
          rw [Reader.cons, Reader.andThen, hnil]
        | cons b s => exact hstop
      rw [readUntilStop_succ happend]
      exact Anticipates.cons hone (ih (Nat.le_of_succ_le_succ hle)) s t hs

theorem isPrompt_readMany (length : Option Nat) : (readMany one length).IsPrompt := by
  cases length with
  | some n => exact isPrompt_readTimes hone n
  | none =>
    intro s t hs
    have hle : s.length ≤ (s ++ t).length := by simp
    exact anticipates_readUntilStop hone hnil hle s t hs

end Sequences

/-! ## Items -/

/-- The integer that a tag makes of a byte string of `n` octets. -/
def readBignum (tag n : Nat) : Reader Item :=
  (take n).andThen fun digits =>
    match bignum tag digits.value with
    | .error failure => fail failure
    | .ok v => done (.integer v)

/-- What a tag asks for: an integer if the head after it makes one, and
otherwise an item, which begins with that head. -/
def readAfterTag (inner : Option (Reader Item)) (tag : Nat) : Reader Item :=
  Head.read.peek (fun next => (bignumLength? tag next).map (readBignum tag))
    (match inner with
    | none => fail .tooDeep
    | some one => one.andThen fun item => done (.tagged tag item))

/-- **What a head asks for**, when the items of containers are read by
`inner`. -/
def readAfterHead (inner : Option (Reader Item)) : Head → Reader Item
  | .unsigned n => done (.integer n)
  | .negative n => done (.integer (-1 - n))
  | .string kind length =>
    (readString kind length).andThen fun content => done (.string kind content)
  | .array length =>
    match inner with
    | none => fail .tooDeep
    | some one => (readMany one length).andThen fun items => done (.array items)
  | .map length =>
    match inner with
    | none => fail .tooDeep
    | some one => (readMany (readPair one) length).andThen fun pairs => done (.map pairs)
  | .tag tag => readAfterTag inner tag
  | .simple n => if isKnownSimple n then done (.simple n) else fail .invalid
  | .float bits => done (.float bits)
  | .stop => fail .invalid

/-- **An item is a head and what it asks for.** -/
theorem readItemWith_eq (inner : Option (Reader Item)) :
    readItemWith inner = Head.read.andThen (readAfterHead inner) := by
  funext s
  unfold readItemWith Reader.andThen
  cases Head.read s with
  | error failure => rfl
  | ok field =>
    obtain ⟨head, rest⟩ := field
    cases head with
    | string kind length =>
      simp only [readAfterHead, Reader.andThen]
      cases readString kind length rest <;> rfl
    | array length =>
      cases inner with
      | none => rfl
      | some one =>
        simp only [readAfterHead, Reader.andThen]
        cases readMany one length rest <;> rfl
    | map length =>
      cases inner with
      | none => rfl
      | some one =>
        simp only [readAfterHead, Reader.andThen]
        cases readMany (readPair one) length rest <;> rfl
    | tag tag =>
      simp only [readAfterHead, readAfterTag, Reader.peek]
      cases Head.read rest with
      | error failure => rfl
      | ok field =>
        obtain ⟨next, afterNext⟩ := field
        dsimp only
        cases bignumLength? tag next with
        | some n =>
          simp only [Option.map_some, readBignum, Reader.andThen]
          cases take n afterNext with
          | error failure => rfl
          | ok field =>
            dsimp only
            cases bignum tag field.1.value <;> rfl
        | none =>
          -- the item begins where the head after the tag does
          cases inner with
          | none => rfl
          | some one =>
            simp only [Option.map_none, Reader.andThen]
            cases one rest <;> rfl
    | simple n =>
      simp only [readAfterHead]
      split <;> rfl
    | _ => rfl

theorem isPrompt_readBignum (tag n : Nat) : (readBignum tag n).IsPrompt := by
  refine (isPrompt_take n).andThen fun digits => ?_
  split
  · exact isPrompt_fail _
  · exact isPrompt_done _

/-- There is no item where there is no octet. -/
theorem readItem_nil (depth : Nat) : readItem depth [] = .error .truncated := by
  cases depth <;> rfl

/-- **Reading an item is prompt** if reading the items in it is. -/
theorem isPrompt_readItemWith {inner : Option (Reader Item)}
    (hinner : ∀ one ∈ inner, one.IsPrompt ∧ one [] = .error .truncated) :
    (readItemWith inner).IsPrompt := by
  rw [readItemWith_eq]
  refine Head.isPrompt_read.andThen fun head => ?_
  cases head with
  | unsigned n | negative n | float bits => exact isPrompt_done _
  | stop => exact isPrompt_fail _
  | string kind length =>
    exact (isPrompt_readString kind length).andThen fun content => isPrompt_done _
  | array length =>
    cases inner with
    | none => exact isPrompt_fail _
    | some one =>
      obtain ⟨hone, hnil⟩ := hinner one rfl
      exact (isPrompt_readMany hone hnil length).andThen fun items => isPrompt_done _
  | map length =>
    cases inner with
    | none => exact isPrompt_fail _
    | some one =>
      obtain ⟨hone, hnil⟩ := hinner one rfl
      have hpair : readPair one [] = .error .truncated := by rw [readPair, hnil]
      exact (isPrompt_readMany (isPrompt_readPair hone) hpair length).andThen
        fun pairs => isPrompt_done _
  | tag tag =>
    refine Head.isPrompt_read.peek (fun next reader hreader => ?_) ?_
    · obtain ⟨n, -, rfl⟩ := Option.map_eq_some_iff.1 hreader
      exact isPrompt_readBignum tag n
    · cases inner with
      | none => exact isPrompt_fail _
      | some one => exact (hinner one rfl).1.andThen fun item => isPrompt_done _
  | simple n =>
    simp only [readAfterHead]
    split
    · exact isPrompt_done _
    · exact isPrompt_fail _

/-- **Reading an item is prompt**, at every depth. -/
theorem isPrompt_readItem (depth : Nat) : (readItem depth).IsPrompt := by
  induction depth with
  | zero => exact isPrompt_readItemWith fun one hone => absurd hone (Option.not_mem_none one)
  | succ depth ih =>
    refine isPrompt_readItemWith fun one hone => ?_
    obtain rfl := Option.mem_some_iff.1 hone
    exact ⟨ih, readItem_nil depth⟩

theorem isPrompt_read : read.IsPrompt := isPrompt_readItem maxDepth

end KeyForms.Cbor
