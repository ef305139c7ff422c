import KeyForms.Octets

/-!
# Heads of CBOR items

A CBOR item begins with a head: three bits of major type, five bits of
further information, and up to eight octets of argument. What an item is, and
how much of it follows, is all in the head.

`Head.read` takes a head from the front of an octet string and says which
(`Cbor.Head`). An argument may be written wider than it needs to be.
`encodeHead` goes the other way and always writes the shortest one.
-/

namespace KeyForms.Cbor

/-- **Why octets are not read as an item.** -/
inductive Failure where
  /-- The octets end inside the item. -/
  | truncated
  /-- The octets are not well-formed: no item is written like this. -/
  | illFormed
  /-- The octets are well-formed so far, and an item was expected where there
  is a value that has no meaning here. -/
  | invalid
  /-- Arrays, maps and tags are nested too deeply. -/
  | tooDeep
deriving DecidableEq

/-- The two kinds of string. -/
inductive StringKind where
  /-- A byte string. -/
  | octets
  /-- A text string, whose octets are UTF-8. -/
  | text
deriving DecidableEq

/-- **A head.** Where a length is `none` it is indefinite, and the item goes
on until it is stopped. -/
inductive Head where
  /-- The integer `n`. -/
  | unsigned (n : Nat)
  /-- The integer `-1 - n`. -/
  | negative (n : Nat)
  /-- A string of this many octets. -/
  | string (kind : StringKind) (length : Option Nat)
  /-- An array of this many items. -/
  | array (length : Option Nat)
  /-- A map of this many pairs. -/
  | map (length : Option Nat)
  /-- A tag on the item that follows. -/
  | tag (n : Nat)
  /-- A simple value. -/
  | simple (n : Nat)
  /-- A floating-point number, by its bits. -/
  | float (bits : Nat)
  /-- The end of an item of indefinite length. -/
  | stop
deriving DecidableEq

/-- A reader takes a value from the front of an octet string and leaves what
follows it. -/
abbrev Reader (α : Type) := Octets → Except Failure (α × Octets)

/-- The next `n` octets. -/
def take (n : Nat) : Reader Octets := fun s =>
  match Octets.splitAt? n s with
  | some field => .ok field
  | none => .error .truncated

/-- The number of octets an argument takes when it does not fit into the
initial octet. -/
def argumentWidth (info : Nat) : Nat :=
  if info = 24 then 1 else if info = 25 then 2 else if info = 26 then 4 else 8

/-- **The argument of a head** with the given further information, or `none`
for an indefinite length. -/
def readArgument (info : Nat) : Reader (Option Nat) := fun s =>
  if info < 24 then .ok (some info, s)
  else if info < 28 then
    match take (argumentWidth info) s with
    | .ok (digits, rest) => .ok (some digits.value, rest)
    | .error failure => .error failure
  else if info = 31 then .ok (none, s)
  else .error .illFormed

/-- The head with a major type, further information and argument. Integers
and tags have an argument always. -/
def Head.ofParts? (major info : Nat) (argument : Option Nat) : Option Head :=
  match major, argument with
  | 0, some n => some (.unsigned n)
  | 1, some n => some (.negative n)
  | 2, length => some (.string .octets length)
  | 3, length => some (.string .text length)
  | 4, length => some (.array length)
  | 5, length => some (.map length)
  | 6, some n => some (.tag n)
  | 7, some n => some (if info ≤ 24 then .simple n else .float n)
  | 7, none => some .stop
  | _, _ => none

/-- **The head at the front of an octet string.** -/
def Head.read : Reader Head
  | [] => .error .truncated
  | initial :: s =>
    let major := initial.toNat / 32
    let info := initial.toNat % 32
    match readArgument info s with
    | .error failure => .error failure
    | .ok (argument, rest) =>
      match Head.ofParts? major info argument with
      | some head => .ok (head, rest)
      | none => .error .illFormed

/-! ## Writing -/

/-- The initial octet of a head. -/
def initialOctet (major info : Nat) : UInt8 := UInt8.ofNat (32 * major + info)

/-- **The shortest head** with a major type and an argument below `2^64`. -/
def encodeHead (major n : Nat) : Octets :=
  if n < 24 then [initialOctet major n]
  else if n < 0x100 then initialOctet major 24 :: Octets.ofNat 1 n
  else if n < 0x10000 then initialOctet major 25 :: Octets.ofNat 2 n
  else if n < 0x100000000 then initialOctet major 26 :: Octets.ofNat 4 n
  else initialOctet major 27 :: Octets.ofNat 8 n

/-- An integer. -/
def encodeInteger (n : Int) : Octets :=
  if 0 ≤ n then encodeHead 0 n.toNat else encodeHead 1 (-1 - n).toNat

/-- A byte string. -/
def encodeOctets (s : Octets) : Octets := encodeHead 2 s.length ++ s

/-- The head of a map of `size` pairs. -/
def encodeMapHead (size : Nat) : Octets := encodeHead 5 size

/-! ## A reader consumes -/

/-- A field is a prefix of what it was taken from. -/
theorem take_eq_ok_iff {n : Nat} {s front rest : Octets} :
    take n s = .ok (front, rest) ↔ front.length = n ∧ s = front ++ rest := by
  rw [← Octets.splitAt?_eq_some_iff]
  unfold take
  split <;> simp_all

/-- Reading an argument leaves no more than there was. -/
theorem length_le_of_readArgument {info : Nat} {s rest : Octets} {argument : Option Nat}
    (h : readArgument info s = .ok (argument, rest)) : rest.length ≤ s.length := by
  unfold readArgument at h
  split at h
  · cases h
    exact Nat.le_refl _
  · split at h
    · split at h
      · rename_i htake
        cases h
        obtain ⟨-, rfl⟩ := take_eq_ok_iff.1 htake
        simp
      · contradiction
    · split at h
      · cases h
        exact Nat.le_refl _
      · contradiction

/-- **Every head takes at least one octet.** -/
theorem Head.length_lt_of_read {s rest : Octets} {head : Head}
    (h : Head.read s = .ok (head, rest)) : rest.length < s.length := by
  cases s with
  | nil => contradiction
  | cons initial s =>
    simp only [Head.read] at h
    split at h
    · contradiction
    · rename_i hargument
      have := length_le_of_readArgument hargument
      split at h
      · cases h
        simp only [List.length_cons]
        omega
      · contradiction

end KeyForms.Cbor
