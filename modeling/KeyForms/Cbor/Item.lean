import KeyForms.Cbor.Head

/-!
# CBOR items

An item is a number, a string, a simple value, or a container of items.
`Cbor.readItem` takes one item from the front of an octet string and reads
nothing beyond it; whatever goes wrong first, from left to right, is the
failure that is reported.

Three rules go beyond the plain format.

* Arrays, maps and tags may be nested to a depth that the reader is given;
  entering one more is `Failure.tooDeep`. Strings do not count.
* An indefinite string is made of chunks, each of which may itself be
  indefinite. Its end is the stop that belongs to it.
* A tag 2 or 3 in front of a short byte string makes an integer, and does not
  count as a tag. For every other tag the head of the tagged item is read
  before the depth is looked at.

The reader of a container takes the reader of its items as an argument, or
`none` where no container may be entered. So the depth is the only thing that
`readItem` recurses on.
-/

namespace KeyForms.Cbor

/-- **A CBOR item.** -/
inductive Item where
  /-- An integer, written with or without a tag. -/
  | integer (n : Int)
  /-- A string of either kind, its chunks joined. -/
  | string (kind : StringKind) (content : Octets)
  /-- An array. -/
  | array (items : List Item)
  /-- A map, its pairs in the order in which they are written. -/
  | map (pairs : List (Item × Item))
  /-- A tagged item. -/
  | tagged (tag : Nat) (item : Item)
  /-- False, true, null or undefined. -/
  | simple (n : Nat)
  /-- A floating-point number, by its bits. -/
  | float (bits : Nat)

/-! ## Strings -/

/-- Whether octets are a string of a kind: a text is UTF-8. -/
def StringKind.accepts : StringKind → Octets → Bool
  | .octets, _ => true
  | .text, s => s.toByteArray.validateUTF8

/-- A string, or a chunk of one, of a stated length. Its octets must all be
there before they are looked at. -/
def readChunk (kind : StringKind) (n : Nat) : Reader Octets := fun s =>
  match take n s with
  | .error failure => .error failure
  | .ok (content, rest) =>
    if kind.accepts content then .ok (content, rest) else .error .illFormed

/-- **The chunks of an indefinite string**, joined, up to its stop. `unstopped`
counts the indefinite chunks that are not yet stopped. Every step takes an
octet, so `bound` steps are enough for as many octets. -/
def readChunks (kind : StringKind) : Nat → Nat → Reader Octets
  | 0, _, _ => .error .truncated
  | bound + 1, unstopped, s =>
    match Head.read s with
    | .error failure => .error failure
    | .ok (.stop, rest) =>
      match unstopped with
      | 0 => .ok ([], rest)
      | unstopped + 1 => readChunks kind bound unstopped rest
    | .ok (.string kind' none, rest) =>
      if kind' = kind then readChunks kind bound (unstopped + 1) rest
      else .error .illFormed
    | .ok (.string kind' (some n), rest) =>
      if kind' = kind then
        match readChunk kind n rest with
        | .error failure => .error failure
        | .ok (chunk, rest) =>
          match readChunks kind bound unstopped rest with
          | .error failure => .error failure
          | .ok (chunks, rest) => .ok (chunk ++ chunks, rest)
      else .error .illFormed
    | .ok (_, _) => .error .illFormed

/-- The content of a string whose head has been read. -/
def readString (kind : StringKind) : Option Nat → Reader Octets
  | some n, s => readChunk kind n s
  | none, s => readChunks kind s.length 0 s

/-! ## Sequences -/

/-- `n` values, one after the other. -/
def readTimes {α : Type} (one : Reader α) : Nat → Reader (List α)
  | 0, s => .ok ([], s)
  | n + 1, s =>
    match one s with
    | .error failure => .error failure
    | .ok (a, rest) =>
      match readTimes one n rest with
      | .error failure => .error failure
      | .ok (as, rest) => .ok (a :: as, rest)

/-- The initial octet of a stop. -/
def stopOctet : UInt8 := 0xff

/-- Values up to a stop, at most `bound` of them. -/
def readUntilStop {α : Type} (one : Reader α) : Nat → Reader (List α)
  | 0, _ => .error .truncated
  | bound + 1, s =>
    if s.head? = some stopOctet then .ok ([], s.tail)
    else
      match one s with
      | .error failure => .error failure
      | .ok (a, rest) =>
        match readUntilStop one bound rest with
        | .error failure => .error failure
        | .ok (as, rest) => .ok (a :: as, rest)

/-- **The values of a container**: as many as its head says, or up to its
stop. -/
def readMany {α : Type} (one : Reader α) : Option Nat → Reader (List α)
  | some n, s => readTimes one n s
  | none, s => readUntilStop one s.length s

/-- Two values, one after the other. -/
def readPair {α : Type} (one : Reader α) : Reader (α × α) := fun s =>
  match one s with
  | .error failure => .error failure
  | .ok (a, rest) =>
    match one rest with
    | .error failure => .error failure
    | .ok (b, rest) => .ok ((a, b), rest)

/-! ## Integers with a tag -/

/-- The longest byte string that a tag turns into an integer. -/
def bignumMaxLength : Nat := 16

/-- The length of the byte string, when a tag and the head after it make an
integer. -/
def bignumLength? (tag : Nat) (next : Head) : Option Nat :=
  match next with
  | .string .octets (some n) =>
    if (tag = 2 ∨ tag = 3) ∧ n ≤ bignumMaxLength then some n else none
  | _ => none

/-- **The integer of a tag and the value of its byte string**: `v` for tag 2
and `-1 - v` for tag 3, which has to stay within 128 bits. -/
def bignum (tag v : Nat) : Except Failure Int :=
  if tag = 2 then .ok v
  else if v < 0x80000000000000000000000000000000 then .ok (-1 - v)
  else .error .invalid

/-! ## Items -/

/-- Whether a simple value has a meaning: false, true, null, undefined. -/
def isKnownSimple (n : Nat) : Bool := 20 ≤ n && n ≤ 23

/-- **One item**, its containers' items being read by `inner`. Where `inner` is
missing no container may be entered. -/
def readItemWith (inner : Option (Reader Item)) : Reader Item := fun s =>
  match Head.read s with
  | .error failure => .error failure
  | .ok (.unsigned n, rest) => .ok (.integer n, rest)
  | .ok (.negative n, rest) => .ok (.integer (-1 - n), rest)
  | .ok (.string kind length, rest) =>
    match readString kind length rest with
    | .error failure => .error failure
    | .ok (content, rest) => .ok (.string kind content, rest)
  | .ok (.array length, rest) =>
    match inner with
    | none => .error .tooDeep
    | some one =>
      match readMany one length rest with
      | .error failure => .error failure
      | .ok (items, rest) => .ok (.array items, rest)
  | .ok (.map length, rest) =>
    match inner with
    | none => .error .tooDeep
    | some one =>
      match readMany (readPair one) length rest with
      | .error failure => .error failure
      | .ok (pairs, rest) => .ok (.map pairs, rest)
  | .ok (.tag tag, rest) =>
    match Head.read rest with
    | .error failure => .error failure
    | .ok (next, afterNext) =>
      match bignumLength? tag next with
      | some n =>
        match take n afterNext with
        | .error failure => .error failure
        | .ok (digits, rest) =>
          match bignum tag digits.value with
          | .error failure => .error failure
          | .ok v => .ok (.integer v, rest)
      | none =>
        match inner with
        | none => .error .tooDeep
        | some one =>
          match one rest with
          | .error failure => .error failure
          | .ok (item, rest) => .ok (.tagged tag item, rest)
  | .ok (.simple n, rest) =>
    if isKnownSimple n then .ok (.simple n, rest) else .error .invalid
  | .ok (.float bits, rest) => .ok (.float bits, rest)
  | .ok (.stop, _) => .error .invalid

/-- **One item at the front** of an octet string, with at most `depth`
containers open at a time. -/
def readItem : Nat → Reader Item
  | 0 => readItemWith none
  | depth + 1 => readItemWith (some (readItem depth))

/-- The depth to which containers may be nested. -/
def maxDepth : Nat := 256

/-- One item at the front of an octet string. -/
def read : Reader Item := readItem maxDepth

end KeyForms.Cbor
