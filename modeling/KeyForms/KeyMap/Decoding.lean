import KeyForms.Cbor.Item
import KeyForms.Error
import KeyForms.KeyMap.Basic

/-!
# Reading key maps

A key map is read from octets that are exactly one CBOR map. Not every pair
of that map is an entry: a pair is kept when its label is a 64-bit integer
and its value is a 64-bit integer or a byte string, and is skipped otherwise.
`Reading.ofItems` says which, for one pair and by itself.

The kept pairs are entered from left to right. A label that was entered
before ends the reading with an error; a skipped pair neither enters a label
nor repeats one. What was skipped up to the end, or up to the error, is part
of the answer (`KeyMap.Loading`), because it is reported.
-/

namespace KeyForms

/-- The 64-bit integer equal to an integer, if there is one. -/
def int64? (n : Int) : Option Int64 :=
  if (Int64.ofInt n).toInt = n then some (Int64.ofInt n) else none

/-- **Why a pair is not an entry.** -/
inductive Skip where
  /-- Its label is not a 64-bit integer. -/
  | label
  /-- Its value is an integer of up to 64 bits and a sign, and too large. -/
  | wideInteger (label : Int64)
  /-- Its value is neither an integer nor a byte string. -/
  | value (label : Int64)
deriving DecidableEq

/-- **What a pair of items is to a key map**: an entry, or nothing. -/
inductive Reading where
  /-- An entry. -/
  | kept (label : Int64) (value : Parameter)
  /-- No entry. -/
  | skipped (why : Skip)
deriving DecidableEq

namespace Reading

/-- The label that an item is, if it is one. -/
def label? : Cbor.Item → Option Int64
  | .integer n => int64? n
  | _ => none

/-- Whether an integer is one of those that are written without a tag. -/
def isPlain (n : Int) : Bool := -0x10000000000000000 ≤ n && n < 0x10000000000000000

/-- What a pair is whose label is known. -/
def ofValue (label : Int64) : Cbor.Item → Reading
  | .integer n =>
    match int64? n with
    | some n => .kept label (.integer n)
    | none => .skipped (if isPlain n then .wideInteger label else .value label)
  | .string .octets s => .kept label (.octets s)
  | _ => .skipped (.value label)

/-- **What a pair of items is.** -/
def ofItems (pair : Cbor.Item × Cbor.Item) : Reading :=
  match label? pair.1 with
  | none => .skipped .label
  | some label => ofValue label pair.2

end Reading

namespace KeyMap

/-- **The outcome of reading a key map**: the pairs that were skipped, and the
key map or the reason why there is none. -/
structure Loading where
  /-- Why pairs were skipped, in their order. -/
  skipped : List Skip
  /-- The key map. -/
  key : Except KeyError KeyMap

/-- **Enter pairs into a key map**, from left to right. -/
def enter (key : KeyMap) : List (Cbor.Item × Cbor.Item) → Loading
  | [] => ⟨[], .ok key⟩
  | pair :: pairs =>
    match Reading.ofItems pair with
    | .skipped why =>
      let later := enter key pairs
      ⟨why :: later.skipped, later.key⟩
    | .kept label value =>
      if (key.get? label).isSome then ⟨[], .error (.malformed (.duplicate label))⟩
      else enter (key.insert label value) pairs

/-- **The pairs of octets that are exactly one CBOR map.** Failing to read an
item comes before octets left over, and these before an item that is no
map. -/
def pairsOf (s : Octets) : Except KeyError (List (Cbor.Item × Cbor.Item)) :=
  match Cbor.read s with
  | .error failure => .error (.malformed (.cbor failure))
  | .ok (_, first :: rest) => .error (.malformed (.trailing (first :: rest).length))
  | .ok (.map pairs, []) => .ok pairs
  | .ok (_, []) => .error (.malformed .notMap)

/-- **Read a key map.** -/
def load (s : Octets) : Loading :=
  match pairsOf s with
  | .error error => ⟨[], .error error⟩
  | .ok pairs => enter empty pairs

/-- The key map that octets encode. -/
def decode (s : Octets) : Except KeyError KeyMap := (load s).key

end KeyMap

end KeyForms
