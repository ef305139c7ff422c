import KeyForms.KeyMap.Encoding
import KeyForms.Proofs.Cbor.RoundTrip
import KeyForms.Proofs.KeyMap.Entering

/-!
# Written key maps are read back

Reading undoes writing, for every key map there is: the same labels have the
same values, an integer stays an integer and a byte string a byte string, and
no pair is skipped on the way (`KeyMap.load_encode`).

The argument has three parts, one for each layer of the reader. The octets
are one CBOR map with nothing after it, and its pairs are the entries
(`KeyMap.pairsOf_encode`). Each pair is kept and is the entry it was written
from (`Reading.ofItems_items`). And the labels of a key map are different, so
entering them meets no duplicate.

A head has room for lengths below `2^64`, which is also as far as lengths go
on a machine with addresses of 64 bits. A list has no such bound by itself,
so it is stated here (`KeyMap.Fits`).
-/

namespace KeyForms

/-- **A value that has a written form**: a byte string is short enough for its
length to be written. -/
def Parameter.Fits : Parameter → Prop
  | .integer _ => True
  | .octets s => s.length < Cbor.argumentBound

instance (value : Parameter) : Decidable value.Fits := by
  cases value with
  | integer _ => exact instDecidableTrue
  | octets s => exact Nat.decLt s.length Cbor.argumentBound

/-- **A key map that has a written form**: the number of its entries can be
written, and so can every value. -/
structure KeyMap.Fits (key : KeyMap) : Prop where
  /-- The number of entries can be written. -/
  size_lt : key.size < Cbor.argumentBound
  /-- The values can be written. -/
  fits : ∀ entry ∈ key.entries, entry.2.Fits

/-! ## Entries as items -/

/-- The item that a value is written as. -/
def Parameter.item : Parameter → Cbor.Item
  | .integer n => .integer n.toInt
  | .octets s => .string .octets s

/-- The pair of items that an entry is written as. -/
def KeyEntry.items (entry : KeyEntry) : Cbor.Item × Cbor.Item :=
  (.integer entry.1.toInt, entry.2.item)

/-- A 64-bit integer is found again among all integers. -/
@[simp] theorem int64?_toInt (n : Int64) : int64? n.toInt = some n := by
  rw [int64?, Int64.ofInt_toInt, if_pos rfl]

/-- **An entry is kept**, with the label and the value that it has. -/
theorem Reading.ofItems_items (entry : KeyEntry) :
    Reading.ofItems entry.items = .kept entry.1 entry.2 := by
  obtain ⟨label, value⟩ := entry
  cases value with
  | integer n => simp only [ofItems, KeyEntry.items, Parameter.item, label?, int64?_toInt, ofValue]
  | octets s => simp only [ofItems, KeyEntry.items, Parameter.item, label?, int64?_toInt, ofValue]

theorem KeyMap.entriesOf_map_items (entries : List KeyEntry) :
    entriesOf (entries.map KeyEntry.items) = entries := by
  induction entries with
  | nil => rfl
  | cons entry entries ih =>
    rw [List.map_cons, entriesOf_cons, Reading.ofItems_items, ih]
    rfl

theorem KeyMap.skipsOf_map_items (entries : List KeyEntry) :
    skipsOf (entries.map KeyEntry.items) = [] := by
  induction entries with
  | nil => rfl
  | cons entry entries ih =>
    rw [List.map_cons, skipsOf_cons, Reading.ofItems_items, ih]
    rfl

/-! ## Octets as items -/

theorem Cbor.readItem_encode (depth : Nat) {value : Parameter} (h : value.Fits) (s : Octets) :
    readItem depth (value.encode ++ s) = .ok (value.item, s) := by
  cases value with
  | integer n => exact readItem_encodeInteger depth n s
  | octets content => exact readItem_encodeOctets depth h s

namespace KeyMap

variable {key : KeyMap}

/-- **A written key map is one CBOR map of its entries**, and nothing follows
it. -/
theorem pairsOf_encode (h : key.Fits) :
    pairsOf key.encode = .ok (key.entries.map KeyEntry.items) := by
  have hpair : ∀ entry ∈ key.entries, ∀ s,
      Cbor.readPair (Cbor.readItem 255) (KeyEntry.encode entry ++ s) = .ok (entry.items, s) :=
    fun entry hentry => Cbor.readPair_append (Cbor.readItem_encodeInteger 255 entry.1)
      (Cbor.readItem_encode 255 (h.fits entry hentry))
  have htimes := Cbor.readTimes_flatMap hpair []
  rw [List.append_nil] at htimes
  exact pairsOf_eq_ok_iff.2
    (Cbor.readItemWith_encodeMapHead (Cbor.readItem 255) h.size_lt htimes)

/-- **Setting the labels of a key map, one after the other, gives it back.** -/
theorem insertAll_entries (key : KeyMap) : empty.insertAll key.entries = key := by
  refine ext_get? fun label => ?_
  rw [get?_insertAll empty key.inOrder.nodup, get?_empty, Option.or_none]
  rfl

/-- Entering the entries of a key map gives the key map. -/
theorem enter_items (key : KeyMap) :
    enter empty (key.entries.map KeyEntry.items) = ⟨[], .ok key⟩ := by
  have hnodup := key.inOrder.nodup
  rw [← entriesOf_map_items key.entries] at hnodup
  rw [enter_of_nodup hnodup fun _ _ => rfl, entriesOf_map_items, skipsOf_map_items,
    insertAll_entries]

theorem decode_encode (h : key.Fits) : decode key.encode = .ok key := by
  rw [decode, load, pairsOf_encode h]
  exact congrArg Loading.key (enter_items key)

/-- **Reading undoes writing.** What is read from the octets of a key map is
that key map, label by label and value by value, and nothing was skipped or
taken for a duplicate. -/
theorem load_encode (h : key.Fits) : load key.encode = ⟨[], .ok key⟩ := by
  rw [load, pairsOf_encode h]
  exact enter_items key

/-- A key map with a label on each side of every width that a head can have,
and byte strings of as many lengths. -/
def widths : KeyMap :=
  empty |>.insert 0 (.integer (-1)) |>.insert 23 (.integer (-24)) |>.insert 24 (.integer (-25))
    |>.insert 255 (.octets (List.replicate 23 0)) |>.insert 256 (.octets (List.replicate 24 1))
    |>.insert 65535 (.octets (List.replicate 255 2))
    |>.insert 65536 (.octets (List.replicate 256 3))
    |>.insert 0xffffffff (.octets []) |>.insert 0x100000000 (.integer 0x7fffffffffffffff)
    |>.insert 0x7fffffffffffffff (.integer (-0x8000000000000000)) |>.insert (-1) (.integer 0)
    |>.insert (-24) (.integer 23) |>.insert (-25) (.integer 24)
    |>.insert (-256) (.integer 255) |>.insert (-257) (.integer 256)
    |>.insert (-0x8000000000000000) (.integer 65536)

theorem load_encode_widths :
    widths.size = 16 ∧ widths.get? 65536 = some (.octets (List.replicate 256 3))
      ∧ load widths.encode = ⟨[], .ok widths⟩ :=
  ⟨by decide +kernel, by decide +kernel, load_encode ⟨by decide +kernel, by decide +kernel⟩⟩

end KeyMap

end KeyForms
