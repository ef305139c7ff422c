import Mathlib.Data.List.Perm.Basic
import KeyForms.Proofs.KeyMap.RoundTrip

/-!
# The pairs that are kept

What is read from the pairs of a map is decided by the kept ones among them.
A pair is kept when it is the pair that some entry is written as
(`KeyMap.IsKept`), and the rest may be thought away: skipped pairs enter no
label, and repeat none.

If no two kept pairs have one label, the entries of the key map are the kept
pairs in another order (`KeyMap.ofPairs_eq_ok_iff`), so the order in which the
pairs stand leaves no trace. If two have, there is a first pair whose label
was kept before it (`KeyMap.exists_first_repeat`), and reading ends there.
-/

namespace KeyForms

/-! ## Kept pairs -/

theorem int64?_eq_some_iff {n : Int} {k : Int64} : int64? n = some k ↔ n = k.toInt := by
  constructor
  · intro h
    unfold int64? at h
    split at h
    · cases h
      exact Eq.symm (by assumption)
    · cases h
  · rintro rfl
    exact int64?_toInt k

namespace Reading

theorem label?_eq_some_iff {item : Cbor.Item} {label : Int64} :
    label? item = some label ↔ item = .integer label.toInt := by
  cases item with
  | integer n =>
    rw [label?, int64?_eq_some_iff, Cbor.Item.integer.injEq]
  | _ => simp [label?]

theorem ofValue_eq_kept_iff {label l : Int64} {item : Cbor.Item} {value : Parameter} :
    ofValue label item = .kept l value ↔ label = l ∧ item = value.item := by
  cases item with
  | integer n =>
    cases hn : int64? n with
    | none =>
      have hne : ∀ k : Int64, n ≠ k.toInt := by
        intro k hk
        rw [int64?_eq_some_iff.2 hk] at hn
        cases hn
      cases value <;> simp [ofValue, hn, Parameter.item, hne]
    | some k =>
      obtain rfl := int64?_eq_some_iff.1 hn
      cases value <;> simp [ofValue, Parameter.item, Int64.toInt_inj]
  | string kind s => cases kind <;> cases value <;> simp [ofValue, Parameter.item]
  | _ => cases value <;> simp [ofValue, Parameter.item]

/-- **A pair is kept as an entry** exactly when the entry is written as that
pair. -/
theorem ofItems_eq_kept_iff {pair : Cbor.Item × Cbor.Item} {label : Int64}
    {value : Parameter} :
    ofItems pair = .kept label value ↔ pair = KeyEntry.items (label, value) := by
  constructor
  · intro h
    obtain ⟨first, second⟩ := pair
    unfold ofItems at h
    split at h
    · cases h
    · rename_i label' hlabel
      obtain rfl := label?_eq_some_iff.1 hlabel
      obtain ⟨rfl, rfl⟩ := ofValue_eq_kept_iff.1 h
      rfl
  · rintro rfl
    exact ofItems_items (label, value)

theorem kept?_ofItems_eq_some_iff {pair : Cbor.Item × Cbor.Item} {entry : KeyEntry} :
    (ofItems pair).kept? = some entry ↔ pair = entry.items := by
  rw [← ofItems_eq_kept_iff]
  cases ofItems pair with
  | kept label value => simp [kept?, Prod.ext_iff]
  | skipped why => simp [kept?]

end Reading

/-- Among entries with different labels, the one with a label gives its
value. -/
theorem KeyEntry.find?_eq_some_iff {entries : List KeyEntry} {label : Int64}
    {value : Parameter} (h : (entries.map Prod.fst).Nodup) :
    find? label entries = some value ↔ (label, value) ∈ entries := by
  induction entries with
  | nil => simp [find?]
  | cons e entries ih =>
    obtain ⟨l, v⟩ := e
    obtain ⟨hl, htail⟩ := List.nodup_cons.1 h
    rw [find?, List.mem_cons]
    split
    · rename_i heq
      subst heq
      have hnot : (l, value) ∉ entries := fun hmem => hl (List.mem_map.2 ⟨_, hmem, rfl⟩)
      simp [hnot, eq_comm]
    · rename_i hne
      simp [ih htail, Ne.symm hne]

namespace KeyMap

variable {key : KeyMap} {pairs : List (Cbor.Item × Cbor.Item)}

theorem get?_eq_some_iff {label : Int64} {value : Parameter} :
    key.get? label = some value ↔ (label, value) ∈ key.entries :=
  KeyEntry.find?_eq_some_iff key.inOrder.nodup

/-- **A pair that is kept**: its label is a 64-bit integer, and its value is a
64-bit integer or a byte string. -/
def IsKept (pair : Cbor.Item × Cbor.Item) : Prop :=
  ∃ entry : KeyEntry, pair = entry.items

theorem isKept_iff {pair : Cbor.Item × Cbor.Item} :
    IsKept pair ↔ (Reading.ofItems pair).kept?.isSome = true := by
  rw [Option.isSome_iff_exists]
  exact exists_congr fun entry => Reading.kept?_ofItems_eq_some_iff.symm

instance : DecidablePred IsKept := fun _ => decidable_of_iff _ isKept_iff.symm

/-- **No two kept pairs have the same label.** -/
def LabelsDiffer (pairs : List (Cbor.Item × Cbor.Item)) : Prop :=
  pairs.Pairwise fun p q => ∀ a b : KeyEntry, p = a.items → q = b.items → a.1 ≠ b.1

theorem labelsDiffer_iff : LabelsDiffer pairs ↔ ((entriesOf pairs).map Prod.fst).Nodup := by
  unfold LabelsDiffer entriesOf List.Nodup
  rw [List.pairwise_map, List.pairwise_filterMap]
  refine List.Pairwise.iff fun p q => ?_
  simp only [Reading.kept?_ofItems_eq_some_iff]
  exact ⟨fun h a ha b hb => h a b ha hb, fun h a b ha hb => h a ha b hb⟩

instance : DecidablePred LabelsDiffer := fun _ => decidable_of_iff _ labelsDiffer_iff.symm

/-- The order of the pairs does not matter. -/
theorem labelsDiffer_iff_of_perm {pairs' : List (Cbor.Item × Cbor.Item)} (h : pairs'.Perm pairs) :
    LabelsDiffer pairs' ↔ LabelsDiffer pairs := by
  have hentries : (entriesOf pairs').Perm (entriesOf pairs) := h.filterMap _
  rw [labelsDiffer_iff, labelsDiffer_iff, (hentries.map Prod.fst).nodup_iff]

theorem mem_entriesOf_iff {entry : KeyEntry} : entry ∈ entriesOf pairs ↔ entry.items ∈ pairs := by
  unfold entriesOf
  rw [List.mem_filterMap]
  simp only [Reading.kept?_ofItems_eq_some_iff, exists_eq_right]

theorem length_entriesOf (pairs : List (Cbor.Item × Cbor.Item)) :
    (entriesOf pairs).length = pairs.countP (IsKept ·) := by
  unfold entriesOf
  rw [List.length_filterMap_eq_countP]
  refine List.countP_congr fun pair _ => ?_
  rw [decide_eq_true_iff, isKept_iff]

/-! ## What is read from pairs -/

/-- **The key map of pairs of items**, or the error that their labels make. -/
def ofPairs (pairs : List (Cbor.Item × Cbor.Item)) : Except KeyError KeyMap :=
  (enter empty pairs).key

theorem decode_eq_ofPairs {s : Octets} (h : pairsOf s = .ok pairs) : decode s = ofPairs pairs := by
  rw [decode, load, h]
  rfl

/-- **The entries of a key map that is filled** are those it was filled with,
in another order. -/
theorem entries_insertAll_perm {entries : List KeyEntry} (h : (entries.map Prod.fst).Nodup) :
    (empty.insertAll entries).entries.Perm entries := by
  have hnodup := (empty.insertAll entries).inOrder.nodup
  refine (List.perm_ext_iff_of_nodup hnodup.of_map h.of_map).2 fun entry => ?_
  obtain ⟨label, value⟩ := entry
  rw [← get?_eq_some_iff, get?_insertAll empty h, get?_empty, Option.or_none,
    KeyEntry.find?_eq_some_iff h]

theorem eq_of_entries_perm {a b : KeyMap} (h : a.entries.Perm b.entries) : a = b := by
  refine ext_get? fun label => Option.ext fun value => ?_
  rw [get?_eq_some_iff, get?_eq_some_iff, h.mem_iff]

/-- **The first pair whose label was kept before ends the reading**, and nothing
after it is looked at. -/
theorem enter_of_repeat {before after : List (Cbor.Item × Cbor.Item)} {entry : KeyEntry}
    {value : Parameter} (h : LabelsDiffer before)
    (hbefore : KeyEntry.items (entry.1, value) ∈ before) :
    enter empty (before ++ entry.items :: after)
      = ⟨skipsOf before, .error (.malformed (.duplicate entry.1))⟩ := by
  have hnodup := labelsDiffer_iff.1 h
  have hvalue : (empty.insertAll (entriesOf before)).get? entry.1 = some value := by
    rw [get?_eq_some_iff, (entries_insertAll_perm hnodup).mem_iff]
    exact mem_entriesOf_iff.2 hbefore
  rw [enter_append hnodup fun _ _ => rfl, enter, Reading.ofItems_items]
  simp only [hvalue, Option.isSome_some, if_true, List.append_nil]

theorem ofPairs_of_repeat {before after : List (Cbor.Item × Cbor.Item)} {entry : KeyEntry}
    {value : Parameter} (h : LabelsDiffer before)
    (hbefore : KeyEntry.items (entry.1, value) ∈ before) :
    ofPairs (before ++ entry.items :: after) = .error (.malformed (.duplicate entry.1)) := by
  rw [ofPairs, enter_of_repeat h hbefore]

/-- **If labels are repeated, there is a first pair that repeats one.** -/
theorem exists_first_repeat (h : ¬LabelsDiffer pairs) :
    ∃ before entry after, pairs = before ++ KeyEntry.items entry :: after
      ∧ LabelsDiffer before ∧ ∃ value, KeyEntry.items (entry.1, value) ∈ before := by
  induction pairs using List.reverseRecOn with
  | nil => exact absurd List.Pairwise.nil h
  | append_singleton pairs pair ih =>
    by_cases hpairs : LabelsDiffer pairs
    · -- then it is the last pair
      have hlast : ¬∀ p ∈ pairs, ∀ a b : KeyEntry, p = a.items → pair = b.items → a.1 ≠ b.1 := by
        intro hlast
        refine h (List.pairwise_append.2 ⟨hpairs, List.pairwise_singleton _ _, ?_⟩)
        intro p hp q hq
        obtain rfl := List.mem_singleton.1 hq
        exact hlast p hp
      push Not at hlast
      obtain ⟨p, hp, ⟨label, value⟩, b, rfl, rfl, rfl⟩ := hlast
      exact ⟨pairs, b, [], rfl, hpairs, value, hp⟩
    · obtain ⟨before, entry, after, rfl, hbefore, hrepeat⟩ := ih hpairs
      exact ⟨before, entry, after ++ [pair], by simp, hbefore, hrepeat⟩

/-- **A key map is read from pairs** exactly when no two kept ones have the same
label, and its entries are the kept pairs in another order. -/
theorem ofPairs_eq_ok_iff :
    ofPairs pairs = .ok key ↔ LabelsDiffer pairs ∧ key.entries.Perm (entriesOf pairs) := by
  by_cases hpairs : LabelsDiffer pairs
  · have hnodup := labelsDiffer_iff.1 hpairs
    have hperm := entries_insertAll_perm hnodup
    rw [ofPairs, enter_of_nodup hnodup fun _ _ => rfl, Except.ok.injEq]
    constructor
    · rintro rfl
      exact ⟨hpairs, hperm⟩
    · rintro ⟨-, hkey⟩
      exact eq_of_entries_perm (hperm.trans hkey.symm)
  · obtain ⟨before, entry, after, rfl, hbefore, value, hvalue⟩ := exists_first_repeat hpairs
    rw [ofPairs_of_repeat hbefore hvalue]
    constructor
    · intro h
      cases h
    · rintro ⟨h, -⟩
      exact absurd h hpairs

theorem exists_ofPairs_eq_ok (h : LabelsDiffer pairs) : ∃ key, ofPairs pairs = .ok key :=
  ⟨_, ofPairs_eq_ok_iff.2 ⟨h, entries_insertAll_perm (labelsDiffer_iff.1 h)⟩⟩

/-- Pairs in another order are read alike. -/
theorem ofPairs_eq_ok_iff_of_perm {pairs' : List (Cbor.Item × Cbor.Item)}
    (h : pairs'.Perm pairs) : ofPairs pairs' = .ok key ↔ ofPairs pairs = .ok key := by
  have hentries : (entriesOf pairs').Perm (entriesOf pairs) := h.filterMap _
  rw [ofPairs_eq_ok_iff, ofPairs_eq_ok_iff, labelsDiffer_iff_of_perm h]
  exact and_congr_right fun _ => ⟨fun hkey => hkey.trans hentries,
    fun hkey => hkey.trans hentries.symm⟩

/-- **Reading the pairs of a map.** A key map is read exactly when no two kept
pairs have the same label. It then gives the kept pairs' labels their values
and no others, and has as many of them as there are kept pairs. Otherwise the
error names the first kept pair whose label was kept before. The order of the
pairs decides nothing but which label is named: for pairs in another order
there is a key map if there is one for these, it is the same one, and it has
the same octets. -/
theorem decode_of_pairsOf {s : Octets} (h : pairsOf s = .ok pairs) :
    ((∃ key, decode s = .ok key) ↔ LabelsDiffer pairs)
      ∧ (∀ key, decode s = .ok key →
        (∀ label value, key.get? label = some value ↔ KeyEntry.items (label, value) ∈ pairs)
          ∧ key.size = pairs.countP (IsKept ·))
      ∧ (¬LabelsDiffer pairs → ∃ before entry after,
        pairs = before ++ KeyEntry.items entry :: after ∧ LabelsDiffer before
          ∧ (∃ value, KeyEntry.items (entry.1, value) ∈ before)
          ∧ decode s = .error (.malformed (.duplicate entry.1)))
      ∧ ∀ pairs', pairs'.Perm pairs →
        (∀ t, pairsOf t = .ok pairs' → decode t = ofPairs pairs')
          ∧ ((∃ key, ofPairs pairs' = .ok key) ↔ ∃ key, decode s = .ok key)
          ∧ ∀ key key', decode s = .ok key → ofPairs pairs' = .ok key' →
            key' = key ∧ key'.encode = key.encode := by
  rw [decode_eq_ofPairs h]
  refine ⟨?_, ?_, ?_, fun pairs' hperm => ⟨fun t => decode_eq_ofPairs, ?_, ?_⟩⟩
  · constructor
    · rintro ⟨key, hkey⟩
      exact (ofPairs_eq_ok_iff.1 hkey).1
    · exact exists_ofPairs_eq_ok
  · intro key hkey
    obtain ⟨-, hentries⟩ := ofPairs_eq_ok_iff.1 hkey
    refine ⟨fun label value => ?_, ?_⟩
    · rw [get?_eq_some_iff, hentries.mem_iff, mem_entriesOf_iff]
    · rw [size, hentries.length_eq, length_entriesOf]
  · intro hpairs
    obtain ⟨before, entry, after, rfl, hbefore, value, hvalue⟩ := exists_first_repeat hpairs
    exact ⟨before, entry, after, rfl, hbefore, ⟨value, hvalue⟩,
      ofPairs_of_repeat hbefore hvalue⟩
  · exact exists_congr fun key => ofPairs_eq_ok_iff_of_perm hperm
  · intro key key' hkey hkey'
    rw [ofPairs_eq_ok_iff_of_perm hperm, hkey] at hkey'
    cases hkey'
    exact ⟨rfl, rfl⟩

/-- A label that comes up twice, once in a skipped pair, and the same pairs the
other way round; and a label that is kept twice, in two spellings. -/
theorem decode_of_pairsOf_repeat :
    (∃ pairs key, pairsOf [0xa3, 0x01, 0x02, 0x01, 0x80, 0x20, 0x06] = .ok pairs
      ∧ LabelsDiffer pairs
      ∧ decode [0xa3, 0x01, 0x02, 0x01, 0x80, 0x20, 0x06] = .ok key ∧ key.size = 2
      ∧ pairsOf [0xa3, 0x20, 0x06, 0x01, 0x80, 0x01, 0x02] = .ok pairs.reverse
      ∧ decode [0xa3, 0x20, 0x06, 0x01, 0x80, 0x01, 0x02] = .ok key)
      ∧ ∃ pairs label, pairsOf [0xa3, 0x01, 0x02, 0x20, 0x06, 0x18, 0x01, 0x00] = .ok pairs
        ∧ ¬LabelsDiffer pairs
        ∧ decode [0xa3, 0x01, 0x02, 0x20, 0x06, 0x18, 0x01, 0x00]
          = .error (.malformed (.duplicate label)) := by
  have hskipped : pairsOf [0xa3, 0x01, 0x02, 0x01, 0x80, 0x20, 0x06]
      = .ok [(.integer 1, .integer 2), (.integer 1, .array []), (.integer (-1), .integer 6)] := rfl
  have hkept : pairsOf [0xa3, 0x01, 0x02, 0x20, 0x06, 0x18, 0x01, 0x00]
      = .ok [(.integer 1, .integer 2), (.integer (-1), .integer 6), (.integer 1, .integer 0)] := rfl
  have hreverse : pairsOf [0xa3, 0x20, 0x06, 0x01, 0x80, 0x01, 0x02]
      = .ok (List.reverse [(.integer 1, .integer 2), (.integer 1, .array []),
        (.integer (-1), .integer 6)]) := rfl
  refine ⟨?_, ?_⟩
  · obtain ⟨hiff, hkey, -, horder⟩ := decode_of_pairsOf hskipped
    have hdiffer : LabelsDiffer
        [(.integer 1, .integer 2), (.integer 1, .array []), (.integer (-1), .integer 6)] := by
      decide
    obtain ⟨key, hdecode⟩ := hiff.2 hdiffer
    obtain ⟨hread, hsucceeds, hsame⟩ := horder _ (List.reverse_perm _)
    obtain ⟨key', hkey'⟩ := hsucceeds.2 ⟨key, hdecode⟩
    refine ⟨_, key, hskipped, hdiffer, hdecode, (hkey key hdecode).2, hreverse, ?_⟩
    rw [hread _ hreverse, hkey', (hsame key key' hdecode hkey').1]
  · obtain ⟨-, -, hrepeat, -⟩ := decode_of_pairsOf hkept
    have hsame : ¬LabelsDiffer
        [(.integer 1, .integer 2), (.integer (-1), .integer 6), (.integer 1, .integer 0)] := by
      decide
    obtain ⟨before, entry, after, -, -, -, herror⟩ := hrepeat hsame
    exact ⟨_, entry.1, hkept, hsame, herror⟩

end KeyMap

end KeyForms
