import KeyForms.Proofs.Cbor.Spelled
import KeyForms.Proofs.KeyMap.Kept

/-!
# Spellings of key maps

The octets that are written for a key map are one of its spellings. In another
one the entries stand in another order, the map may have an indefinite length,
and every label and value may be spelled in any of the ways in which an
integer or a byte string can be (`KeyMap.Spelling`). All of them are read as
the one key map, and nothing else is read as it unless a pair is skipped
(`KeyMap.load_eq_ok_iff`).

A label is a number, however it is spelled. A label that comes up twice is
therefore found whatever its two spellings are and wherever its two entries
stand, and reading names it.
-/

namespace KeyForms

/-- **The spellings of a value.** -/
inductive Parameter.Spelling : Parameter → Octets → Prop where
  /-- An integer. -/
  | integer {n : Int64} {s : Octets} (h : Cbor.IntegerSpelling n.toInt s) :
    Spelling (.integer n) s
  /-- A byte string. -/
  | octets {content s : Octets} (h : Cbor.OctetsSpelling content s) :
    Spelling (.octets content) s

/-- **The spellings of an entry**: one of its label, and one of its value. -/
inductive KeyEntry.Spelling : KeyEntry → Octets → Prop where
  /-- A label and a value. -/
  | mk {label : Int64} {value : Parameter} {s t : Octets}
    (hlabel : Cbor.IntegerSpelling label.toInt s) (hvalue : value.Spelling t) :
    Spelling (label, value) (s ++ t)

/-- **The spellings of a map** that lists entries, in the order in which they
stand. Nothing says that their labels differ. -/
inductive KeyMap.Spelling (entries : List KeyEntry) : Octets → Prop where
  /-- With a definite length. -/
  | definite {head : Octets} {fields : List Octets}
    (hhead : Cbor.HeadSpelling 5 entries.length head)
    (hfields : List.Forall₂ KeyEntry.Spelling entries fields) :
    Spelling entries (head ++ fields.flatten)
  /-- Up to a stop. -/
  | indefinite {fields : List Octets}
    (hfields : List.Forall₂ KeyEntry.Spelling entries fields) :
    Spelling entries (Cbor.initialOctet 5 31 :: (fields.flatten ++ [Cbor.stopOctet]))

/-! ## Spellings are read -/

theorem Parameter.Spelling.readItem_append {value : Parameter} {s : Octets}
    (h : value.Spelling s) (depth : Nat) (t : Octets) :
    Cbor.readItem depth (s ++ t) = .ok (value.item, t) := by
  cases h with
  | integer h => exact h.readItem_append depth t
  | octets h => exact h.readItem_append depth t

/-- What is read as a value is a spelling of it. -/
theorem Parameter.Spelling.exists_of_readItem {depth : Nat} {value : Parameter}
    {s rest : Octets} (h : Cbor.readItem depth s = .ok (value.item, rest)) :
    ∃ t, value.Spelling t ∧ s = t ++ rest := by
  obtain ⟨inner, hinner⟩ := Cbor.exists_readItem_eq depth
  rw [hinner] at h
  cases value with
  | integer n =>
    obtain ⟨t, ht, hs⟩ := Cbor.IntegerSpelling.exists_of_readItemWith h
    exact ⟨t, .integer ht, hs⟩
  | octets content =>
    obtain ⟨t, ht, hs⟩ := Cbor.OctetsSpelling.exists_of_readItemWith h
    exact ⟨t, .octets ht, hs⟩

/-- The written value is a spelling. -/
theorem Parameter.spelling_encode {value : Parameter} (h : value.Fits) :
    value.Spelling value.encode := by
  cases value with
  | integer n => exact .integer (.encodeInt64 n)
  | octets content => exact .octets (.encodeOctets h)

namespace KeyEntry.Spelling

variable {entry : KeyEntry} {s : Octets}

theorem readPair_append (h : KeyEntry.Spelling entry s) (depth : Nat) (t : Octets) :
    Cbor.readPair (Cbor.readItem depth) (s ++ t) = .ok (entry.items, t) := by
  obtain ⟨hlabel, hvalue⟩ := h
  exact Cbor.readPair_append (hlabel.readItem_append depth) (hvalue.readItem_append depth) t

theorem head?_append_ne_stop (h : KeyEntry.Spelling entry s) (t : Octets) :
    (s ++ t).head? ≠ some Cbor.stopOctet := by
  obtain ⟨hlabel, -⟩ := h
  rw [List.append_assoc]
  exact hlabel.head?_append_ne_stop _

/-- What is read as the pair of an entry is a spelling of it. -/
theorem exists_of_readPair {depth : Nat} {rest : Octets}
    (h : Cbor.readPair (Cbor.readItem depth) s = .ok (entry.items, rest)) :
    ∃ t, KeyEntry.Spelling entry t ∧ s = t ++ rest := by
  unfold Cbor.readPair at h
  split at h
  · cases h
  · rename_i label afterLabel hlabel
    split at h
    · cases h
    · rename_i value afterValue hvalue
      cases h
      obtain ⟨inner, hinner⟩ := Cbor.exists_readItem_eq depth
      rw [hinner] at hlabel
      obtain ⟨t, ht, rfl⟩ := Cbor.IntegerSpelling.exists_of_readItemWith hlabel
      obtain ⟨t', ht', rfl⟩ := Parameter.Spelling.exists_of_readItem hvalue
      exact ⟨t ++ t', .mk ht ht', by simp⟩

end KeyEntry.Spelling

namespace KeyMap

variable {entries : List KeyEntry} {s : Octets}

/-- **Every spelling of a map is read** as the pairs of its entries. -/
theorem Spelling.pairsOf_eq (h : Spelling entries s) :
    pairsOf s = .ok (entries.map KeyEntry.items) := by
  have hpair : ∀ entry field, KeyEntry.Spelling entry field → ∀ t,
      Cbor.readPair (Cbor.readItem 255) (field ++ t) = .ok (entry.items, t) :=
    fun _ _ hfield => hfield.readPair_append 255
  rw [pairsOf_eq_ok_iff, Cbor.read_eq]
  cases h with
  | @definite head fields hhead hfields =>
    have hhead' : Cbor.Head.read (head ++ fields.flatten)
        = .ok (.map (some entries.length), fields.flatten) :=
      hhead.read_append (by decide) (fun _ => rfl) _
    have hfields' := Cbor.readTimes_flatten hpair hfields []
    rw [List.append_nil] at hfields'
    simp only [Cbor.readItemWith, hhead', Cbor.readMany, hfields']
  | @indefinite fields hfields =>
    have hstop : ∀ entry field, KeyEntry.Spelling entry field → ∀ t,
        (field ++ t).head? ≠ some Cbor.stopOctet :=
      fun _ _ hfield => hfield.head?_append_ne_stop
    have hhead : Cbor.Head.read (Cbor.initialOctet 5 31 :: (fields.flatten ++ [Cbor.stopOctet]))
        = .ok (.map none, fields.flatten ++ [Cbor.stopOctet]) := rfl
    have hbound : entries.length < (fields.flatten ++ [Cbor.stopOctet]).length := by
      rw [List.length_append, List.length_singleton]
      exact Nat.lt_succ_of_le (Cbor.length_le_length_flatten hstop hfields)
    have hfields' := Cbor.readUntilStop_flatten hpair hstop hfields hbound []
    simp only [Cbor.readItemWith, hhead, Cbor.readMany, hfields']

/-- **What is read as the pairs of entries** is a spelling of a map of these. -/
theorem Spelling.of_pairsOf_eq (h : pairsOf s = .ok (entries.map KeyEntry.items)) :
    Spelling entries s := by
  have hpair : ∀ entry t rest,
      Cbor.readPair (Cbor.readItem 255) t = .ok (KeyEntry.items entry, rest) →
        ∃ field, KeyEntry.Spelling entry field ∧ t = field ++ rest :=
    fun _ _ _ => KeyEntry.Spelling.exists_of_readPair
  rw [pairsOf_eq_ok_iff, Cbor.read_eq] at h
  cases Cbor.readAs_of_readItemWith h with
  | @map length t one _ hinner hhead hpairs =>
    cases hinner
    cases length with
    | none =>
      obtain rfl : s = Cbor.initialOctet 5 31 :: t := Cbor.Head.eq_of_read hhead rfl
      obtain ⟨fields, hfields, rfl⟩ := Cbor.exists_forall₂_of_readUntilStop hpair hpairs
      exact .indefinite hfields
    | some n =>
      obtain ⟨head, hspelling, rfl⟩ := Cbor.Head.exists_spelling_of_read hhead rfl
      obtain ⟨rfl, fields, hfields, rfl⟩ := Cbor.exists_forall₂_of_readTimes hpair hpairs
      rw [List.append_nil]
      exact .definite hspelling hfields

theorem load_of_spelling (h : Spelling entries s) :
    load s = enter empty (entries.map KeyEntry.items) := by
  rw [load, h.pairsOf_eq]

/-- **The written octets are a spelling** of the key map. -/
theorem spelling_encode {key : KeyMap} (h : key.Fits) : Spelling key.entries key.encode := by
  rw [encode, List.flatMap_def]
  refine .definite (.encodeHead h.size_lt) ?_
  rw [List.forall₂_map_right_iff, List.forall₂_same]
  intro entry hentry
  exact .mk (.encodeInt64 entry.1) (Parameter.spelling_encode (h.fits entry hentry))

/-! ## Entries as pairs -/

/-- **The entries of a key map in another order** are entered as the key map. -/
theorem enter_items_of_perm {key : KeyMap} (h : entries.Perm key.entries) :
    enter empty (entries.map KeyEntry.items) = ⟨[], .ok key⟩ := by
  have hnodup : (entries.map Prod.fst).Nodup :=
    (h.map Prod.fst).nodup_iff.2 key.inOrder.nodup
  have hkey : empty.insertAll entries = key :=
    eq_of_entries_perm ((entries_insertAll_perm hnodup).trans h)
  rw [enter_of_nodup ((entriesOf_map_items entries).symm ▸ hnodup) fun _ _ => rfl,
    entriesOf_map_items, skipsOf_map_items, hkey]

/-- Pairs of which none is skipped are the pairs of their entries. -/
theorem map_items_entriesOf {pairs : List (Cbor.Item × Cbor.Item)} (h : skipsOf pairs = []) :
    (entriesOf pairs).map KeyEntry.items = pairs := by
  induction pairs with
  | nil => rfl
  | cons pair pairs ih =>
    rw [skipsOf_cons] at h
    rw [entriesOf_cons]
    cases hpair : Reading.ofItems pair with
    | skipped why =>
      rw [hpair] at h
      cases h
    | kept label value =>
      rw [hpair] at h
      rw [Reading.ofItems_eq_kept_iff.1 hpair]
      exact congrArg _ (ih h)

/-- An entry whose label comes up among different ones ends the reading. -/
theorem enter_items_of_repeat {before after : List KeyEntry} {entry : KeyEntry}
    {value : Parameter} (h : (before.map Prod.fst).Nodup) (hbefore : (entry.1, value) ∈ before) :
    enter empty ((before ++ entry :: after).map KeyEntry.items)
      = ⟨[], .error (.malformed (.duplicate entry.1))⟩ := by
  have hdiffer : LabelsDiffer (before.map KeyEntry.items) := by
    rwa [labelsDiffer_iff, entriesOf_map_items]
  rw [List.map_append, List.map_cons,
    enter_of_repeat hdiffer (List.mem_map_of_mem hbefore), skipsOf_map_items]

/-- **One more entry with a label of the key map** ends the reading, wherever it
stands: the one that comes later of the two repeats the label. -/
theorem enter_items_of_added {key : KeyMap} {before after : List KeyEntry} {label : Int64}
    (value : Parameter) (h : (before ++ after).Perm key.entries)
    (hlabel : (key.get? label).isSome) :
    enter empty ((before ++ (label, value) :: after).map KeyEntry.items)
      = ⟨[], .error (.malformed (.duplicate label))⟩ := by
  have hnodup : ((before ++ after).map Prod.fst).Nodup :=
    (h.map Prod.fst).nodup_iff.2 key.inOrder.nodup
  obtain ⟨v, hv⟩ := Option.isSome_iff_exists.1 hlabel
  rw [get?_eq_some_iff, ← h.mem_iff, List.mem_append] at hv
  rcases hv with hv | hv
  · rw [List.map_append] at hnodup
    exact enter_items_of_repeat hnodup.of_append_left hv
  · obtain ⟨middle, after, rfl⟩ := List.append_of_mem hv
    -- before the entry of the key map the added one is the only one with the label
    have hmiddle : ((before ++ (label, value) :: middle).map Prod.fst).Nodup := by
      have hsublist : (before ++ (middle ++ [(label, v)])).Sublist
          (before ++ (middle ++ (label, v) :: after)) :=
        ((List.singleton_sublist.2 List.mem_cons_self).append_left middle).append_left before
      have hlabels : ((before ++ (label, value) :: middle).map Prod.fst).Perm
          ((before ++ (middle ++ [(label, v)])).map Prod.fst) := by
        simp only [List.map_append, List.map_cons, List.map_nil]
        exact (List.perm_append_singleton _ _).symm.append_left _
      exact hlabels.nodup_iff.2 (hnodup.sublist (hsublist.map Prod.fst))
    have hmem : (label, value) ∈ before ++ (label, value) :: middle := by simp
    have hsplit : before ++ (label, value) :: (middle ++ (label, v) :: after)
        = before ++ (label, value) :: middle ++ (label, v) :: after := by simp
    rw [hsplit]
    exact enter_items_of_repeat hmiddle hmem

/-- **A key map is read with nothing skipped** exactly from its spellings. -/
theorem load_eq_ok_iff {key : KeyMap} :
    load s = ⟨[], .ok key⟩ ↔ ∃ entries, entries.Perm key.entries ∧ Spelling entries s := by
  constructor
  · intro h
    unfold load at h
    split at h
    · cases h
    · rename_i pairs hpairs
      obtain ⟨hdiffer, hperm⟩ := ofPairs_eq_ok_iff.1 (congrArg Loading.key h)
      have hskips : skipsOf pairs = [] := by
        rw [enter_of_nodup (labelsDiffer_iff.1 hdiffer) fun _ _ => rfl] at h
        exact congrArg Loading.skipped h
      refine ⟨entriesOf pairs, hperm.symm, .of_pairsOf_eq ?_⟩
      rw [map_items_entriesOf hskips, hpairs]
  · rintro ⟨entries, hperm, hs⟩
    rw [load_of_spelling hs, enter_items_of_perm hperm]

/-- **All spellings of a key map are read as it.** The entries of the key map
may stand in any order, in a map of either kind of length, and each in any
spelling of its label and its value: the key map is read, nothing is skipped,
and writing what was read gives the octets that are written for the key map.
If there is one more entry, with any value and at any place, whose label is
one of the key map's in any spelling, reading fails and names that label. -/
theorem decode_of_spelling (key : KeyMap) :
    (∀ entries s, entries.Perm key.entries → Spelling entries s →
      load s = ⟨[], .ok key⟩ ∧ decode s = .ok key ∧ (decode s).map encode = .ok key.encode)
      ∧ ∀ before label value after s, (before ++ after).Perm key.entries →
        (key.get? label).isSome → Spelling (before ++ (label, value) :: after) s →
        decode s = .error (.malformed (.duplicate label)) := by
  constructor
  · intro entries s hperm hs
    have hload := load_eq_ok_iff.2 ⟨entries, hperm, hs⟩
    have hdecode : decode s = .ok key := congrArg Loading.key hload
    exact ⟨hload, hdecode, congrArg (Except.map encode) hdecode⟩
  · intro before label value after s hperm hlabel hs
    rw [decode, load_of_spelling hs, enter_items_of_added value hperm hlabel]

/-- The integer two and three octets. -/
def twoFields : KeyMap := empty |>.insert 1 (.integer 2) |>.insert (-1) (.octets [0x07, 0x08, 0x09])

/-- The byte string in nested chunks, and its label with a digit too many; and
the label of the integer behind a tag, and once more with a digit too many. -/
theorem decode_of_spelling_twoFields :
    decode [0xbf, 0x38, 0x00, 0x5f, 0x41, 0x07, 0x5f, 0x42, 0x08, 0x09, 0xff, 0xff, 0xc2, 0x41,
        0x01, 0x18, 0x02, 0xff] = .ok twoFields
      ∧ decode [0xa3, 0x38, 0x00, 0x5f, 0x41, 0x07, 0x5f, 0x42, 0x08, 0x09, 0xff, 0xff, 0xc2, 0x41,
        0x01, 0x18, 0x02, 0x18, 0x01, 0x40] = .error (.malformed (.duplicate 1)) := by
  have hinner : Cbor.ChunksSpelling ([0x08, 0x09] ++ []) ([0x42] ++ ([0x08, 0x09] ++ [])) :=
    .definite (.mk (.inside (by decide))) .nil
  have hchunks : Cbor.ChunksSpelling ([0x07] ++ ([0x08, 0x09] ++ []))
      ([0x41] ++ ([0x07] ++ [0x5f, 0x42, 0x08, 0x09, 0xff])) :=
    .definite (.mk (.inside (by decide))) (.indefinite hinner .nil)
  have hoctets : KeyEntry.Spelling (-1, .octets [0x07, 0x08, 0x09])
      ([0x38, 0x00] ++ [0x5f, 0x41, 0x07, 0x5f, 0x42, 0x08, 0x09, 0xff, 0xff]) :=
    .mk (.negative (n := 0) (.mk (.one (by decide)))) (.octets (.indefinite hchunks))
  have htagged : Cbor.IntegerSpelling (Octets.value [0x01]) ([0xc2] ++ ([0x41] ++ [0x01])) :=
    .unsignedString (.mk (.inside (by decide))) (.mk (.inside (by decide))) (by decide)
  have hinteger : KeyEntry.Spelling (1, .integer 2) ([0xc2, 0x41, 0x01] ++ [0x18, 0x02]) :=
    .mk htagged (.integer (.unsigned (n := 2) (.mk (.one (by decide)))))
  have hadded : KeyEntry.Spelling (1, .octets []) ([0x18, 0x01] ++ [0x40]) :=
    .mk (.unsigned (n := 1) (.mk (.one (by decide))))
      (.octets (.definite (.mk (.inside (by decide)))))
  obtain ⟨hread, hrepeat⟩ := decode_of_spelling twoFields
  constructor
  · exact (hread _ _ (by decide) (.indefinite (.cons hoctets (.cons hinteger .nil)))).2.1
  · exact hrepeat [_, _] 1 _ [] _ (by decide) (by decide)
      (.definite (.mk (.inside (by decide))) (.cons hoctets (.cons hinteger (.cons hadded .nil))))

end KeyMap

end KeyForms
