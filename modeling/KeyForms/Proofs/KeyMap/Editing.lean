import Mathlib.Data.Finmap
import KeyForms.KeyMap.Edit
import KeyForms.KeyMap.Fields
import KeyForms.Proofs.Cbor.Lengths
import KeyForms.Proofs.KeyMap.Kept
import KeyForms.Proofs.RawPoint.Shapes

/-!
# Edited key maps are finite maps

A key map that is edited step after step is, at any time, the finite map that
results from the edits that did not fail. The finite maps are those of the
library (`KeyMap.Bindings`), and what an edit does to one is said without the
entries and their order: setting a label is `Finmap.insert`, and the other
edits put a new finite map in place of the old one (`KeyMap.Edit.result?`).

One edit takes the finite map of a key map to that of the edited one
(`KeyMap.result?_bindings`), so every sequence of edits does
(`KeyMap.bindings_editAll`). A key map shows nothing but its finite map: what
its labels hold, how many there are, and how the next edit is answered
(`KeyMap.Shows`). In particular it does not show in which order it was filled,
and its octets do not either.

That these octets are read back takes an invariant, since a value may be too
long to be written. Edits do not make such a value unless they are given one
(`KeyMap.valuesFit_editAll`): what is read from an encoded key map is no longer
than that was (`KeyMap.fits_of_decode`).
-/

namespace KeyForms.KeyMap

/-! ## Finite maps -/

/-- **A finite map from labels to values.** -/
abbrev Bindings := Finmap fun _ : Int64 => Parameter

/-- The finite map of entries. Where two have one label, the first one
counts. -/
def Bindings.ofEntries (entries : List KeyEntry) : Bindings :=
  (entries.map Prod.toSigma).toFinmap

/-- **The finite map of a key map.** -/
def bindings (key : KeyMap) : Bindings := .ofEntries key.entries

theorem Bindings.lookup_ofEntries (label : Int64) (entries : List KeyEntry) :
    (ofEntries entries).lookup label = KeyEntry.find? label entries := by
  rw [ofEntries, Finmap.dlookup_list_toFinmap]
  induction entries with
  | nil => rfl
  | cons entry entries ih =>
    obtain ⟨l, value⟩ := entry
    rw [List.map_cons, KeyEntry.find?]
    split
    · subst_vars
      exact List.dlookup_cons_eq _ _ _
    · rename_i hne
      rw [← ih]
      exact List.dlookup_cons_ne _ (Prod.toSigma (l, value)) (Ne.symm hne)

@[simp] theorem lookup_bindings (key : KeyMap) (label : Int64) :
    key.bindings.lookup label = key.get? label :=
  Bindings.lookup_ofEntries label key.entries

/-- **Key maps with one finite map are the same.** -/
theorem bindings_injective : Function.Injective bindings := by
  intro a b h
  refine ext_get? fun label => ?_
  rw [← lookup_bindings, h, lookup_bindings]

/-- **As many labels have a value as there are entries.** -/
theorem card_keys_bindings (key : KeyMap) : key.bindings.keys.card = key.size := by
  have hkeys : key.bindings.keys = (key.entries.map Prod.fst).toFinset := by
    ext label
    rw [Finmap.mem_keys, ← Finmap.lookup_isSome, lookup_bindings, List.mem_toFinset,
      Option.isSome_iff_ne_none, ne_eq, get?, KeyEntry.find?_eq_none_iff, not_not]
  rw [hkeys, List.toFinset_card_of_nodup key.inOrder.nodup, List.length_map]
  rfl

theorem bindings_empty : empty.bindings = ∅ := rfl

theorem bindings_insert (key : KeyMap) (label : Int64) (value : Parameter) :
    (key.insert label value).bindings = key.bindings.insert label value := by
  refine Finmap.ext_lookup fun l => ?_
  rw [lookup_bindings, get?_insert]
  split
  · subst_vars
    exact (Finmap.lookup_insert key.bindings).symm
  · rename_i hne
    rw [Finmap.lookup_insert_of_ne _ hne, lookup_bindings]

/-! ## Edits of finite maps -/

/-- **What an edit puts in the place of a finite map**, or `none` if it fails.
An encoded key map is its kept pairs, and fails if it is not read as pairs or
two of them have one label; a raw point is five fields, and fails if its
length is that of no curve. -/
def Edit.result? (m : Bindings) : Edit → Option Bindings
  | .clear => some ∅
  | .set label value => some (m.insert label value)
  | .load encoded =>
    match pairsOf encoded with
    | .error _ => none
    | .ok pairs => if LabelsDiffer pairs then some (.ofEntries (entriesOf pairs)) else none
  | .loadRaw point =>
    let q := RawPoint.coordinates point
    (Curve.ofCoordinatesLength? q.length).map fun c => .ofEntries
      [(Label.keyType, .integer KeyType.ec2.id), (Label.algorithm, .integer c.algorithm.code),
        (Label.curve, .integer c.id), (Label.x, .octets (q.take c.fieldOctets)),
        (Label.y, .octets (q.drop c.fieldOctets))]

/-- The finite map after an edit: one that fails changes nothing. -/
def Bindings.edit (m : Bindings) (e : Edit) : Bindings := (e.result? m).getD m

/-- **The finite map after a sequence of edits.** -/
def Bindings.editAll (m : Bindings) (edits : List Edit) : Bindings := edits.foldl edit m

/-- A key map that is read has the finite map of the kept pairs. -/
theorem bindings_of_ofPairs {key : KeyMap} {pairs : List (Cbor.Item × Cbor.Item)}
    (h : ofPairs pairs = .ok key) : key.bindings = .ofEntries (entriesOf pairs) := by
  obtain ⟨hdiffer, hperm⟩ := ofPairs_eq_ok_iff.1 h
  refine Finmap.ext_lookup fun label => Option.ext fun value => ?_
  rw [lookup_bindings, Bindings.lookup_ofEntries, get?_eq_some_iff,
    KeyEntry.find?_eq_some_iff (labelsDiffer_iff.1 hdiffer), hperm.mem_iff]

/-- **One edit**: it fails for a key map when it fails for the finite map, and
otherwise leads from the one's result to the other's. -/
theorem result?_bindings (key : KeyMap) (e : Edit) :
    e.result? key.bindings = (key.edited? e).toOption.map bindings := by
  cases e with
  | clear => rfl
  | set label value => exact congrArg some (bindings_insert key label value).symm
  | load encoded =>
    show _ = (decode encoded).toOption.map bindings
    cases hpairs : pairsOf encoded with
    | error error =>
      rw [decode, load, hpairs, Edit.result?, hpairs]
      rfl
    | ok pairs =>
      rw [decode_eq_ofPairs hpairs, Edit.result?, hpairs]
      by_cases hdiffer : LabelsDiffer pairs
      · obtain ⟨key', hkey'⟩ : ∃ key', ofPairs pairs = .ok key' :=
          ⟨_, ofPairs_eq_ok_iff.2 ⟨hdiffer, entries_insertAll_perm (labelsDiffer_iff.1 hdiffer)⟩⟩
        simp only [if_pos hdiffer, hkey', ← bindings_of_ofPairs hkey']
        rfl
      · obtain ⟨before, entry, after, rfl, hbefore, value, hvalue⟩ := exists_first_repeat hdiffer
        simp only [if_neg hdiffer, ofPairs_of_repeat hbefore hvalue]
        rfl
  | loadRaw point =>
    show _ = (ofRawPoint point).toOption.map bindings
    simp only [ofRawPoint, Edit.result?]
    cases Curve.ofCoordinatesLength? (RawPoint.coordinates point).length with
    | none => rfl
    | some c => rfl

theorem bindings_edit (key : KeyMap) (e : Edit) :
    (key.edit e).bindings = key.bindings.edit e := by
  rw [Bindings.edit, result?_bindings, edit]
  cases key.edited? e <;> rfl

/-- **A whole run**: editing a key map edits its finite map. -/
theorem bindings_editAll (key : KeyMap) (edits : List Edit) :
    (key.editAll edits).bindings = key.bindings.editAll edits := by
  induction edits generalizing key with
  | nil => rfl
  | cons e edits ih =>
    show ((key.edit e).editAll edits).bindings = (key.bindings.edit e).editAll edits
    rw [ih, bindings_edit]

/-! ## Runs of edits that fit

An edit fits if it is short enough for its octets to be counted. A key map that
is read has no more entries, and no longer values, than there were octets to
read, so edits that fit never make a value that cannot be written. -/

/-- **An edit whose octets can be counted.** -/
def Edit.Fits : Edit → Prop
  | .clear => True
  | .set _ value => value.Fits
  | .load encoded => encoded.length < Cbor.argumentBound
  | .loadRaw _ => True

instance : DecidablePred Edit.Fits
  | .clear | .loadRaw _ => instDecidableTrue
  | .set _ value => inferInstanceAs (Decidable value.Fits)
  | .load encoded => Nat.decLt encoded.length Cbor.argumentBound

/-- A map has no more pairs than it has octets, and no longer strings in them. -/
theorem length_le_of_pairsOf {s : Octets} {pairs : List (Cbor.Item × Cbor.Item)}
    (h : pairsOf s = .ok pairs) :
    pairs.length ≤ s.length ∧ ∀ pair ∈ pairs, pair.2.contentLength ≤ s.length := by
  rw [pairsOf_eq_ok_iff, Cbor.read_eq] at h
  cases Cbor.readAs_of_readItemWith h with
  | map hone hhead hpairs =>
    cases hone
    have hlt := Cbor.Head.length_lt_of_read hhead
    have hpair := Cbor.advances_readPair (Cbor.advances_readItem 255)
    refine ⟨(Cbor.length_le_of_readMany hpair hpairs).trans hlt.le, fun pair hmem => ?_⟩
    have hweight := Cbor.weight_le_of_readMany hpair hpairs hmem
    omega

/-- **What is read can be written.** -/
theorem fits_of_decode {key : KeyMap} {s : Octets} (h : decode s = .ok key)
    (hs : s.length < Cbor.argumentBound) : key.Fits := by
  cases hpairs : pairsOf s with
  | error error =>
    rw [decode, load, hpairs] at h
    cases h
  | ok pairs =>
    obtain ⟨hlength, hcontent⟩ := length_le_of_pairsOf hpairs
    rw [decode_eq_ofPairs hpairs] at h
    obtain ⟨-, hperm⟩ := ofPairs_eq_ok_iff.1 h
    have hentries : (entriesOf pairs).length ≤ pairs.length := List.length_filterMap_le _ _
    refine ⟨?_, ?_⟩
    · rw [size, hperm.length_eq]
      omega
    · rintro ⟨label, value⟩ hentry
      have hle := hcontent _ (mem_entriesOf_iff.1 (hperm.mem_iff.1 hentry))
      cases value with
      | integer n => trivial
      | octets content => exact Nat.lt_of_le_of_lt hle hs

/-- Every value has a written form. -/
def ValuesFit (key : KeyMap) : Prop := ∀ entry ∈ key.entries, entry.2.Fits

/-- **One edit that fits** leaves values that fit. -/
theorem valuesFit_edit {key : KeyMap} {e : Edit} (he : e.Fits) (h : key.ValuesFit) :
    (key.edit e).ValuesFit := by
  cases e with
  | clear => exact fun _ hentry => absurd hentry List.not_mem_nil
  | set label value =>
    intro entry hentry
    rcases KeyEntry.mem_insert hentry with rfl | hentry
    · exact he
    · exact h entry hentry
  | load encoded =>
    cases hkey : decode encoded with
    | error error => simpa only [edit, edited?, hkey]
    | ok key' =>
      simp only [edit, edited?, hkey]
      exact (fits_of_decode hkey he).fits
  | loadRaw point =>
    cases hkey : ofRawPoint point with
    | error error => simpa only [edit, edited?, hkey]
    | ok key' =>
      simp only [edit, edited?, hkey]
      exact (fits_ofRawPoint hkey).fits

/-- **A whole run of edits that fit.** -/
theorem valuesFit_editAll {key : KeyMap} {edits : List Edit} (hedits : ∀ e ∈ edits, e.Fits)
    (h : key.ValuesFit) : (key.editAll edits).ValuesFit := by
  induction edits generalizing key with
  | nil => exact h
  | cons e edits ih =>
    obtain ⟨he, hedits⟩ := List.forall_mem_cons.1 hedits
    exact ih hedits (valuesFit_edit he h)

/-! ## What a key map shows -/

/-- **A key map shows a finite map**, and nothing else: all that is asked of
it is answered by the finite map. -/
structure Shows (key : KeyMap) (m : Bindings) : Prop where
  /-- A label has the value that it has in the finite map. -/
  get? : ∀ label, key.get? label = m.lookup label
  /-- There are as many entries as labels with a value. -/
  size : key.size = m.keys.card
  /-- An integer is read where there is one. -/
  integer : ∀ label n, key.integer label = .ok n ↔ m.lookup label = some (.integer n)
  /-- A byte string is read where there is one. -/
  octets : ∀ label s, key.octets label = .ok s ↔ m.lookup label = some (.octets s)
  /-- Setting a label answers with the value from before. -/
  answer_set : ∀ label value, key.answer (.set label value) = .ok (m.lookup label)
  /-- An edit is answered with an error when it fails for the finite map. -/
  answer_error : ∀ e, (∃ error, key.answer e = .error error) ↔ e.result? m = none
  /-- An edit that is answered with an error changes nothing. -/
  edit_eq : ∀ e error, key.answer e = .error error → key.edit e = key

theorem answer_eq_error_iff {key : KeyMap} {e : Edit} {error : KeyError} :
    key.answer e = .error error ↔ key.edited? e = .error error := by
  unfold answer
  cases key.edited? e with
  | error error' => simp
  | ok key' => cases e <;> simp

theorem shows_bindings (key : KeyMap) : key.Shows key.bindings where
  get? label := (lookup_bindings key label).symm
  size := key.card_keys_bindings.symm
  integer label n := by rw [integer_eq_ok_iff, lookup_bindings]
  octets label s := by rw [octets_eq_ok_iff, lookup_bindings]
  answer_set label value := by rw [lookup_bindings]; rfl
  answer_error e := by
    simp only [answer_eq_error_iff, result?_bindings]
    cases key.edited? e <;> simp [Except.toOption]
  edit_eq e error h := by rw [edit, answer_eq_error_iff.1 h]

/-- **Key maps are finite maps in which the last value counts.** After any
sequence of edits, and so after each edit of a sequence, the key map shows the
finite map that results from the edits that did not fail. It is read back from
its octets, as long as the edits' octets and its labels can be counted in 64
bits. Two sequences of edits that end in one finite map end in one key map,
and in the same octets. -/
theorem shows_editAll (edits : List Edit) :
    (empty.editAll edits).Shows (Bindings.editAll ∅ edits)
      ∧ ((∀ e ∈ edits, e.Fits) → (Bindings.editAll ∅ edits).keys.card < Cbor.argumentBound →
        decode (empty.editAll edits).encode = .ok (empty.editAll edits))
      ∧ ∀ edits', Bindings.editAll ∅ edits' = Bindings.editAll ∅ edits →
        empty.editAll edits' = empty.editAll edits
          ∧ (empty.editAll edits').encode = (empty.editAll edits).encode := by
  rw [← bindings_empty, ← bindings_editAll, card_keys_bindings]
  refine ⟨shows_bindings _, fun hedits hsize => ?_, fun edits' h => ?_⟩
  · have hvalues : empty.ValuesFit := fun _ hentry => absurd hentry List.not_mem_nil
    exact decode_encode ⟨hsize, valuesFit_editAll hedits hvalues⟩
  · rw [← bindings_editAll] at h
    have hkey := bindings_injective h
    exact ⟨hkey, congrArg encode hkey⟩

/-- Two labels that are set, one of them twice, while a raw point of no curve
and an encoded key map with a repeated label are refused. -/
def settings : List Edit :=
  [.set 1 (.integer 2), .loadRaw [0x04, 0x01], .set 1 (.octets [0x07]),
    .load [0xa2, 0x01, 0x02, 0x18, 0x01, 0x00], .set (-1) (.integer 6)]

/-- The other label first, and that one read, after a raw point that is
dropped. -/
def resettings : List Edit :=
  [.loadRaw (List.replicate 64 0x05), .clear, .load [0xa1, 0x20, 0x06], .set 1 (.octets [0x07])]

theorem shows_editAll_settings :
    (empty.editAll settings).size = 2
      ∧ (empty.editAll settings).answer (.set 1 (.integer 0)) = .ok (some (.octets [0x07]))
      ∧ (∃ error, (empty.editAll settings).answer (.load [0xa2, 0x01, 0x02, 0x18, 0x01, 0x00])
        = .error error)
      ∧ (∀ e ∈ settings, e.Fits)
      ∧ decode (empty.editAll settings).encode = .ok (empty.editAll settings)
      ∧ Bindings.editAll ∅ resettings = Bindings.editAll ∅ settings
      ∧ (empty.editAll resettings).encode = (empty.editAll settings).encode := by
  obtain ⟨hshows, hread, hsame⟩ := shows_editAll settings
  have hfits : ∀ e ∈ settings, e.Fits := by decide
  have heq : Bindings.editAll ∅ resettings = Bindings.editAll ∅ settings := by decide +kernel
  have hlookup : (Bindings.editAll ∅ settings).lookup 1 = some (.octets [0x07]) := by
    decide +kernel
  refine ⟨by decide +kernel, ?_, (hshows.answer_error _).2 (by decide +kernel), hfits,
    hread hfits (by decide +kernel), heq, (hsame _ heq).2⟩
  rw [hshows.answer_set, hlookup]

end KeyForms.KeyMap
