import KeyForms.Proofs.Cbor.Shortest
import KeyForms.Proofs.KeyMap.RoundTrip

/-!
# The canonical form of a key map

The octets of a key map can be told from all others without a key map at
hand. They are a map whose head and fields are written as short as they can
be, with nothing after it, and whose labels stand in the bytewise order of
their own octets (`KeyMap.IsCanonical`). Nothing in that speaks of how key
maps are held or written.

Writing puts labels in the order of their ranks, first the ones from zero
upward and then the negative ones away from zero. That this is the bytewise
order has to be shown for every label, since labels are written in five
widths (`Label.rank_lt_iff`). Given that, what is written is canonical
(`KeyMap.isCanonical_encode`), and canonical octets are cut into fields from
which a key map can be built (`KeyMap.exists_encode_of_isCanonical`).
-/

namespace KeyForms

/-! ## The order of labels -/

theorem Label.encodeInteger_lt_of_rank_lt {k l : Int64} (h : rank k < rank l) :
    Cbor.encodeInteger k.toInt < Cbor.encodeInteger l.toInt := by
  have hbound : Cbor.argumentBound = 0x10000000000000000 := rfl
  have hk := k.le_toInt
  have hl := l.le_toInt
  have hk' := k.toInt_lt
  have hl' := l.toInt_lt
  unfold rank at h
  unfold Cbor.encodeInteger
  split at h
  · split at h
    · rw [if_pos (by assumption), if_pos (by assumption)]
      exact Cbor.encodeHead_lt_of_lt (by decide) (by omega) h
    · rw [if_pos (by assumption), if_neg (by assumption)]
      exact Cbor.encodeHead_lt_of_major_lt (by decide) (by omega) (by omega) (by decide)
  · split at h
    · -- no negative label has a smaller rank than one that is not negative
      omega
    · rw [if_neg (by assumption), if_neg (by assumption)]
      exact Cbor.encodeHead_lt_of_lt (by decide) (by omega) (by omega)

/-- **Ranks order labels as their octets are ordered.** -/
theorem Label.rank_lt_iff {k l : Int64} :
    rank k < rank l ↔ Cbor.encodeInteger k.toInt < Cbor.encodeInteger l.toInt := by
  refine ⟨encodeInteger_lt_of_rank_lt, fun h => ?_⟩
  rcases Nat.lt_trichotomy (rank k) (rank l) with hlt | heq | hgt
  · exact hlt
  · rw [rank_injective heq] at h
    exact absurd h (List.lt_irrefl _)
  · exact absurd (encodeInteger_lt_of_rank_lt hgt) (List.lt_asymm h)

/-! ## Canonical octets -/

/-- The octets of a label and the octets of its value. -/
abbrev EncodedField := Octets × Octets

/-- **Octets are a canonical label**: a 64-bit integer as short as it can
be. -/
def EncodedField.IsLabel (s : Octets) : Prop :=
  ∃ label : Int64, Cbor.IsShortestInteger label.toInt s

/-- **Octets are a canonical value**: a 64-bit integer or a byte string, as
short as it can be. -/
inductive EncodedField.IsValue (s : Octets) : Prop where
  /-- An integer. -/
  | integer (n : Int64) (h : Cbor.IsShortestInteger n.toInt s)
  /-- A byte string. -/
  | octets (content : Octets) (h : Cbor.IsShortestOctets content s)

/-- **Octets are a map with the given head and fields**, in canonical form. -/
structure KeyMap.IsCanonicalForm (s head : Octets) (fields : List EncodedField) : Prop where
  /-- There are the head and the fields, and nothing else. -/
  eq_append : s = head ++ fields.flatMap fun field => field.1 ++ field.2
  /-- The head is the shortest for as many fields. -/
  head : (Cbor.Head.map (some fields.length)).IsShortest head
  /-- Every field begins with a label. -/
  label : ∀ field ∈ fields, EncodedField.IsLabel field.1
  /-- Every label has a value. -/
  value : ∀ field ∈ fields, EncodedField.IsValue field.2
  /-- The labels ascend strictly in the bytewise order of their octets. -/
  ascending : fields.Pairwise fun a b => a.1 < b.1

/-- **Octets are the canonical form of a key map.** -/
def KeyMap.IsCanonical (s : Octets) : Prop :=
  ∃ head fields, IsCanonicalForm s head fields

/-! ## Fields and entries -/

/-- A 64-bit integer has one shortest form, the one that is written. -/
theorem Cbor.isShortestInteger_toInt_iff {n : Int64} {s : Octets} :
    IsShortestInteger n.toInt s ↔ s = encodeInteger n.toInt := by
  have hlow := n.le_toInt
  have hhigh := n.toInt_lt
  have hbound : (argumentBound : Int) = 0x10000000000000000 := rfl
  rw [isShortestInteger_iff]
  exact and_iff_right ⟨by omega, by omega⟩

theorem EncodedField.isLabel_iff {s : Octets} :
    IsLabel s ↔ ∃ label : Int64, s = Cbor.encodeInteger label.toInt :=
  exists_congr fun _ => Cbor.isShortestInteger_toInt_iff

theorem EncodedField.isValue_iff {s : Octets} :
    IsValue s ↔ ∃ value : Parameter, value.Fits ∧ s = value.encode := by
  constructor
  · intro h
    cases h with
    | integer n h => exact ⟨.integer n, trivial, Cbor.isShortestInteger_toInt_iff.1 h⟩
    | octets content h =>
      obtain ⟨hfits, hs⟩ := Cbor.isShortestOctets_iff.1 h
      exact ⟨.octets content, hfits, hs⟩
  · rintro ⟨value, hfits, hs⟩
    cases value with
    | integer n => exact .integer n (Cbor.isShortestInteger_toInt_iff.2 hs)
    | octets content => exact .octets content (Cbor.isShortestOctets_iff.2 ⟨hfits, hs⟩)

/-- The field that an entry is written as. -/
def KeyEntry.field (entry : KeyEntry) : EncodedField :=
  (Cbor.encodeInteger entry.1.toInt, entry.2.encode)

/-- **Entries are in order** exactly when their labels ascend as octets. -/
theorem inOrder_iff_ascending {entries : List KeyEntry} :
    InOrder entries ↔ (entries.map KeyEntry.field).Pairwise fun a b => a.1 < b.1 := by
  rw [List.pairwise_map]
  exact List.Pairwise.iff fun _ _ => Label.rank_lt_iff

/-- **Canonical fields are those of entries** that can be written. -/
theorem exists_map_field_eq {fields : List EncodedField}
    (hlabel : ∀ field ∈ fields, EncodedField.IsLabel field.1)
    (hvalue : ∀ field ∈ fields, EncodedField.IsValue field.2) :
    ∃ entries : List KeyEntry, entries.map KeyEntry.field = fields
      ∧ ∀ entry ∈ entries, entry.2.Fits := by
  induction fields with
  | nil => exact ⟨[], rfl, fun _ h => absurd h List.not_mem_nil⟩
  | cons field fields ih =>
    obtain ⟨hl, hlabel⟩ := List.forall_mem_cons.1 hlabel
    obtain ⟨hv, hvalue⟩ := List.forall_mem_cons.1 hvalue
    obtain ⟨entries, rfl, hfits⟩ := ih hlabel hvalue
    obtain ⟨label, hlabel'⟩ := EncodedField.isLabel_iff.1 hl
    obtain ⟨value, hfits', hvalue'⟩ := EncodedField.isValue_iff.1 hv
    refine ⟨(label, value) :: entries, ?_, List.forall_mem_cons.2 ⟨hfits', hfits⟩⟩
    rw [List.map_cons, KeyEntry.field, ← hlabel', ← hvalue']

theorem Cbor.length_encodeInteger_pos (n : Int) : 0 < (encodeInteger n).length := by
  unfold encodeInteger
  split
  · rw [length_encodeHead]
    exact Nat.succ_pos _
  · rw [length_encodeHead]
    exact Nat.succ_pos _

namespace KeyMap

variable {key : KeyMap} {s : Octets}

/-- The octets of a key map are its head and its fields. -/
theorem encode_eq_append (key : KeyMap) :
    key.encode = Cbor.encodeMapHead key.size
      ++ (key.entries.map KeyEntry.field).flatMap fun field => field.1 ++ field.2 := by
  rw [encode, List.flatMap_map]
  rfl

/-- **What is written is canonical.** -/
theorem isCanonical_encode (h : key.Fits) : IsCanonical key.encode := by
  refine ⟨Cbor.encodeMapHead key.size, key.entries.map KeyEntry.field, key.encode_eq_append,
    ?_, ?_, ?_, inOrder_iff_ascending.1 key.inOrder⟩
  · rw [List.length_map]
    exact (Cbor.Head.isShortest_iff 5 key.size (fun _ => rfl) (by decide)).2 ⟨h.size_lt, rfl⟩
  · intro field hfield
    obtain ⟨entry, -, rfl⟩ := List.mem_map.1 hfield
    exact EncodedField.isLabel_iff.2 ⟨entry.1, rfl⟩
  · intro field hfield
    obtain ⟨entry, hentry, rfl⟩ := List.mem_map.1 hfield
    exact EncodedField.isValue_iff.2 ⟨entry.2, h.fits entry hentry, rfl⟩

/-- **What is canonical is written** for some key map. -/
theorem exists_encode_of_isCanonical (h : IsCanonical s) :
    ∃ key : KeyMap, key.Fits ∧ key.encode = s := by
  obtain ⟨head, fields, hform⟩ := h
  obtain ⟨entries, rfl, hfits⟩ := exists_map_field_eq hform.label hform.value
  have hhead := hform.head
  rw [List.length_map] at hhead
  obtain ⟨hsize, hhead⟩ :=
    (Cbor.Head.isShortest_iff 5 entries.length (fun _ => rfl) (by decide)).1 hhead
  have hentries : InOrder entries := inOrder_iff_ascending.2 hform.ascending
  refine ⟨⟨entries, hentries⟩, ⟨hsize, hfits⟩, ?_⟩
  rw [encode_eq_append, hform.eq_append, hhead]
  rfl

/-! ## Lengths

A key map that has no written form has more entries, or more octets in a
value, than a head can say. Its octets are more than that, too. -/

theorem length_le_of_mem {entry : KeyEntry} (h : entry ∈ key.entries) :
    entry.2.encode.length ≤ key.encode.length := by
  have hsublist : entry.encode.Sublist (key.entries.flatMap KeyEntry.encode) :=
    List.sublist_flatten_of_mem (List.mem_map_of_mem h)
  have hle := hsublist.length_le
  rw [KeyEntry.encode, List.length_append] at hle
  rw [encode, List.length_append]
  omega

theorem size_le_length_encode (key : KeyMap) : key.size ≤ key.encode.length := by
  have hle : ∀ entries : List KeyEntry,
      entries.length ≤ (entries.flatMap KeyEntry.encode).length := by
    intro entries
    induction entries with
    | nil => exact Nat.le_refl _
    | cons entry entries ih =>
      have hpos := Cbor.length_encodeInteger_pos entry.1.toInt
      rw [List.flatMap_cons, List.length_append, List.length_cons, KeyEntry.encode,
        List.length_append]
      omega
  rw [encode, List.length_append]
  exact (hle key.entries).trans (Nat.le_add_left _ _)

/-- **A key map fits if its octets are fewer than a head can count.** -/
theorem fits_of_length_encode_lt (h : key.encode.length < Cbor.argumentBound) : key.Fits := by
  refine ⟨Nat.lt_of_le_of_lt key.size_le_length_encode h, fun entry hentry => ?_⟩
  have hle := length_le_of_mem hentry
  cases hvalue : entry.2 with
  | integer n => trivial
  | octets content =>
    rw [hvalue, Parameter.encode, Cbor.encodeOctets, List.length_append] at hle
    show content.length < Cbor.argumentBound
    omega

/-- **The octets of key maps are the canonical ones.** An octet string is
written for some key map exactly when it is canonical. In an octet string
whose length a head can say there is no room for a key map that does not fit,
so there the condition is no restriction. Canonical octets are read, and what
is read of them is written as they are. -/
theorem exists_encode_eq_iff (s : Octets) :
    ((∃ key : KeyMap, key.Fits ∧ key.encode = s) ↔ IsCanonical s)
      ∧ (s.length < Cbor.argumentBound → ((∃ key : KeyMap, key.encode = s) ↔ IsCanonical s))
      ∧ (IsCanonical s → ∃ key, decode s = .ok key ∧ key.encode = s) := by
  have hiff : (∃ key : KeyMap, key.Fits ∧ key.encode = s) ↔ IsCanonical s := by
    refine ⟨?_, exists_encode_of_isCanonical⟩
    rintro ⟨key, hfits, rfl⟩
    exact isCanonical_encode hfits
  refine ⟨hiff, fun hlength => ?_, fun hcanonical => ?_⟩
  · rw [← hiff]
    refine exists_congr fun key => ?_
    constructor
    · rintro rfl
      exact ⟨fits_of_length_encode_lt hlength, rfl⟩
    · exact And.right
  · obtain ⟨key, hfits, rfl⟩ := exists_encode_of_isCanonical hcanonical
    exact ⟨key, decode_encode hfits, rfl⟩

/-- The octets of a key map with labels of every width are canonical, and those
of two fields that stand the other way round are not. -/
theorem exists_encode_eq_iff_widths :
    IsCanonical widths.encode ∧ widths.encode.length < Cbor.argumentBound
      ∧ (∃ key, decode widths.encode = .ok key ∧ key.encode = widths.encode)
      ∧ ¬IsCanonical [0xa2, 0x20, 0x00, 0x01, 0x00] := by
  have hlength : widths.encode.length < Cbor.argumentBound := by decide +kernel
  obtain ⟨-, hiff, hread⟩ := exists_encode_eq_iff widths.encode
  have hcanonical := (hiff hlength).1 ⟨widths, rfl⟩
  refine ⟨hcanonical, hlength, hread hcanonical, fun h => ?_⟩
  obtain ⟨key, hkey, hs⟩ := (exists_encode_eq_iff _).2.2 h
  have hdecode : decode [0xa2, 0x20, 0x00, 0x01, 0x00]
      = .ok (empty |>.insert (-1) (.integer 0) |>.insert 1 (.integer 0)) := rfl
  rw [hdecode] at hkey
  cases hkey
  revert hs
  decide

end KeyMap

end KeyForms
