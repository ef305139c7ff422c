import KeyForms.Proofs.KeyMap.Kept

/-!
# Extra pairs

Pairs that are put among others, at any places, are extra when they bring no
label that somebody asks for and none that stands there already
(`KeyMap.AreExtra`). Skipped pairs are always extra, also if their label is
asked for, since they enter none.

Extra pairs leave no trace in what is asked for (`KeyMap.ofPairs_of_extras`). If
a key map is read, the labels that are asked for have the same values with them
and without them. If none is read, then it is because of the same label: the
first pair that repeats one repeats it still, and no pair before it does.
-/

namespace KeyForms

/-! ## Interleaved lists -/

/-- **A list with others put in**: `all` are the elements of `xs` in their order
and those of `ys` in theirs. -/
inductive Interleaved {α : Type} : List α → List α → List α → Prop where
  /-- Nothing to put together. -/
  | nil : Interleaved [] [] []
  /-- The next element is one of the first list. -/
  | left {xs ys all : List α} (x : α) (h : Interleaved xs ys all) :
    Interleaved (x :: xs) ys (x :: all)
  /-- The next element is one that was put in. -/
  | right {xs ys all : List α} (y : α) (h : Interleaved xs ys all) :
    Interleaved xs (y :: ys) (y :: all)

namespace Interleaved

variable {α : Type} {xs ys all : List α}

/-- Nothing is lost or added. -/
theorem perm (h : Interleaved xs ys all) : all.Perm (xs ++ ys) := by
  induction h with
  | nil => exact .refl []
  | left x h ih => exact ih.cons x
  | right y h ih => exact (ih.cons y).trans List.perm_middle.symm

/-- **What stands before an element** is what stood before it, with some of the
others put in. -/
theorem exists_of_append_cons {before after : List α} {x : α}
    (h : Interleaved (before ++ x :: after) ys all) :
    ∃ ys₁ ys₂ before' after', ys = ys₁ ++ ys₂ ∧ all = before' ++ x :: after'
      ∧ Interleaved before ys₁ before' := by
  -- along the interleaving, which goes to `before` as long as there is some of it
  generalize hxs : before ++ x :: after = xs at h
  induction h generalizing before with
  | nil => exact absurd hxs (by simp)
  | @left xs ys all z h ih =>
    cases before with
    | nil =>
      obtain ⟨rfl, rfl⟩ := List.cons.inj hxs
      exact ⟨[], ys, [], all, rfl, rfl, .nil⟩
    | cons b before =>
      obtain ⟨rfl, hrest⟩ := List.cons.inj hxs
      obtain ⟨ys₁, ys₂, before', after', rfl, rfl, hbefore⟩ := ih hrest
      exact ⟨ys₁, ys₂, b :: before', after', rfl, rfl, .left b hbefore⟩
  | right y h ih =>
    obtain ⟨ys₁, ys₂, before', after', rfl, rfl, hbefore⟩ := ih hxs
    exact ⟨y :: ys₁, ys₂, y :: before', after', rfl, rfl, .right y hbefore⟩

end Interleaved

namespace KeyMap

variable {pairs extras all : List (Cbor.Item × Cbor.Item)} {labels : List Int64}

/-- **Key maps that agree on some labels.** -/
def AgreesOn (labels : List Int64) (a b : KeyMap) : Prop :=
  ∀ label ∈ labels, a.get? label = b.get? label

/-- **Extra pairs**: the kept ones among them have labels that are not asked for,
that are different, and that no kept pair has already. Nothing is said of the
pairs that are skipped. -/
structure AreExtra (labels : List Int64) (pairs extras : List (Cbor.Item × Cbor.Item)) :
    Prop where
  /-- Their labels are not asked for. -/
  unread : ∀ entry : KeyEntry, entry.items ∈ extras → entry.1 ∉ labels
  /-- No two of them have the same label. -/
  differ : LabelsDiffer extras
  /-- Their labels are new. -/
  new : ∀ a b : KeyEntry, a.items ∈ pairs → b.items ∈ extras → a.1 ≠ b.1

theorem areExtra_iff :
    AreExtra labels pairs extras ↔ (∀ entry ∈ entriesOf extras, entry.1 ∉ labels)
      ∧ LabelsDiffer extras ∧ ∀ a ∈ entriesOf pairs, ∀ b ∈ entriesOf extras, a.1 ≠ b.1 := by
  simp only [mem_entriesOf_iff]
  exact ⟨fun h => ⟨h.unread, h.differ, fun a ha b hb => h.new a b ha hb⟩,
    fun ⟨hunread, hdiffer, hnew⟩ => ⟨hunread, hdiffer, fun a b ha hb => hnew a ha b hb⟩⟩

instance : Decidable (AreExtra labels pairs extras) := decidable_of_iff _ areExtra_iff.symm

/-- Some of the extra pairs are extra to some of the pairs. -/
theorem AreExtra.mono {pairs' extras' : List (Cbor.Item × Cbor.Item)}
    (h : AreExtra labels pairs extras) (hpairs : pairs' ⊆ pairs)
    (hextras : extras'.Sublist extras) : AreExtra labels pairs' extras' where
  unread entry hentry := h.unread entry (hextras.subset hentry)
  differ := h.differ.sublist hextras
  new a b ha hb := h.new a b (hpairs ha) (hextras.subset hb)

/-- **Extra pairs repeat no label.** -/
theorem labelsDiffer_iff_of_extras (h : AreExtra labels pairs extras)
    (hall : Interleaved pairs extras all) : LabelsDiffer all ↔ LabelsDiffer pairs := by
  rw [labelsDiffer_iff_of_perm hall.perm]
  constructor
  · intro hdiffer
    exact hdiffer.sublist (List.sublist_append_left pairs extras)
  · intro hpairs
    refine List.pairwise_append.2 ⟨hpairs, h.differ, ?_⟩
    rintro p hp q hq a b rfl rfl
    exact h.new a b hp hq

/-- **A label that is asked for has the value it had without extra pairs.** -/
theorem agreesOn_of_extras {key key' : KeyMap} (h : AreExtra labels pairs extras)
    (hall : Interleaved pairs extras all) (hkey : ofPairs pairs = .ok key)
    (hkey' : ofPairs all = .ok key') : key.AgreesOn labels key' := by
  have hentries := (ofPairs_eq_ok_iff.1 hkey).2
  have hentries' := (ofPairs_eq_ok_iff.1 hkey').2
  intro label hlabel
  refine Option.ext fun value => ?_
  rw [get?_eq_some_iff, get?_eq_some_iff, hentries.mem_iff, hentries'.mem_iff, mem_entriesOf_iff,
    mem_entriesOf_iff, hall.perm.mem_iff, List.mem_append]
  -- an entry with the label is not among the extra pairs
  refine ⟨Or.inl, fun hmem => hmem.resolve_right fun hextra => ?_⟩
  exact h.unread _ hextra hlabel

/-- **A label that is repeated is repeated at the same pair**, whatever extra
pairs there are. -/
theorem exists_error_of_extras (h : AreExtra labels pairs extras)
    (hall : Interleaved pairs extras all) (hpairs : ¬LabelsDiffer pairs) :
    ∃ error, ofPairs pairs = .error error ∧ ofPairs all = .error error := by
  obtain ⟨before, entry, after, rfl, hbefore, value, hvalue⟩ := exists_first_repeat hpairs
  obtain ⟨extras₁, extras₂, before', after', rfl, rfl, hall'⟩ := hall.exists_of_append_cons
  -- the pair is still the first that repeats a label: those before it are as before, with extras
  have hextras₁ : AreExtra labels before extras₁ :=
    h.mono (List.subset_append_left _ _) (List.sublist_append_left _ _)
  have hbefore' := (labelsDiffer_iff_of_extras hextras₁ hall').2 hbefore
  have hvalue' : KeyEntry.items (entry.1, value) ∈ before' :=
    hall'.perm.mem_iff.2 (List.mem_append_left _ hvalue)
  exact ⟨_, ofPairs_of_repeat hbefore hvalue, ofPairs_of_repeat hbefore' hvalue'⟩

/-- **Extra pairs leave no trace in what is asked for**: there is the same error
with them as without them, or there are key maps that agree. -/
theorem ofPairs_of_extras (h : AreExtra labels pairs extras)
    (hall : Interleaved pairs extras all) :
    (∃ error, ofPairs pairs = .error error ∧ ofPairs all = .error error)
      ∨ ∃ key key', ofPairs pairs = .ok key ∧ ofPairs all = .ok key'
        ∧ key.AgreesOn labels key' := by
  by_cases hpairs : LabelsDiffer pairs
  · obtain ⟨key, hkey⟩ := exists_ofPairs_eq_ok hpairs
    obtain ⟨key', hkey'⟩ := exists_ofPairs_eq_ok ((labelsDiffer_iff_of_extras h hall).2 hpairs)
    exact Or.inr ⟨key, key', hkey, hkey', agreesOn_of_extras h hall hkey hkey'⟩
  · exact Or.inl (exists_error_of_extras h hall hpairs)

/-- **Reading fails as it did without extra pairs.** -/
theorem ofPairs_eq_error_iff_of_extras {error : KeyError} (h : AreExtra labels pairs extras)
    (hall : Interleaved pairs extras all) :
    ofPairs all = .error error ↔ ofPairs pairs = .error error := by
  rcases ofPairs_of_extras h hall with ⟨_, hpairs, hall'⟩ | ⟨_, _, hpairs, hall', -⟩
  · rw [hpairs, hall']
  · rw [hpairs, hall']
    constructor <;> rintro ⟨⟩

end KeyMap

end KeyForms
