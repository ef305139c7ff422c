import Mathlib.Data.List.Nodup
import KeyForms.KeyMap.Decoding

/-!
# Entering pairs of items

The pairs of a map are entered one at a time, and each is an entry or is
skipped. Which of the two it is depends on the pair alone, so a list of pairs
splits once and for all into its entries (`KeyMap.entriesOf`) and its skips
(`KeyMap.skipsOf`), before any key map is looked at.

As long as no label comes up twice, entering the pairs is then no more than
setting the labels of the entries, and the skips are reported as they are
(`KeyMap.enter_of_nodup`).
-/

namespace KeyForms

/-- The entry that was read, if it was one. -/
def Reading.kept? : Reading → Option KeyEntry
  | kept label value => some (label, value)
  | skipped _ => none

/-- Why no entry was read, if none was. -/
def Reading.skipped? : Reading → Option Skip
  | kept _ _ => none
  | skipped why => some why

theorem KeyEntry.find?_eq_none_iff {label : Int64} {entries : List KeyEntry} :
    find? label entries = none ↔ label ∉ entries.map Prod.fst := by
  induction entries with
  | nil => simp [find?]
  | cons e entries ih =>
    obtain ⟨l, v⟩ := e
    rw [find?, List.map_cons, List.mem_cons, not_or, ← ih]
    by_cases hl : l = label
    · simp [hl]
    · simp [hl, Ne.symm hl]

/-- Labels in order are different. -/
theorem InOrder.nodup {entries : List KeyEntry} (h : InOrder entries) :
    (entries.map Prod.fst).Nodup := by
  refine List.pairwise_map.2 (h.imp fun hlt heq => ?_)
  rw [heq] at hlt
  exact Nat.lt_irrefl _ hlt

namespace KeyMap

/-- **The pairs of octets** are those of the map that is read from all of
them. -/
theorem pairsOf_eq_ok_iff {s : Octets} {pairs : List (Cbor.Item × Cbor.Item)} :
    pairsOf s = .ok pairs ↔ Cbor.read s = .ok (.map pairs, []) := by
  constructor
  · intro h
    unfold pairsOf at h
    split at h
    · cases h
    · cases h
    · rename_i hread
      cases h
      exact hread
    · cases h
  · intro h
    rw [pairsOf, h]

/-- **The entries among pairs of items**, in their order. -/
def entriesOf (pairs : List (Cbor.Item × Cbor.Item)) : List KeyEntry :=
  pairs.filterMap fun pair => (Reading.ofItems pair).kept?

/-- **The skips among pairs of items**, in their order. -/
def skipsOf (pairs : List (Cbor.Item × Cbor.Item)) : List Skip :=
  pairs.filterMap fun pair => (Reading.ofItems pair).skipped?

theorem entriesOf_cons (pair : Cbor.Item × Cbor.Item) (pairs : List (Cbor.Item × Cbor.Item)) :
    entriesOf (pair :: pairs) = (Reading.ofItems pair).kept?.toList ++ entriesOf pairs := by
  rw [entriesOf, List.filterMap_cons]
  cases (Reading.ofItems pair).kept? <;> rfl

theorem skipsOf_cons (pair : Cbor.Item × Cbor.Item) (pairs : List (Cbor.Item × Cbor.Item)) :
    skipsOf (pair :: pairs) = (Reading.ofItems pair).skipped?.toList ++ skipsOf pairs := by
  rw [skipsOf, List.filterMap_cons]
  cases (Reading.ofItems pair).skipped? <;> rfl

/-- The key map with the labels of all entries set, the first entry first. -/
def insertAll (key : KeyMap) (entries : List KeyEntry) : KeyMap :=
  entries.foldl (fun key entry => key.insert entry.1 entry.2) key

/-- **What setting several labels changes**, when they are different. -/
theorem get?_insertAll (key : KeyMap) {entries : List KeyEntry}
    (h : (entries.map Prod.fst).Nodup) (label : Int64) :
    (key.insertAll entries).get? label = (KeyEntry.find? label entries).or (key.get? label) := by
  induction entries generalizing key with
  | nil => rfl
  | cons e entries ih =>
    obtain ⟨l, v⟩ := e
    obtain ⟨hl, htail⟩ := List.nodup_cons.1 h
    show ((key.insert l v).insertAll entries).get? label = _
    rw [ih (key.insert l v) htail, get?_insert, KeyEntry.find?]
    by_cases heq : label = l
    · subst heq
      rw [KeyEntry.find?_eq_none_iff.2 hl]
      simp
    · simp [heq, Ne.symm heq]

/-- **Entering pairs sets the labels of their entries**, as long as these are
different from each other and from those of the key map. What comes after is
entered into the key map that results. -/
theorem enter_append {key : KeyMap} {pairs : List (Cbor.Item × Cbor.Item)}
    (h : ((entriesOf pairs).map Prod.fst).Nodup)
    (hkey : ∀ entry ∈ entriesOf pairs, key.get? entry.1 = none)
    (later : List (Cbor.Item × Cbor.Item)) :
    enter key (pairs ++ later)
      = ⟨skipsOf pairs ++ (enter (key.insertAll (entriesOf pairs)) later).skipped,
        (enter (key.insertAll (entriesOf pairs)) later).key⟩ := by
  induction pairs generalizing key with
  | nil => rfl
  | cons pair pairs ih =>
    rw [entriesOf_cons] at h hkey
    rw [entriesOf_cons, skipsOf_cons, List.cons_append]
    cases hpair : Reading.ofItems pair with
    | skipped why =>
      rw [hpair] at h hkey
      simp only [enter, hpair, ih h hkey]
      rfl
    | kept label value =>
      rw [hpair] at h hkey
      obtain ⟨hlabel, htail⟩ := List.nodup_cons.1 h
      have hnone : key.get? label = none := hkey _ List.mem_cons_self
      -- setting this label leaves the later ones free
      have hkey' : ∀ entry ∈ entriesOf pairs, (key.insert label value).get? entry.1 = none := by
        intro entry hentry
        have hne : entry.1 ≠ label := fun heq =>
          hlabel (List.mem_map.2 ⟨entry, hentry, heq⟩)
        rw [get?_insert, if_neg hne]
        exact hkey entry (List.mem_cons_of_mem _ hentry)
      simp only [enter, hpair, hnone, Option.isSome_none, Bool.false_eq_true, if_false,
        ih htail hkey']
      rfl

/-- The form of `enter_append` for pairs that nothing comes after. -/
theorem enter_of_nodup {key : KeyMap} {pairs : List (Cbor.Item × Cbor.Item)}
    (h : ((entriesOf pairs).map Prod.fst).Nodup)
    (hkey : ∀ entry ∈ entriesOf pairs, key.get? entry.1 = none) :
    enter key pairs = ⟨skipsOf pairs, .ok (key.insertAll (entriesOf pairs))⟩ := by
  have happend := enter_append h hkey []
  rwa [List.append_nil, enter, List.append_nil] at happend

end KeyMap

end KeyForms
