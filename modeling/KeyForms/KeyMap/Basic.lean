import KeyForms.Octets

/-!
# Key maps

A key map gives values to labels; it is the form that COSE gives to a key.
Labels are 64-bit integers; a value is a 64-bit integer or a byte string.
`KeyMap.get?` is the view of a key map, and two key maps with the same view
are equal (`KeyMap.ext_get?`).

The entries are held in the order in which they are written: labels from
zero upward, then the negative labels away from zero. `Label.rank` numbers
the labels in that order, and the entries' ranks increase strictly. The order
in which a key map was filled therefore leaves no trace in it.
-/

namespace KeyForms

/-- The value of a field. -/
inductive Parameter where
  /-- An integer. -/
  | integer (n : Int64)
  /-- A byte string. -/
  | octets (s : Octets)
deriving DecidableEq

/-! ## Labels -/

namespace Label

/-- **The place of a label** among all labels: `0, 1, …, 2^63 - 1`, then
`-1, -2, …, -2^63`. -/
def rank (label : Int64) : Nat :=
  if 0 ≤ label.toInt then label.toInt.toNat
  else 0x8000000000000000 + (-1 - label.toInt).toNat

theorem rank_injective {k l : Int64} (h : rank k = rank l) : k = l := by
  have hk := Int64.toInt_lt k
  have hl := Int64.toInt_lt l
  apply Int64.toInt_inj.1
  simp only [rank] at h
  split at h <;> split at h <;> omega

/-- The key type. -/
def keyType : Int64 := 1

/-- The algorithm with which the key is used. -/
def algorithm : Int64 := 3

/-- The curve of a key on a curve. -/
def curve : Int64 := -1

/-- The first coordinate, or the only string, of a key on a curve. -/
def x : Int64 := -2

/-- The second coordinate. -/
def y : Int64 := -3

/-- The modulus of an RSA key. -/
def modulus : Int64 := -1

/-- The public exponent of an RSA key. -/
def exponent : Int64 := -2

end Label

/-! ## Entries in order -/

/-- A label and its value. -/
abbrev KeyEntry := Int64 × Parameter

/-- Entries in the order of their labels, no label twice. -/
def InOrder (entries : List KeyEntry) : Prop :=
  entries.Pairwise (fun a b => Label.rank a.1 < Label.rank b.1)

namespace KeyEntry

/-- The value of a label among entries. -/
def find? (label : Int64) : List KeyEntry → Option Parameter
  | [] => none
  | (l, v) :: entries => if l = label then some v else find? label entries

/-- Entries with one more, which takes the place of an earlier one with its
label. -/
def insert (label : Int64) (value : Parameter) : List KeyEntry → List KeyEntry
  | [] => [(label, value)]
  | (l, v) :: entries =>
    if label = l then (label, value) :: entries
    else if Label.rank label < Label.rank l then (label, value) :: (l, v) :: entries
    else (l, v) :: insert label value entries

theorem mem_insert {label : Int64} {value : Parameter} {a : KeyEntry}
    {entries : List KeyEntry} (h : a ∈ insert label value entries) :
    a = (label, value) ∨ a ∈ entries := by
  induction entries with
  | nil => simpa [insert] using h
  | cons e entries ih =>
    obtain ⟨l, v⟩ := e
    simp only [insert] at h
    split at h
    · rcases List.mem_cons.1 h with h | h
      · exact Or.inl h
      · exact Or.inr (List.mem_cons_of_mem _ h)
    · split at h
      · exact List.mem_cons.1 h
      · rcases List.mem_cons.1 h with h | h
        · exact Or.inr (h ▸ List.mem_cons_self)
        · rcases ih h with h | h
          · exact Or.inl h
          · exact Or.inr (List.mem_cons_of_mem _ h)

theorem inOrder_insert (label : Int64) (value : Parameter) {entries : List KeyEntry}
    (h : InOrder entries) : InOrder (insert label value entries) := by
  induction entries with
  | nil => simp [insert, InOrder]
  | cons e entries ih =>
    obtain ⟨l, v⟩ := e
    obtain ⟨hl, htail⟩ := List.pairwise_cons.1 h
    simp only [insert]
    split
    · rename_i heq
      subst heq
      exact List.pairwise_cons.2 ⟨hl, htail⟩
    · split
      · rename_i hlt
        refine List.pairwise_cons.2 ⟨fun a ha => ?_, h⟩
        rcases List.mem_cons.1 ha with rfl | ha
        · exact hlt
        · exact Nat.lt_trans hlt (hl a ha)
      · rename_i hne hge
        refine List.pairwise_cons.2 ⟨fun a ha => ?_, ih htail⟩
        rcases mem_insert ha with rfl | ha
        · have : Label.rank label ≠ Label.rank l := fun heq => hne (Label.rank_injective heq)
          simp only
          omega
        · exact hl a ha

theorem find?_insert (label : Int64) (value : Parameter) (l : Int64)
    (entries : List KeyEntry) :
    find? l (insert label value entries) = if l = label then some value else find? l entries := by
  induction entries with
  | nil => simp [insert, find?, eq_comm]
  | cons e entries ih =>
    obtain ⟨k, v⟩ := e
    simp only [insert]
    split
    · rename_i heq
      subst heq
      by_cases hl : l = label
      · simp [find?, hl]
      · simp [find?, hl, Ne.symm hl]
    · rename_i hne
      split
      · by_cases hl : l = label
        · simp [find?, hl]
        · simp [find?, hl, Ne.symm hl]
      · by_cases hk : k = l
        · subst hk
          simp [find?, Ne.symm hne]
        · simp [find?, hk, ih]

/-- A label whose rank is below all others has no value. -/
theorem find?_eq_none {label : Int64} {entries : List KeyEntry}
    (h : ∀ a ∈ entries, Label.rank label < Label.rank a.1) : find? label entries = none := by
  induction entries with
  | nil => rfl
  | cons e entries ih =>
    obtain ⟨l, v⟩ := e
    have hl : l ≠ label := by
      rintro rfl
      exact Nat.lt_irrefl _ (h _ List.mem_cons_self)
    simp only [find?, if_neg hl]
    exact ih fun a ha => h a (List.mem_cons_of_mem _ ha)

/-- **Entries in order are determined by the values they give.** -/
theorem eq_of_find?_eq {as bs : List KeyEntry} (ha : InOrder as) (hb : InOrder bs)
    (h : ∀ label, find? label as = find? label bs) : as = bs := by
  induction as generalizing bs with
  | nil =>
    cases bs with
    | nil => rfl
    | cons b bs => simpa [find?] using h b.1
  | cons a as ih =>
    obtain ⟨k, v⟩ := a
    obtain ⟨hka, htail⟩ := List.pairwise_cons.1 ha
    cases bs with
    | nil => simpa [find?] using h k
    | cons b bs =>
      obtain ⟨l, w⟩ := b
      obtain ⟨hlb, htail'⟩ := List.pairwise_cons.1 hb
      have hkl : k = l := by
        apply Label.rank_injective
        rcases Nat.lt_trichotomy (Label.rank k) (Label.rank l) with hlt | heq | hgt
        · have hne : l ≠ k := by
            rintro rfl
            exact Nat.lt_irrefl _ hlt
          have hnone : find? k bs = none :=
            find?_eq_none fun b hb' => Nat.lt_trans hlt (hlb b hb')
          simpa [find?, hne, hnone] using h k
        · exact heq
        · have hne : k ≠ l := by
            rintro rfl
            exact Nat.lt_irrefl _ hgt
          have hnone : find? l as = none :=
            find?_eq_none fun a ha' => Nat.lt_trans hgt (hka a ha')
          simpa [find?, hne, hnone] using h l
      subst hkl
      have hvw : v = w := by simpa [find?] using h k
      subst hvw
      refine congrArg _ (ih htail htail' fun label => ?_)
      by_cases hk : k = label
      · subst hk
        rw [find?_eq_none hka, find?_eq_none hlb]
      · simpa [find?, hk] using h label

end KeyEntry

/-! ## Key maps -/

/-- **A key map**: its entries, in the order of their labels. -/
structure KeyMap where
  /-- The entries. -/
  entries : List KeyEntry
  /-- They are in order, and no label occurs twice. -/
  inOrder : InOrder entries
deriving DecidableEq

namespace KeyMap

/-- The key map without entries. -/
def empty : KeyMap := ⟨[], List.Pairwise.nil⟩

/-- **The value of a label**, if it has one. -/
def get? (key : KeyMap) (label : Int64) : Option Parameter :=
  KeyEntry.find? label key.entries

/-- The key map with a label set to a value, whatever it was before. -/
def insert (key : KeyMap) (label : Int64) (value : Parameter) : KeyMap :=
  ⟨KeyEntry.insert label value key.entries, KeyEntry.inOrder_insert label value key.inOrder⟩

/-- The number of labels that have a value. -/
def size (key : KeyMap) : Nat := key.entries.length

/-- Whether no label has a value. -/
def isEmpty (key : KeyMap) : Bool := key.entries.isEmpty

@[simp] theorem get?_empty (label : Int64) : empty.get? label = none := rfl

/-- **Setting a label changes that label and no other.** -/
@[simp] theorem get?_insert (key : KeyMap) (label : Int64) (value : Parameter) (l : Int64) :
    (key.insert label value).get? l = if l = label then some value else key.get? l :=
  KeyEntry.find?_insert label value l key.entries

/-- **Key maps that give the same values are the same.** -/
theorem ext_get? {a b : KeyMap} (h : ∀ label, a.get? label = b.get? label) : a = b := by
  obtain ⟨as, ha⟩ := a
  obtain ⟨bs, hb⟩ := b
  have heq : as = bs := KeyEntry.eq_of_find?_eq ha hb h
  subst heq
  rfl

end KeyMap

end KeyForms
