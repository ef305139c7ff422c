import Mathlib.Data.List.Forall2
import KeyForms.Proofs.Import.Native
import KeyForms.Proofs.KeyMap.Kept
import KeyForms.Proofs.Material

/-!
# The events of an import

Nothing is left out of a key without a word. Every pair of the encoded map is
kept or reported, never both, and the reports stand in the order of the pairs
(`KeyMap.forall₂_isReportOf`). Where a label comes up twice, the reports end
with the pair that repeats it.

The reports on pairs come first. What follows them is told by the key map and
the result of the import (`Event.Follow`): the kind of the key as soon as it is
known, whatever else may be missing, and a refusal if the key was handed over
and refused. The whole of it is `Native.importKey_events`.
-/

namespace KeyForms

/-! ## Reports on pairs -/

/-- **An event is a report on a skipped pair.** Its words are fixed by the pair,
and it names the label if that is a 64-bit integer. -/
structure Event.IsReportOf {ε : Type} (event : Event ε) (pair : Cbor.Item × Cbor.Item) :
    Prop where
  /-- A skipped pair is of interest for following a run. -/
  level : event.level = .trace
  /-- The event names the label of the pair, if that is a 64-bit integer. -/
  label : ∀ label : Int64, event.label? = some label ↔ pair.1 = .integer label.toInt
  /-- The words for a pair whose label is no 64-bit integer. -/
  message_of_label : (∀ label : Int64, pair.1 ≠ .integer label.toInt) →
    event.message = "skipping COSE_Key entry with non-integer label"
  /-- The words for a pair whose value is an integer of up to 64 bits and a
  sign. -/
  message_of_integer : (∃ label : Int64, pair.1 = .integer label.toInt) →
    (∃ n, pair.2 = .integer n ∧ -0x10000000000000000 ≤ n ∧ n < 0x10000000000000000) →
    event.message = "skipping COSE_Key integer outside i64 range"
  /-- The words for a pair whose value is anything else. -/
  message_of_value : (∃ label : Int64, pair.1 = .integer label.toInt) →
    (∀ n, pair.2 = .integer n → n < -0x10000000000000000 ∨ 0x10000000000000000 ≤ n) →
    event.message = "skipping COSE_Key entry"

namespace Reading

theorem isPlain_iff {n : Int} :
    isPlain n = true ↔ -0x10000000000000000 ≤ n ∧ n < 0x10000000000000000 := by
  rw [isPlain, Bool.and_eq_true, decide_eq_true_iff, decide_eq_true_iff]

/-- **Why a value is skipped**: it is a plain integer that is too large, or it is
no plain integer at all. -/
theorem ofValue_eq_skipped {label : Int64} {item : Cbor.Item} {why : Skip}
    (h : ofValue label item = .skipped why) :
    why = .wideInteger label ∧ (∃ n, item = .integer n ∧ isPlain n = true)
      ∨ why = .value label ∧ ∀ n, item = .integer n → isPlain n = false := by
  cases item with
  | integer n =>
    cases hn : int64? n with
    | some k => simp [ofValue, hn] at h
    | none =>
      simp only [ofValue, hn, skipped.injEq] at h
      split at h
      · rename_i hplain
        exact Or.inl ⟨h.symm, n, rfl, hplain⟩
      · rename_i hplain
        refine Or.inr ⟨h.symm, ?_⟩
        rintro _ ⟨⟩
        exact Bool.eq_false_iff.2 hplain
  | string kind content =>
    cases kind with
    | octets => simp [ofValue] at h
    | text => exact Or.inr ⟨(skipped.inj h).symm, fun n hn => by cases hn⟩
  | _ => exact Or.inr ⟨(skipped.inj h).symm, fun n hn => by cases hn⟩

end Reading

/-- **The event of a skipped pair is a report on it.** -/
theorem Event.isReportOf_of_skipped {ε : Type} {pair : Cbor.Item × Cbor.Item} {why : Skip}
    (h : Reading.ofItems pair = .skipped why) : (skipped why : Event ε).IsReportOf pair := by
  obtain ⟨first, second⟩ := pair
  unfold Reading.ofItems at h
  cases hlabel : Reading.label? first with
  | none =>
    have hnot : ∀ label : Int64, first ≠ .integer label.toInt := by
      intro label hfirst
      rw [Reading.label?_eq_some_iff.2 hfirst] at hlabel
      cases hlabel
    simp only [hlabel, Reading.skipped.injEq] at h
    subst h
    exact {
      level := rfl
      label := fun label => iff_of_false (by rintro ⟨⟩) (hnot label)
      message_of_label := fun _ => rfl
      message_of_integer := fun ⟨label, h⟩ => absurd h (hnot label)
      message_of_value := fun ⟨label, h⟩ => absurd h (hnot label) }
  | some label =>
    simp only [hlabel] at h
    obtain rfl := Reading.label?_eq_some_iff.1 hlabel
    have hinj (l : Int64) : some label = some l
        ↔ (Cbor.Item.integer label.toInt) = .integer l.toInt := by
      rw [Option.some.injEq, Cbor.Item.integer.injEq, Int64.toInt_inj]
    obtain ⟨rfl, n, rfl, hplain⟩ | ⟨rfl, hvalue⟩ := Reading.ofValue_eq_skipped h
    · rw [Reading.isPlain_iff] at hplain
      refine ⟨rfl, hinj, fun hnot => absurd rfl (hnot label), fun _ _ => rfl, ?_⟩
      intro _ hwide
      have := hwide n rfl
      omega
    · refine ⟨rfl, hinj, fun hnot => absurd rfl (hnot label), ?_, fun _ _ => rfl⟩
      rintro - ⟨n, hn, hplain⟩
      rw [← Reading.isPlain_iff, hvalue n hn] at hplain
      cases hplain

namespace KeyMap

variable {pairs : List (Cbor.Item × Cbor.Item)} {s : Octets} {key : KeyMap}

/-- **Every pair that is not kept is reported**, and the reports stand in the
order of the pairs. -/
theorem forall₂_isReportOf {ε : Type} (pairs : List (Cbor.Item × Cbor.Item)) :
    List.Forall₂ (Event.IsReportOf (ε := ε)) ((skipsOf pairs).map .skipped)
      (pairs.filter (¬IsKept ·)) := by
  induction pairs with
  | nil => exact .nil
  | cons pair pairs ih =>
    rw [skipsOf_cons]
    cases hpair : Reading.ofItems pair with
    | kept label value =>
      have hkept : IsKept pair := ⟨(label, value), Reading.ofItems_eq_kept_iff.1 hpair⟩
      rw [List.filter_cons_of_neg (by simpa using hkept)]
      exact ih
    | skipped why =>
      have hkept : ¬IsKept pair := by
        rw [isKept_iff, hpair]
        exact Bool.false_ne_true
      rw [List.filter_cons_of_pos (by simpa using hkept)]
      exact .cons (Event.isReportOf_of_skipped hpair) ih

/-- **Every pair is kept or reported**, and never both. -/
theorem length_skipsOf_add (pairs : List (Cbor.Item × Cbor.Item)) :
    (skipsOf pairs).length + pairs.countP (IsKept ·) = pairs.length := by
  have hlength := (forall₂_isReportOf (ε := Empty) pairs).length_eq
  rw [List.length_map, ← List.countP_eq_length_filter] at hlength
  have hcount := List.length_eq_countP_add_countP (fun pair => decide (IsKept pair)) (l := pairs)
  simp only [decide_eq_true_eq] at hcount
  omega

/-- **A key map that is read** comes with the reports on all pairs, and has an
entry for every other one. -/
theorem load_of_decode_eq_ok (h : pairsOf s = .ok pairs) (hkey : decode s = .ok key) :
    load s = ⟨skipsOf pairs, .ok key⟩
      ∧ (skipsOf pairs).length + key.size = pairs.length := by
  rw [decode_eq_ofPairs h] at hkey
  obtain ⟨hdiffer, hperm⟩ := ofPairs_eq_ok_iff.1 hkey
  constructor
  · have henter : enter empty pairs = _ :=
      enter_of_nodup (labelsDiffer_iff.1 hdiffer) fun _ _ => rfl
    rw [ofPairs, henter] at hkey
    rw [load, h]
    show enter empty pairs = _
    rw [henter, ← hkey]
  · rw [size, hperm.length_eq, length_entriesOf, length_skipsOf_add]

/-- **Reading that fails** does so at the first pair that repeats a label, with
the reports on the pairs before it. -/
theorem load_of_decode_eq_error {error : KeyError} (h : pairsOf s = .ok pairs)
    (herror : decode s = .error error) :
    ∃ before entry after, pairs = before ++ KeyEntry.items entry :: after
      ∧ LabelsDiffer before ∧ (∃ value, KeyEntry.items (entry.1, value) ∈ before)
      ∧ error = .malformed (.duplicate entry.1)
      ∧ load s = ⟨skipsOf before, .error error⟩ := by
  rw [decode_eq_ofPairs h] at herror
  have hdiffer : ¬LabelsDiffer pairs := by
    intro hdiffer
    rw [ofPairs, enter_of_nodup (labelsDiffer_iff.1 hdiffer) fun _ _ => rfl] at herror
    cases herror
  obtain ⟨before, entry, after, rfl, hbefore, value, hvalue⟩ := exists_first_repeat hdiffer
  have henter : enter empty (before ++ entry.items :: after) = _ :=
    enter_of_repeat hbefore hvalue
  rw [ofPairs, henter] at herror
  cases herror
  refine ⟨before, entry, after, rfl, hbefore, ⟨value, hvalue⟩, rfl, ?_⟩
  rw [load, h]
  exact henter

end KeyMap

/-! ## What follows the reports on pairs -/

/-- **A key map tells the kind of its key**: it has the type of such keys, and
the number of the curve if there is one to state. -/
structure KeyMap.IsOfKind (key : KeyMap) (kind : KeyKind) : Prop where
  /-- The key type. -/
  keyType : key.get? Label.keyType = some (.integer kind.keyType.id)
  /-- The curve. -/
  curve : ∀ id ∈ kind.curveId?, key.get? Label.curve = some (.integer id)

theorem KeyMap.isOfKind_iff {key : KeyMap} {kind : KeyKind} :
    key.IsOfKind kind ↔ KeyKind.ofKeyMap key = .ok kind := by
  rw [KeyKind.ofKeyMap_eq_ok_iff]
  exact ⟨fun h => ⟨h.keyType, h.curve⟩, fun h => ⟨h.1, h.2⟩⟩

/-- **The events that follow the reports on pairs**, for a key map that was read
and the result of importing it. -/
inductive Event.Follow {ε κ : Type} (key : KeyMap) :
    Except (ImportError ε) κ → List (Event ε) → Prop where
  /-- The kind of the key is not known. -/
  | unknown {cause : KeyError} (hkind : ∀ kind, ¬key.IsOfKind kind) :
    Follow key (.error (.unusable cause)) []
  /-- The kind is known, and the key did not get as far as the provider. -/
  | unusable {kind : KeyKind} {cause : KeyError} (hkind : key.IsOfKind kind) :
    Follow key (.error (.unusable cause)) [.selected kind]
  /-- The provider took the key. -/
  | taken {kind : KeyKind} {k : κ} (hkind : key.IsOfKind kind) :
    Follow key (.ok k) [.selected kind]
  /-- The provider refused the key. -/
  | refused {kind : KeyKind} {reason : ε} (hkind : key.IsOfKind kind) :
    Follow key (.error (.refused kind.keyType reason))
      [.selected kind, .refused kind.keyType reason]

/-- What follows the reports on pairs is of interest for finding faults. -/
theorem Event.Follow.level {ε κ : Type} {key : KeyMap} {result : Except (ImportError ε) κ}
    {later : List (Event ε)} (h : Follow key result later) :
    ∀ event ∈ later, event.level = .debug := by
  cases h <;> simp [Event.level]

/-- **Material is of the kind that its key map tells.** -/
theorem Material.isOfKind_of_isMadeOf {key : KeyMap} {material : Material}
    (h : material.IsMadeOf key) : key.IsOfKind material.kind := by
  cases h with
  | ec h hinfo =>
    refine ⟨h.keyType, ?_⟩
    rintro _ ⟨⟩
    exact h.curve
  | ed25519 h hinfo =>
    refine ⟨h.keyType, ?_⟩
    rintro _ ⟨⟩
    exact h.curve
  | rsa h =>
    refine ⟨h.keyType, ?_⟩
    rintro _ ⟨⟩

namespace Native

variable {kinds : KeyKinds} {s : Octets} {pairs : List (Cbor.Item × Cbor.Item)} {key : KeyMap}

/-- **After the reports on pairs**, the key map and the result tell the events. -/
theorem exists_follow (kinds : KeyKinds) (h : KeyMap.decode s = .ok key) :
    ∃ later, (importKey kinds s).events = (KeyMap.load s).skipped.map .skipped ++ later
      ∧ Event.Follow key (importKey kinds s).result later := by
  have hreports : (Event.reports s : List (Event Refusal))
      = (KeyMap.load s).skipped.map .skipped ++ Event.selection (KeyKind.ofKeyMap key) := by
    rw [Event.reports, h]
    rfl
  rw [importKey_eq]
  cases hmaterial : Material.ofOctets s with
  | error cause =>
    refine ⟨_, hreports, ?_⟩
    cases hkind : KeyKind.ofKeyMap key with
    | error _ =>
      refine .unknown fun kind hkind' => ?_
      rw [KeyMap.isOfKind_iff, hkind] at hkind'
      cases hkind'
    | ok kind => exact .unusable (KeyMap.isOfKind_iff.2 hkind)
  | ok material =>
    obtain ⟨key', hkey', hmade⟩ := Material.exists_of_ofOctets_eq_ok hmaterial
    obtain rfl := Except.ok.inj (h.symm.trans hkey')
    have hkind := Material.isOfKind_of_isMadeOf hmade
    rw [KeyMap.isOfKind_iff.1 hkind] at hreports
    cases hanswer : (provider kinds).submit material with
    | ok k =>
      simp only [hanswer, Outcome.ofAnswer]
      exact ⟨_, hreports, .taken hkind⟩
    | error reason =>
      simp only [hanswer, Outcome.ofAnswer, hreports]
      exact ⟨_, List.append_assoc _ _ _, .refused hkind⟩

/-- **The events of an import.** Octets that are not exactly one CBOR map are
reported by nothing. Otherwise the reports on the skipped pairs come first, one
for each, in the order of the pairs. If a key map is read, these reports and its
entries are as many as there are pairs, and what follows is told by the key map
and the result. If none is read, some pair repeats a label, and the reports on
the pairs before it are all that there is. -/
theorem importKey_events (kinds : KeyKinds) (s : Octets) :
    (∀ error, KeyMap.pairsOf s = .error error →
      importKey kinds s = ⟨[], .error (.unusable error)⟩)
      ∧ ∀ pairs, KeyMap.pairsOf s = .ok pairs →
        (∀ key, KeyMap.decode s = .ok key →
          ∃ reports later, (importKey kinds s).events = reports ++ later
            ∧ List.Forall₂ Event.IsReportOf reports (pairs.filter (¬KeyMap.IsKept ·))
            ∧ (importKey kinds s).events.countP (·.level = .trace) + key.size = pairs.length
            ∧ Event.Follow key (importKey kinds s).result later)
        ∧ ∀ error, KeyMap.decode s = .error error →
          (importKey kinds s).result = .error (.unusable error)
            ∧ ∃ before entry after, pairs = before ++ KeyEntry.items entry :: after
              ∧ KeyMap.LabelsDiffer before
              ∧ (∃ value, KeyEntry.items (entry.1, value) ∈ before)
              ∧ error = .malformed (.duplicate entry.1)
              ∧ List.Forall₂ Event.IsReportOf (importKey kinds s).events
                (before.filter (¬KeyMap.IsKept ·)) := by
  refine ⟨?_, fun pairs hpairs => ⟨?_, ?_⟩⟩
  · intro error h
    have hload : KeyMap.load s = ⟨[], .error error⟩ := by
      rw [KeyMap.load, h]
    have hmaterial : Material.ofOctets s = .error error := by
      rw [Material.ofOctets, KeyMap.decode, hload]
      rfl
    rw [importKey_eq, hmaterial]
    show Outcome.unusable _ error = _
    rw [Event.reports, KeyMap.decode, hload]
    rfl
  · intro key hkey
    obtain ⟨hload, hlength⟩ := KeyMap.load_of_decode_eq_ok hpairs hkey
    obtain ⟨later, hevents, hfollow⟩ := exists_follow kinds hkey
    rw [hload] at hevents
    refine ⟨_, later, hevents, KeyMap.forall₂_isReportOf pairs, ?_, hfollow⟩
    have hreports : ((KeyMap.skipsOf pairs).map (Event.skipped (ε := Refusal))).countP
        (·.level = .trace) = (KeyMap.skipsOf pairs).length := by
      rw [List.countP_map]
      exact List.countP_eq_length.2 fun _ _ => rfl
    have hlater : later.countP (·.level = .trace) = 0 := by
      refine List.countP_eq_zero.2 fun event hevent => ?_
      rw [hfollow.level event hevent]
      exact Bool.false_ne_true
    rw [hevents, List.countP_append, hreports, hlater, Nat.add_zero, hlength]
  · intro error herror
    obtain ⟨before, entry, after, rfl, hbefore, hrepeat, rfl, hload⟩ :=
      KeyMap.load_of_decode_eq_error hpairs herror
    have hmaterial : Material.ofOctets s = .error (.malformed (.duplicate entry.1)) := by
      rw [Material.ofOctets, herror]
      rfl
    rw [importKey_eq, hmaterial]
    refine ⟨rfl, before, entry, after, rfl, hbefore, hrepeat, rfl, ?_⟩
    have hevents : (Event.reports s : List (Event Refusal))
        = (KeyMap.skipsOf before).map .skipped := by
      rw [Event.reports, herror, hload]
      exact List.append_nil _
    show List.Forall₂ _ (Event.reports s) _
    rw [hevents]
    exact KeyMap.forall₂_isReportOf before

/-- Octets that are no map; a key without its octets, beside a pair that has no
label and one that has no value; a key of no octets, which is refused; and a
pair that is skipped before a label comes up twice. -/
theorem importKey_events_mixed :
    importKey .all [0x01] = ⟨[], .error (.unusable (.malformed .notMap))⟩
      ∧ (∃ key reports later,
        (importKey .all [0xa4, 0x01, 0x01, 0x41, 0x78, 0x01, 0x04, 0x81, 0x01, 0x20, 0x06]).events
            = reports ++ later
          ∧ List.Forall₂ Event.IsReportOf reports
            [(.string .octets [0x78], .integer 1), (.integer 4, .array [.integer 1])]
          ∧ Event.Follow (κ := PublicKey) key
            (.error (.unusable (.malformed (.missing Label.x)))) later)
      ∧ (∃ key later, (importKey .all [0xa3, 0x01, 0x01, 0x20, 0x06, 0x21, 0x40]).events = later
          ∧ Event.Follow (κ := PublicKey) key (.error (.refused .okp (.info .notKey))) later)
      ∧ (importKey .all [0xa3, 0x41, 0x78, 0x00, 0x01, 0x02, 0x01, 0x03]).events
        = [.skipped .label]
      ∧ ∃ before entry after, [(.string .octets [0x78], .integer 0), (.integer 1, .integer 2),
          (.integer 1, .integer 3)] = before ++ KeyEntry.items entry :: after
        ∧ List.Forall₂ Event.IsReportOf
          (importKey .all [0xa3, 0x41, 0x78, 0x00, 0x01, 0x02, 0x01, 0x03]).events
          (before.filter (¬KeyMap.IsKept ·)) := by
  refine ⟨(importKey_events .all _).1 _ rfl, ?_, ?_, rfl, ?_⟩
  · obtain ⟨hread, -⟩ := (importKey_events .all
      [0xa4, 0x01, 0x01, 0x41, 0x78, 0x01, 0x04, 0x81, 0x01, 0x20, 0x06]).2 _ rfl
    obtain ⟨reports, later, hevents, hreports, -, hfollow⟩ := hread _ rfl
    exact ⟨_, reports, later, hevents, hreports, hfollow⟩
  · obtain ⟨hread, -⟩ := (importKey_events .all
      [0xa3, 0x01, 0x01, 0x20, 0x06, 0x21, 0x40]).2 _ rfl
    obtain ⟨reports, later, hevents, hreports, -, hfollow⟩ := hread _ rfl
    cases hreports
    exact ⟨_, later, hevents, hfollow⟩
  · obtain ⟨-, hrepeat⟩ := (importKey_events .all
      [0xa3, 0x41, 0x78, 0x00, 0x01, 0x02, 0x01, 0x03]).2 _ rfl
    obtain ⟨-, before, entry, after, hpairs, -, -, -, hreports⟩ := hrepeat _ rfl
    exact ⟨before, entry, after, hpairs, hreports⟩

end Native

end KeyForms
