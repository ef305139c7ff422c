import KeyForms.Proofs.Cbor.Prompt
import KeyForms.Proofs.KeyMap.Entering

/-!
# Encoded key maps and the octets around them

A key map is read from all of the octets or from none of them. If octets are
added to an encoded key map, they are counted as left over; if some of its own
are cut off at the end, the item is truncated, wherever the cut is. So no
encoded key map is the beginning of another one.

Both follow from the reader being prompt (`Cbor.isPrompt_read`): it has read
the item to its end, or it has found a fault in it, before it could see what
follows. A fault that is found is therefore also the fault of everything that
begins with the same octets.
-/

namespace KeyForms.KeyMap

variable {s : Octets}

/-- **A key map is read from one item** that takes all of the octets. -/
theorem exists_read_of_decode {key : KeyMap} (h : decode s = .ok key) :
    ∃ pairs, Cbor.read s = .ok (.map pairs, []) := by
  unfold decode load at h
  split at h
  · cases h
  · rename_i pairs hpairs
    exact ⟨pairs, pairsOf_eq_ok_iff.1 hpairs⟩

/-- Entering pairs fails for a repeated label and for nothing else. -/
theorem exists_duplicate_of_enter {key : KeyMap} {pairs : List (Cbor.Item × Cbor.Item)}
    {error : KeyError} (h : (enter key pairs).key = .error error) :
    ∃ label, error = .malformed (.duplicate label) := by
  induction pairs generalizing key with
  | nil => cases h
  | cons pair pairs ih =>
    unfold enter at h
    split at h
    · exact ih h
    · split at h
      · cases h
        exact ⟨_, rfl⟩
      · exact ih h

/-- **A fault of the octets** is one that reading an item finds. -/
theorem decode_eq_cbor_iff {failure : Cbor.Failure} :
    decode s = .error (.malformed (.cbor failure)) ↔ Cbor.read s = .error failure := by
  constructor
  · intro h
    unfold decode load at h
    split at h
    · rename_i error hpairs
      cases h
      unfold pairsOf at hpairs
      split at hpairs <;> cases hpairs
      assumption
    · obtain ⟨label, hlabel⟩ := exists_duplicate_of_enter h
      cases hlabel
  · intro h
    rw [decode, load, pairsOf, h]

/-- **Octets around an encoded key map.** A key map is not read if octets follow
its encoding, and the error counts them; nor is it read of a part of it, which is
truncated. So no octets that encode a key map begin with other ones that do.
Octets with any other fault than that of being too few have it whatever
follows. -/
theorem decode_append (s : Octets) :
    (∀ key, decode s = .ok key →
      (∀ t, t ≠ [] → decode (s ++ t) = .error (.malformed (.trailing t.length)))
        ∧ (∀ p, p <+: s → p ≠ s → decode p = .error (.malformed (.cbor .truncated)))
        ∧ ∀ s' key', decode s' = .ok key' → s <+: s' → s = s')
      ∧ ∀ failure, failure ≠ .truncated → decode s = .error (.malformed (.cbor failure)) →
        ∀ t, decode (s ++ t) = .error (.malformed (.cbor failure)) := by
  have hpart {p q : Octets} {pairs : List (Cbor.Item × Cbor.Item)} (hq : q ≠ [])
      (h : Cbor.read (p ++ q) = .ok (.map pairs, [])) :
      decode p = .error (.malformed (.cbor .truncated)) :=
    decode_eq_cbor_iff.2
      (Cbor.isPrompt_read.eq_truncated h (List.length_pos_of_ne_nil hq))
  refine ⟨fun key hkey => ?_, fun failure hfailure h t => ?_⟩
  · obtain ⟨pairs, hread⟩ := exists_read_of_decode hkey
    refine ⟨fun t ht => ?_, ?_, ?_⟩
    · have happend := Cbor.isPrompt_read.append_of_ok hread t
      cases t with
      | nil => exact absurd rfl ht
      | cons b t => rw [decode, load, pairsOf, happend, List.nil_append]
    · rintro p ⟨q, rfl⟩ hne
      refine hpart (q := q) ?_ hread
      rintro rfl
      exact hne (List.append_nil p).symm
    · rintro s' key' hkey' ⟨q, rfl⟩
      obtain ⟨pairs', hread'⟩ := exists_read_of_decode hkey'
      by_contra hne
      have hq : q ≠ [] := by
        rintro rfl
        exact hne (List.append_nil s).symm
      rw [hpart hq hread'] at hkey
      cases hkey
  · exact decode_eq_cbor_iff.2
      (Cbor.isPrompt_read.append_of_error (decode_eq_cbor_iff.1 h) hfailure t)

/-- An RSA key in an indefinite map, with a modulus in chunks and with a skipped
array that holds a tag and an indefinite array; the same with octets after it,
and without its end. Then octets that are ill-formed, octets with a stop for a
value, and arrays that are nested too deeply. -/
theorem decode_append_chunks :
    ∃ s key, s = [0xbf, 0x01, 0x03, 0x20, 0x5f, 0x41, 0x0f, 0x40, 0xff, 0x21, 0x41, 0x03, 0x18,
        0x63, 0x82, 0xc1, 0x00, 0x9f, 0xff, 0xff]
      ∧ decode s = .ok key ∧ key.size = 3
      ∧ decode (s ++ [0x00, 0xff]) = .error (.malformed (.trailing 2))
      ∧ decode (s.take 7) = .error (.malformed (.cbor .truncated))
      ∧ decode (s.take 19) = .error (.malformed (.cbor .truncated))
      ∧ decode ([0xa1, 0x1c] ++ s) = .error (.malformed (.cbor .illFormed))
      ∧ decode ([0xa1, 0x01, 0xff] ++ s) = .error (.malformed (.cbor .invalid))
      ∧ decode (List.replicate 257 0x81 ++ s) = .error (.malformed (.cbor .tooDeep)) := by
  refine ⟨_, empty |>.insert 1 (.integer 3) |>.insert (-1) (.octets [0x0f])
    |>.insert (-2) (.octets [0x03]), rfl, rfl, rfl, ?_, ?_, ?_, ?_, ?_, ?_⟩
  · exact ((decode_append _).1 _ rfl).1 [0x00, 0xff] (by decide)
  · exact ((decode_append _).1 _ rfl).2.1 _ (List.take_prefix 7 _) (by decide)
  · exact ((decode_append _).1 _ rfl).2.1 _ (List.take_prefix 19 _) (by decide)
  · exact (decode_append [0xa1, 0x1c]).2 .illFormed (by decide) rfl _
  · exact (decode_append [0xa1, 0x01, 0xff]).2 .invalid (by decide) rfl _
  · exact (decode_append (List.replicate 257 0x81)).2 .tooDeep (by decide) (by decide +kernel) _

end KeyForms.KeyMap
