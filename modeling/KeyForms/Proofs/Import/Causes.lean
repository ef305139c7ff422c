import KeyForms.Proofs.Import.Events
import KeyForms.Proofs.Import.Extras
import KeyForms.Proofs.SubjectInfo.Sizes

/-!
# Why a key has no material

Labels do not mean the same for all types of key: under the label of the curve an
RSA key has its modulus, and what should be an integer for the others should be a
byte string for it. So what is wrong with a key map cannot be said field by field.
Its fields are read one after the other, each reading depends on those before, and
of several faults the first one met is reported.

This module says which one that is, without following the reading. A key map lacks
a kind (`KeyMap.LacksKind`), or it is of a kind and lacks what a key of that kind
is made of (`KeyMap.LacksMaterial`), or material is made of it. Together these are
the rows of a table (`Material.IsOutcomeOf`), and the table has one outcome for each
key map (`Material.ofKeyMap_eq_iff`).
-/

namespace KeyForms

/-! ## Fields -/

namespace KeyMap

variable {key : KeyMap} {label : Int64} {error : KeyError}

/-- **A field is no integer**: it is missing, or it is a byte string. The cause names
the field. -/
inductive LacksInteger (key : KeyMap) (label : Int64) : Malformed → Prop where
  /-- The field is missing. -/
  | missing (h : key.get? label = none) : LacksInteger key label (.missing label)
  /-- The field is a byte string. -/
  | octets {s : Octets} (h : key.get? label = some (.octets s)) :
    LacksInteger key label (.notInteger label)

/-- **A field is no byte string**: it is missing, or it is an integer. The cause names
the field. -/
inductive LacksOctets (key : KeyMap) (label : Int64) : Malformed → Prop where
  /-- The field is missing. -/
  | missing (h : key.get? label = none) : LacksOctets key label (.missing label)
  /-- The field is an integer. -/
  | integer {n : Int64} (h : key.get? label = some (.integer n)) :
    LacksOctets key label (.notOctets label)

/-- **The first field of a row that is no byte string.** Those before it are, and
what is after it does not matter. -/
inductive FirstLacksOctets (key : KeyMap) : List Int64 → Malformed → Prop where
  /-- It is the first one of the row. -/
  | head {label : Int64} {labels : List Int64} {cause : Malformed}
    (h : key.LacksOctets label cause) : FirstLacksOctets key (label :: labels) cause
  /-- It is in the rest of the row. -/
  | tail {label : Int64} {labels : List Int64} {cause : Malformed} {s : Octets}
    (hfirst : key.get? label = some (.octets s)) (h : FirstLacksOctets key labels cause) :
    FirstLacksOctets key (label :: labels) cause

theorem integer_eq_error_iff :
    key.integer label = .error error
      ↔ ∃ cause, key.LacksInteger label cause ∧ error = .malformed cause := by
  unfold integer
  constructor
  · intro h
    split at h
    · cases h
    · cases h
      exact ⟨_, .octets ‹_›, rfl⟩
    · cases h
      exact ⟨_, .missing ‹_›, rfl⟩
  · rintro ⟨cause, hcause, rfl⟩
    cases hcause with
    | missing h => rw [h]
    | octets h => rw [h]

theorem octets_eq_error_iff :
    key.octets label = .error error
      ↔ ∃ cause, key.LacksOctets label cause ∧ error = .malformed cause := by
  unfold octets
  constructor
  · intro h
    split at h
    · cases h
    · cases h
      exact ⟨_, .integer ‹_›, rfl⟩
    · cases h
      exact ⟨_, .missing ‹_›, rfl⟩
  · rintro ⟨cause, hcause, rfl⟩
    cases hcause with
    | missing h => rw [h]
    | integer h => rw [h]

/-- **What begins with an integer field fails** at that field, or later with the
integer. -/
theorem integer_bind_eq_error_iff {α : Type} {f : Int64 → Except KeyError α} :
    (key.integer label >>= f) = .error error
      ↔ (∃ cause, key.LacksInteger label cause ∧ error = .malformed cause)
        ∨ ∃ n, key.get? label = some (.integer n) ∧ f n = .error error := by
  rw [bind_eq_error_iff, integer_eq_error_iff]
  simp only [integer_eq_ok_iff]

/-- **What begins with a byte string fails** at that field, or later with the octets. -/
theorem octets_bind_eq_error_iff {α : Type} {f : Octets → Except KeyError α} :
    (key.octets label >>= f) = .error error
      ↔ (∃ cause, key.LacksOctets label cause ∧ error = .malformed cause)
        ∨ ∃ s, key.get? label = some (.octets s) ∧ f s = .error error := by
  rw [bind_eq_error_iff, octets_eq_error_iff]
  simp only [octets_eq_ok_iff]

/-- What begins with two byte strings fails at the first one that is none. -/
theorem octets_bind_of_firstLacksOctets {α : Type} {first second : Int64} {cause : Malformed}
    {f : Octets → Octets → Except KeyError α} (h : key.FirstLacksOctets [first, second] cause) :
    (key.octets first >>= fun s => key.octets second >>= f s) = .error (.malformed cause) := by
  rw [octets_bind_eq_error_iff]
  cases h with
  | head h => exact Or.inl ⟨cause, h, rfl⟩
  | @tail _ _ _ s hfirst h =>
    refine Or.inr ⟨s, hfirst, octets_bind_eq_error_iff.2 (Or.inl ?_)⟩
    cases h with
    | head h => exact ⟨cause, h, rfl⟩
    | tail _ h => cases h

end KeyMap

/-! ## Kinds -/

/-- The numbers of the curves that a key of a type can be on. An RSA key is on
none. -/
def KeyType.curveIds : KeyType → List Int64
  | okp => [6]
  | ec2 => [1, 2, 3]
  | rsa => []

/-- **A key map lacks a kind.** The key type comes first; only if it is one of the two
that have a curve the curve is looked at; and no other field is. -/
inductive KeyMap.LacksKind (key : KeyMap) : KeyError → Prop where
  /-- The key type is no integer. -/
  | keyType {cause : Malformed} (h : key.LacksInteger Label.keyType cause) :
    LacksKind key (.malformed cause)
  /-- The key type is not known. -/
  | unsupportedKeyType {id : Int64} (h : key.get? Label.keyType = some (.integer id))
    (hid : id ∉ [1, 2, 3]) : LacksKind key (.unsupportedKeyType id)
  /-- The curve is no integer. -/
  | curve {keyType : KeyType} {cause : Malformed} (hne : keyType ≠ .rsa)
    (h : key.get? Label.keyType = some (.integer keyType.id))
    (hcurve : key.LacksInteger Label.curve cause) : LacksKind key (.malformed cause)
  /-- The curve is none of those for the key type. -/
  | unsupportedCurve {keyType : KeyType} {id : Int64} (hne : keyType ≠ .rsa)
    (h : key.get? Label.keyType = some (.integer keyType.id))
    (hcurve : key.get? Label.curve = some (.integer id)) (hid : id ∉ keyType.curveIds) :
    LacksKind key (.unsupportedCurve keyType id)

theorem KeyType.ofId?_eq_none_iff {id : Int64} : ofId? id = none ↔ id ∉ [1, 2, 3] := by
  constructor
  · intro h hid
    simp only [List.mem_cons, List.not_mem_nil, or_false] at hid
    obtain rfl | rfl | rfl := hid <;> cases h
  · intro h
    cases htype : ofId? id with
    | none => rfl
    | some keyType =>
      obtain rfl := ofId?_eq_some_iff.1 htype
      cases keyType <;> exact absurd (by decide) h

namespace KeyKind

variable {key : KeyMap} {keyType : KeyType} {error : KeyError} {id : Int64}

theorem mem_curveIds_of_curveId? {kind : KeyKind} (h : kind.curveId? = some id) :
    id ∈ kind.keyType.curveIds := by
  cases kind with
  | ec c =>
    cases h
    cases c <;> decide
  | ed25519 =>
    cases h
    decide
  | rsa => cases h

theorem exists_ofCurveId_of_mem (h : id ∈ keyType.curveIds) :
    ∃ kind, ofCurveId keyType id = .ok kind := by
  cases keyType with
  | okp =>
    obtain rfl := List.mem_singleton.1 h
    exact ⟨_, rfl⟩
  | ec2 =>
    simp only [KeyType.curveIds, List.mem_cons, List.not_mem_nil, or_false] at h
    obtain rfl | rfl | rfl := h <;> exact ⟨_, rfl⟩
  | rsa => cases h

theorem exists_ofCurveId_or_error (keyType : KeyType) (id : Int64) :
    (∃ kind, ofCurveId keyType id = .ok kind)
      ∨ ofCurveId keyType id = .error (.unsupportedCurve keyType id) := by
  unfold ofCurveId
  extract_lets kind?
  clear_value kind?
  cases kind? with
  | some kind => exact Or.inl ⟨kind, rfl⟩
  | none => exact Or.inr rfl

/-- **A curve is refused** exactly if its number is none of those for the key type, and
the error has both. -/
theorem ofCurveId_eq_error_iff (hne : keyType ≠ .rsa) :
    ofCurveId keyType id = .error error
      ↔ id ∉ keyType.curveIds ∧ error = .unsupportedCurve keyType id := by
  by_cases hid : id ∈ keyType.curveIds
  · obtain ⟨kind, hkind⟩ := exists_ofCurveId_of_mem hid
    rw [hkind]
    exact iff_of_false nofun fun h => h.1 hid
  · have herror : ofCurveId keyType id = .error (.unsupportedCurve keyType id) := by
      refine (exists_ofCurveId_or_error keyType id).resolve_left ?_
      rintro ⟨kind, hkind⟩
      obtain ⟨rfl, hcurve⟩ := (ofCurveId_eq_ok_iff hne).1 hkind
      exact hid (mem_curveIds_of_curveId? hcurve)
    rw [herror, Except.error.injEq, eq_comm]
    exact (and_iff_right hid).symm

/-- **A key map has no kind** exactly if it lacks one. -/
theorem ofKeyMap_eq_error_iff : ofKeyMap key = .error error ↔ key.LacksKind error := by
  constructor
  · intro h
    obtain ⟨cause, hcause, rfl⟩ | ⟨id, hid, hrest⟩ := KeyMap.integer_bind_eq_error_iff.1 h
    · exact .keyType hcause
    cases htype : KeyType.ofId? id with
    | none =>
      rw [htype] at hrest
      cases hrest
      exact .unsupportedKeyType hid (KeyType.ofId?_eq_none_iff.1 htype)
    | some keyType =>
      obtain rfl := KeyType.ofId?_eq_some_iff.1 htype
      by_cases hne : keyType = .rsa
      · -- an RSA key needs no more than its type
        subst hne
        cases hrest
      · rw [ofKeyMap_of_keyType hne hid] at h
        obtain ⟨cause, hcause, rfl⟩ | ⟨id, hcurve, hkind⟩ := KeyMap.integer_bind_eq_error_iff.1 h
        · exact .curve hne hid hcause
        · obtain ⟨hcurveId, rfl⟩ := (ofCurveId_eq_error_iff hne).1 hkind
          exact .unsupportedCurve hne hid hcurve hcurveId
  · intro h
    cases h with
    | keyType h => exact KeyMap.integer_bind_eq_error_iff.2 (Or.inl ⟨_, h, rfl⟩)
    | @unsupportedKeyType id h hid =>
      refine KeyMap.integer_bind_eq_error_iff.2 (Or.inr ⟨id, h, ?_⟩)
      rw [KeyType.ofId?_eq_none_iff.2 hid]
      rfl
    | curve hne h hcurve =>
      rw [ofKeyMap_of_keyType hne h]
      exact KeyMap.integer_bind_eq_error_iff.2 (Or.inl ⟨_, hcurve, rfl⟩)
    | unsupportedCurve hne h hcurve hid =>
      rw [ofKeyMap_of_keyType hne h]
      exact KeyMap.integer_bind_eq_error_iff.2
        (Or.inr ⟨_, hcurve, (ofCurveId_eq_error_iff hne).2 ⟨hid, rfl⟩⟩)

end KeyKind

/-! ## Material -/

/-- **A key map lacks what a key of a kind is made of.** One of its byte strings is
wanting, or they are too long for a subject info. -/
inductive KeyMap.LacksMaterial (key : KeyMap) : KeyKind → KeyError → Prop where
  /-- A field is no byte string, and it is the first such field. -/
  | field {kind : KeyKind} {cause : Malformed} (h : key.FirstLacksOctets kind.labels cause) :
    LacksMaterial key kind (.malformed cause)
  /-- The coordinates of a point are too long. -/
  | point {c : Curve} {x y : Octets} {long : Der.TooLong}
    (hx : key.get? Label.x = some (.octets x)) (hy : key.get? Label.y = some (.octets y))
    (h : c.subjectInfo x y = .error long) : LacksMaterial key (.ec c) (.tooLong long)
  /-- An Ed25519 key is too long. -/
  | ed25519 {x : Octets} {long : Der.TooLong} (hx : key.get? Label.x = some (.octets x))
    (h : Ed25519.subjectInfo x = .error long) : LacksMaterial key .ed25519 (.tooLong long)

namespace Material

variable {key : KeyMap} {error : KeyError}

/-- The errors of a subject info are those of its lengths. -/
theorem tooLong_bind_eq_error_iff {x : Except Der.TooLong Octets} {f : Octets → Material} :
    (x.mapError KeyError.tooLong >>= fun info => .ok (f info)) = .error error
      ↔ ∃ long, x = .error long ∧ error = .tooLong long := by
  cases x with
  | error long =>
    constructor
    · intro h
      cases h
      exact ⟨long, rfl, rfl⟩
    · rintro ⟨long', hlong, rfl⟩
      cases hlong
      rfl
  | ok info => exact iff_of_false nofun nofun

/-- **A key of a known kind has no material** exactly if the key map lacks what it is
made of. -/
theorem ofFields_eq_error_iff {kind : KeyKind} :
    ofFields key kind = .error error ↔ key.LacksMaterial kind error := by
  constructor
  · intro h
    cases kind with
    | ec c =>
      obtain ⟨cause, hcause, rfl⟩ | ⟨x, hx, h⟩ := KeyMap.octets_bind_eq_error_iff.1 h
      · exact .field (.head hcause)
      obtain ⟨cause, hcause, rfl⟩ | ⟨y, hy, h⟩ := KeyMap.octets_bind_eq_error_iff.1 h
      · exact .field (.tail hx (.head hcause))
      obtain ⟨long, hlong, rfl⟩ := tooLong_bind_eq_error_iff.1 h
      exact .point hx hy hlong
    | ed25519 =>
      obtain ⟨cause, hcause, rfl⟩ | ⟨x, hx, h⟩ := KeyMap.octets_bind_eq_error_iff.1 h
      · exact .field (.head hcause)
      obtain ⟨long, hlong, rfl⟩ := tooLong_bind_eq_error_iff.1 h
      exact .ed25519 hx hlong
    | rsa =>
      obtain ⟨cause, hcause, rfl⟩ | ⟨modulus, hmodulus, h⟩ := KeyMap.octets_bind_eq_error_iff.1 h
      · exact .field (.head hcause)
      obtain ⟨cause, hcause, rfl⟩ | ⟨exponent, -, h⟩ := KeyMap.octets_bind_eq_error_iff.1 h
      · exact .field (.tail hmodulus (.head hcause))
      · -- numbers are never too long
        cases h
  · intro h
    cases h with
    | @field kind cause h =>
      cases kind with
      | ec c => exact KeyMap.octets_bind_of_firstLacksOctets h
      | ed25519 =>
        cases h with
        | head h => exact KeyMap.octets_bind_eq_error_iff.2 (Or.inl ⟨cause, h, rfl⟩)
        | tail _ h => cases h
      | rsa => exact KeyMap.octets_bind_of_firstLacksOctets h
    | point hx hy h =>
      exact KeyMap.octets_bind_eq_error_iff.2 (Or.inr ⟨_, hx, KeyMap.octets_bind_eq_error_iff.2
        (Or.inr ⟨_, hy, tooLong_bind_eq_error_iff.2 ⟨_, h, rfl⟩⟩)⟩)
    | ed25519 hx h =>
      exact KeyMap.octets_bind_eq_error_iff.2
        (Or.inr ⟨_, hx, tooLong_bind_eq_error_iff.2 ⟨_, h, rfl⟩⟩)

/-- **The outcomes of making material**: the key map lacks a kind, or it lacks what keys
of its kind are made of, or material is made of it. -/
inductive IsOutcomeOf (key : KeyMap) : Except KeyError Material → Prop where
  /-- There is no kind. -/
  | kind {error : KeyError} (h : key.LacksKind error) : IsOutcomeOf key (.error error)
  /-- There is a kind, and not what it takes. -/
  | fields {kind : KeyKind} {error : KeyError} (hkind : key.IsOfKind kind)
    (h : key.LacksMaterial kind error) : IsOutcomeOf key (.error error)
  /-- There is material. -/
  | made {material : Material} (h : material.IsMadeOf key) : IsOutcomeOf key (.ok material)

/-- **Making material has one outcome**, and the table has no other. -/
theorem ofKeyMap_eq_iff {outcome : Except KeyError Material} :
    ofKeyMap key = outcome ↔ IsOutcomeOf key outcome := by
  constructor
  · rintro rfl
    cases h : ofKeyMap key with
    | ok material => exact .made (ofKeyMap_eq_ok_iff.1 h)
    | error error =>
      obtain hkind | ⟨kind, hkind, hfields⟩ := bind_eq_error_iff.1 h
      · exact .kind (KeyKind.ofKeyMap_eq_error_iff.1 hkind)
      · exact .fields (KeyMap.isOfKind_iff.2 hkind) (ofFields_eq_error_iff.1 hfields)
  · intro h
    cases h with
    | kind h => exact bind_eq_error_iff.2 (Or.inl (KeyKind.ofKeyMap_eq_error_iff.2 h))
    | fields hkind h =>
      exact bind_eq_error_iff.2
        (Or.inr ⟨_, KeyMap.isOfKind_iff.1 hkind, ofFields_eq_error_iff.2 h⟩)
    | made h => exact ofKeyMap_eq_ok_iff.2 h

/-- **The table of outcomes.** What becomes of a key map is what the table says, be it an
error or material. First the key type has to be an integer, and one of the three;
then, for the two types with a curve, the curve has to be an integer, and one of those
for the type; then the fields of the key have to be byte strings, and the first one
that is none is named; and then they have to be short enough for a subject info. Each
of these comes before whatever is wrong with later ones. Material is of the type that
the key map states. It does not matter here whether a raw point has a shape or an
algorithm is known, and nobody is asked who could refuse the key: a refusal is not
among these errors at all. Octets that encode a key map have the outcome of the key
map. -/
theorem ofKeyMap_outcomes :
    (∀ (key : KeyMap) (outcome : Except KeyError Material),
      ofKeyMap key = outcome ↔ IsOutcomeOf key outcome)
      ∧ (∀ (key : KeyMap) (material : Material), ofKeyMap key = .ok material →
        key.get? Label.keyType = some (.integer material.keyType.id))
      ∧ (∀ (key : KeyMap) (error : KeyError), ofKeyMap key = .error error →
        (∀ length first, error ≠ .rawShape length first)
          ∧ ∀ algorithm, error ≠ .unknownAlgorithm algorithm)
      ∧ ∀ (s : Octets) (key : KeyMap), KeyMap.decode s = .ok key →
        ∀ outcome, ofOctets s = outcome ↔ IsOutcomeOf key outcome := by
  refine ⟨fun key outcome => ofKeyMap_eq_iff, ?material, ?error, ?octets⟩
  case material =>
    intro key material h
    exact get?_keyType_of_isMadeOf (ofKeyMap_eq_ok_iff.1 h)
  case error =>
    intro key error h
    cases ofKeyMap_eq_iff.1 h with
    | kind h => cases h <;> exact ⟨nofun, nofun⟩
    | fields _ h => cases h <;> exact ⟨nofun, nofun⟩
  case octets =>
    intro s key h outcome
    rw [ofOctets_of_decode h]
    exact ofKeyMap_eq_iff

/-- Key maps with several faults: a curve that is not known, with a coordinate that is an
integer and another one that is missing; the same with a curve that is known; an RSA
key with a curve in place of a modulus; a key type without a curve, and one that is
not known. An Ed25519 key that is too long, and the octets of an RSA key. -/
theorem ofKeyMap_outcomes_faults :
    ofKeyMap (KeyMap.empty |>.insert 1 (.integer 2) |>.insert (-1) (.integer 9)
        |>.insert (-2) (.integer 0)) = .error (.unsupportedCurve .ec2 9)
      ∧ ofKeyMap (KeyMap.empty |>.insert 1 (.integer 2) |>.insert (-1) (.integer 1)
        |>.insert (-2) (.integer 0)) = .error (.malformed (.notOctets (-2)))
      ∧ ofKeyMap (KeyMap.empty |>.insert 1 (.integer 3) |>.insert (-1) (.integer 1))
        = .error (.malformed (.notOctets (-1)))
      ∧ ofKeyMap (KeyMap.empty |>.insert 1 (.integer 1) |>.insert (-1) (.octets []))
        = .error (.malformed (.notInteger (-1)))
      ∧ ofKeyMap (KeyMap.empty |>.insert 1 (.integer 4)) = .error (.unsupportedKeyType 4)
      ∧ ofKeyMap (KeyMap.empty |>.insert 1 (.integer 1) |>.insert (-1) (.integer 6)
        |>.insert (-2) (.octets (List.replicate 65524 0))) = .error (.tooLong ⟨65536⟩)
      ∧ ofOctets [0xa3, 0x01, 0x03, 0x20, 0x41, 0x0f, 0x21, 0x41, 0x03]
        = .ok (.rsa (.ofOctets [0x0f]) (.ofOctets [0x03])) := by
  obtain ⟨htable, -, -, hoctets⟩ := ofKeyMap_outcomes
  have hokp : KeyType.okp ≠ .rsa := by decide
  have hec2 : KeyType.ec2 ≠ .rsa := by decide
  refine ⟨(htable _ _).2 ?_, (htable _ _).2 ?_, (htable _ _).2 ?_, (htable _ _).2 ?_,
    (htable _ _).2 ?_, (htable _ _).2 ?_, (hoctets _ _ rfl _).2 ?_⟩
  · exact .kind (.unsupportedCurve hec2 rfl rfl (by decide))
  · refine .fields (?_ : KeyMap.IsOfKind _ (.ec .p256)) (.field (.head (.integer rfl)))
    exact ⟨rfl, by rintro _ ⟨⟩; rfl⟩
  · refine .fields (?_ : KeyMap.IsOfKind _ .rsa) (.field (.head (.integer rfl)))
    exact ⟨rfl, by rintro _ ⟨⟩⟩
  · exact .kind (.curve hokp rfl (.octets rfl))
  · exact .kind (.unsupportedKeyType rfl (by decide))
  · have hlength : (List.replicate 65524 (0 : UInt8)).length = 65524 := List.length_replicate
    have hlong := (Ed25519.outcome_subjectInfo (List.replicate 65524 0)).2.2
    rw [hlength] at hlong
    refine .fields ?_ (.ed25519 rfl (hlong (by decide) (by decide)))
    exact ⟨rfl, by rintro _ ⟨⟩; rfl⟩
  · exact .made (.rsa ⟨rfl, rfl, rfl⟩)

end Material

end KeyForms
