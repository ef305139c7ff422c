import KeyForms.Provider.Native

/-!
# Importing keys

To import a key is to read its key map, to make material of it, and to hand
that over to a provider. A key that fails on the way is never handed over.

An import reports what it does (`Event`): first every pair of the encoded map
that is no entry, then the kind of key once it is known, and last the
refusal, if the provider refuses the key. The events and the result together
are the outcome of the import.
-/

namespace KeyForms

/-- **What an import reports.** -/
inductive Event (ε : Type) where
  /-- A pair of the encoded map was skipped. -/
  | skipped (why : Skip)
  /-- The kind of the key is known, and its fields are about to be read. -/
  | selected (kind : KeyKind)
  /-- The provider refused the key. -/
  | refused (keyType : KeyType) (reason : ε)
deriving DecidableEq

/-- How much an event matters. -/
inductive Event.Level where
  /-- Of interest for following one run. -/
  | trace
  /-- Of interest for finding faults. -/
  | debug
deriving DecidableEq

/-- The name of a level. -/
def Event.Level.name : Level → String
  | .trace => "TRACE"
  | .debug => "DEBUG"

namespace Event

variable {ε : Type}

/-- Skipped pairs are of interest for following a run only. -/
def level : Event ε → Level
  | skipped _ => .trace
  | selected _ => .debug
  | refused _ _ => .debug

/-- The words for an event. -/
def message : Event ε → String
  | skipped .label => "skipping COSE_Key entry with non-integer label"
  | skipped (.wideInteger _) => "skipping COSE_Key integer outside i64 range"
  | skipped (.value _) => "skipping COSE_Key entry"
  | selected (.ec _) => "building EC2 SubjectPublicKeyInfo"
  | selected .ed25519 => "building Ed25519 SubjectPublicKeyInfo"
  | selected .rsa => "reading RSA modulus and exponent"
  | refused _ _ => "key provider rejected public key"

/-- The label of the pair that an event is about. -/
def label? : Event ε → Option Int64
  | skipped (.wideInteger label) => some label
  | skipped (.value label) => some label
  | _ => none

/-- The curve that an event names. -/
def curve? : Event ε → Option Curve
  | selected kind => kind.curve?
  | _ => none

/-- The refusal that an event is about: the type of the key, and the
reason. -/
def refusal? : Event ε → Option (KeyType × ε)
  | refused keyType reason => some (keyType, reason)
  | _ => none

/-! ### Reports -/

/-- The report on the kind of a key, made as soon as the kind is known. -/
def selection : Except KeyError KeyKind → List (Event ε)
  | .ok kind => [.selected kind]
  | .error _ => []

/-- **What an import reports before the provider is asked**: the skipped pairs,
and then the kind of the key, if there is a key map and it tells one. -/
def reports (s : Octets) : List (Event ε) :=
  (KeyMap.load s).skipped.map .skipped ++ selection (KeyMap.decode s >>= KeyKind.ofKeyMap)

end Event

/-- **The outcome of an import**: what it reported, and a key or the reason
why there is none. -/
structure Outcome (ε κ : Type) where
  /-- The events, in their order. -/
  events : List (Event ε)
  /-- The result. -/
  result : Except (ImportError ε) κ

namespace Outcome

variable {ε κ : Type}

/-- The outcome of an import that ended before the key was handed over. -/
def unusable (events : List (Event ε)) (cause : KeyError) : Outcome ε κ :=
  ⟨events, .error (.unusable cause)⟩

/-- The outcome of an import whose material was handed over, from the answer
of the provider. -/
def ofAnswer (events : List (Event ε)) (keyType : KeyType) : Except ε κ → Outcome ε κ
  | .ok key => ⟨events, .ok key⟩
  | .error reason => ⟨events ++ [.refused keyType reason], .error (.refused keyType reason)⟩

/-- The result is the answer, and a refusal names the type of the key. -/
@[simp] theorem result_ofAnswer (events : List (Event ε)) (keyType : KeyType)
    (answer : Except ε κ) :
    (ofAnswer events keyType answer).result = answer.mapError (.refused keyType) := by
  cases answer <;> rfl

end Outcome

namespace Provider

variable {m : Type → Type} [Monad m] {ε κ : Type}

/-- Import a key map, after the events that are given. -/
def importKeyMap (provider : Provider m ε κ) (events : List (Event ε)) (key : KeyMap) :
    m (Outcome ε κ) :=
  match KeyKind.ofKeyMap key with
  | .error cause => pure (.unusable events cause)
  | .ok kind =>
    let events := events ++ [.selected kind]
    match Material.ofFields key kind with
    | .error cause => pure (.unusable events cause)
    | .ok material => .ofAnswer events material.keyType <$> provider.submit material

/-- **Import a key** from the octets that encode its key map. -/
def importKey (provider : Provider m ε κ) (s : Octets) : m (Outcome ε κ) :=
  let loading := KeyMap.load s
  let events := loading.skipped.map .skipped
  match loading.key with
  | .error cause => pure (.unusable events cause)
  | .ok key => provider.importKeyMap events key

/-- Import several keys, one after the other. -/
def importKeys (provider : Provider m ε κ) (keys : List Octets) : m (List (Outcome ε κ)) :=
  keys.mapM provider.importKey

/-! ### What a provider sees of an import -/

theorem importKeyMap_eq (provider : Provider m ε κ) (events : List (Event ε)) (key : KeyMap) :
    provider.importKeyMap events key = match Material.ofKeyMap key with
      | .error cause => pure (.unusable (events ++ Event.selection (KeyKind.ofKeyMap key)) cause)
      | .ok material =>
        .ofAnswer (events ++ Event.selection (KeyKind.ofKeyMap key)) material.keyType
          <$> provider.submit material := by
  unfold importKeyMap Material.ofKeyMap
  cases KeyKind.ofKeyMap key with
  | error cause =>
    show pure (Outcome.unusable events cause) = pure (Outcome.unusable (events ++ []) cause)
    rw [List.append_nil]
  | ok kind => rfl

/-- **The outcome of an import.** The provider has a hand in the answer only:
what is reported before it is asked is told by the octets. -/
theorem importKey_eq (provider : Provider m ε κ) (s : Octets) :
    provider.importKey s = match Material.ofOctets s with
      | .error cause => pure (.unusable (Event.reports s) cause)
      | .ok material =>
        .ofAnswer (Event.reports s) material.keyType <$> provider.submit material := by
  unfold Event.reports Material.ofOctets KeyMap.decode
  simp only [importKey]
  cases (KeyMap.load s).key with
  | error cause =>
    show pure (Outcome.unusable _ cause) = pure (Outcome.unusable (_ ++ []) cause)
    rw [List.append_nil]
  | ok key => exact importKeyMap_eq provider _ key

/-- **A key without material never reaches the provider.** -/
theorem importKey_of_error (provider : Provider m ε κ) {s : Octets} {cause : KeyError}
    (h : Material.ofOctets s = .error cause) :
    ∃ events, provider.importKey s = pure (.unusable events cause) :=
  ⟨Event.reports s, by rw [importKey_eq, h]⟩

/-- **A key with material reaches the provider once**, as that material, and
the answer is the result. -/
theorem importKey_of_ok (provider : Provider m ε κ) {s : Octets} {material : Material}
    (h : Material.ofOctets s = .ok material) :
    ∃ events, provider.importKey s
      = Outcome.ofAnswer events material.keyType <$> provider.submit material :=
  ⟨Event.reports s, by rw [importKey_eq, h]⟩

end Provider

namespace Native

/-- **Import a key with the native provider**, set up for the given kinds of
key. -/
def importKey (kinds : KeyKinds) (s : Octets) : Outcome Refusal PublicKey :=
  (provider kinds).importKey s

/-- Import a key map with the native provider. -/
def importKeyMap (kinds : KeyKinds) (key : KeyMap) : Outcome Refusal PublicKey :=
  (provider kinds).importKeyMap [] key

end Native

end KeyForms
