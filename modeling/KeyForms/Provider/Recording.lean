import KeyForms.Provider.Basic

/-!
# Providers that keep a record

These providers write down every material that they are given, in order, and
check none of it. What they answer depends on the record so far, the new
material included, so a provider may well refuse the first key and take the
second one (`Provider.recordingWith`).

The usual one (`Provider.recording`) refuses everything with the same words,
or else gives out numbers: the first key is 1, the next one 2, and so on.
-/

namespace KeyForms.Provider

variable {ε κ : Type}

/-- **Write one material down**, and answer from the record. -/
def record (answer : List Material → Except ε κ) (material : Material) :
    StateM (List Material) (Except ε κ) := fun given =>
  let given := given ++ [material]
  (answer given, given)

/-- **The provider that keeps a record** and answers from it. -/
def recordingWith (answer : List Material → Except ε κ) :
    Provider (StateM (List Material)) ε κ where
  importEc curve info := record answer (.ec curve info)
  importEd25519 info := record answer (.ed25519 info)
  importRsa modulus exponent := record answer (.rsa modulus exponent)

/-- The provider that keeps a record, and refuses with the given words or
else answers with the number of keys so far. -/
def recording (refusal? : Option String) : Provider (StateM (List Material)) String Nat :=
  recordingWith fun given =>
    match refusal? with
    | some refusal => .error refusal
    | none => .ok given.length

/-- Whatever it is given, it writes down. -/
@[simp] theorem submit_recordingWith (answer : List Material → Except ε κ)
    (material : Material) :
    (recordingWith answer).submit material = record answer material := by
  cases material <;> rfl

end KeyForms.Provider
