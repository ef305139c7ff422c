import KeyForms.Proofs.Import.Extras
import KeyForms.Proofs.Material

/-!
# RSA keys are their two numbers

A key map states an RSA key in two byte strings, and these may have any number of
zeros in front. Material has magnitudes in their place, so it is the same exactly
when the two numbers are (`Material.ofKeyMap_eq_iff_of_statesRsa`). From there on the
byte strings are gone. A provider gets one request, with the two magnitudes
(`Provider.importKeyMap_of_statesRsa`), and what it answers is the result. The native
provider answers with a key of just these numbers, or with what is wrong with them
(`Native.exists_of_resultFor_eq_ok`).

What makes a magnitude a number is in `Magnitude.ofOctets_eq_iff` and the lemmas
next to it. They are said of octets that may be empty, or zeros only, or begin with
a high bit that is set.
-/

namespace KeyForms

namespace KeyMap

/-- The key map of an RSA key, by the octets of its two numbers. -/
def ofNumbers (n e : Octets) : KeyMap :=
  empty |>.insert Label.keyType (.integer KeyType.rsa.id)
    |>.insert Label.modulus (.octets n) |>.insert Label.exponent (.octets e)

theorem statesRsa_ofNumbers (n e : Octets) : (ofNumbers n e).StatesRsa n e :=
  ⟨rfl, rfl, rfl⟩

end KeyMap

namespace Material

variable {key key' : KeyMap} {n e n' e' : Octets}

theorem ofKeyMap_of_statesRsa (h : key.StatesRsa n e) :
    ofKeyMap key = .ok (.rsa (.ofOctets n) (.ofOctets e)) :=
  ofKeyMap_eq_ok_iff.2 (.rsa h)

/-- **RSA keys have one material exactly when they have the same two numbers**,
however these are written. -/
theorem ofKeyMap_eq_iff_of_statesRsa (h : key.StatesRsa n e) (h' : key'.StatesRsa n' e') :
    ofKeyMap key = ofKeyMap key' ↔ n.value = n'.value ∧ e.value = e'.value := by
  rw [ofKeyMap_of_statesRsa h, ofKeyMap_of_statesRsa h', Except.ok.injEq, rsa.injEq,
    Magnitude.ofOctets_eq_iff, Magnitude.ofOctets_eq_iff]

end Material

/-! ## What the provider is asked -/

namespace Provider

variable {m : Type → Type} [Monad m] {ε κ : Type} {key key' : KeyMap} {n e n' e' : Octets}

/-- **An RSA key is handed over as its two numbers**, in one request. -/
theorem importKeyMap_of_statesRsa (provider : Provider m ε κ) (events : List (Event ε))
    (h : key.StatesRsa n e) :
    provider.importKeyMap events key
      = Outcome.ofAnswer (events ++ [.selected .rsa]) .rsa
        <$> provider.importRsa (.ofOctets n) (.ofOctets e) := by
  rw [importKeyMap_eq, KeyKind.ofKeyMap_of_statesRsa h, Material.ofKeyMap_of_statesRsa h]
  rfl

/-- **Key maps with the same two numbers are imported alike**: there is the same
request, and the same is made of the answer. -/
theorem importKeyMap_eq_of_value_eq (provider : Provider m ε κ) (events : List (Event ε))
    (h : key.StatesRsa n e) (h' : key'.StatesRsa n' e') (hn : n.value = n'.value)
    (he : e.value = e'.value) :
    provider.importKeyMap events key = provider.importKeyMap events key' := by
  rw [importKeyMap_of_statesRsa provider events h, importKeyMap_of_statesRsa provider events h',
    Magnitude.ofOctets_eq_iff.2 hn, Magnitude.ofOctets_eq_iff.2 he]

/-- **Octets of key maps with the same two numbers are imported alike**, up to what
is reported of pairs that are skipped. -/
theorem map_result_importKey_eq_of_value_eq [LawfulMonad m] (provider : Provider m ε κ)
    {s s' : Octets} (hs : KeyMap.decode s = .ok key) (hs' : KeyMap.decode s' = .ok key')
    (h : key.StatesRsa n e) (h' : key'.StatesRsa n' e') (hn : n.value = n'.value)
    (he : e.value = e'.value) :
    Outcome.result <$> provider.importKey s = Outcome.result <$> provider.importKey s' := by
  rw [map_result_importKey, map_result_importKey, Material.ofOctets_of_decode hs,
    Material.ofOctets_of_decode hs', (Material.ofKeyMap_eq_iff_of_statesRsa h h').2 ⟨hn, he⟩]

end Provider

/-! ## What the native provider answers -/

/-- **The native provider answers with a key of the two numbers** that it is given,
if it answers with a key. -/
theorem Native.exists_of_resultFor_eq_ok {kinds : KeyKinds} {modulus exponent : Magnitude}
    {k : PublicKey}
    (h : (provider kinds).resultFor (.ok (.rsa modulus exponent)) = .ok k) :
    ∃ rsa : Rsa.Key, k = .rsa rsa ∧ rsa.modulus = modulus ∧ rsa.exponent = exponent := by
  have hanswer : (provider kinds).submit (.rsa modulus exponent) = .ok k :=
    mapError_eq_ok_iff.1 h
  obtain ⟨-, hkey⟩ := guarded_eq_ok_iff.1 hanswer
  cases hnumbers : Rsa.Key.ofNumbers modulus exponent with
  | error flaw =>
    rw [hnumbers] at hkey
    cases hkey
  | ok rsa =>
    rw [hnumbers] at hkey
    cases hkey
    exact ⟨rsa, rfl, Rsa.Key.ofNumbers_eq_ok_iff.1 hnumbers⟩

namespace Provider

variable {m : Type → Type} [Monad m] [LawfulMonad m] {ε κ : Type}

/-- **RSA keys go by their numbers alone.** Key maps that state RSA keys have
material, and the same exactly when the two moduli are one number and the two
exponents are one number. Zeros in front of either byte string change nothing: not
the material, not the request to the provider, and not the result, be it a key or an
error. When the native provider takes the key, its numbers are those that the two
fields write.

The magnitude of octets has their value and does not begin with a zero, and dropping
zeros once more changes nothing. Two magnitudes are the same exactly when the values
are; a magnitude is zero exactly when the value is; and its bit length is the least
number of bits that the value fits in. -/
theorem importRsa_by_value (provider : Provider m ε κ) :
    (∀ (key key' : KeyMap) (n e n' e' : Octets), key.StatesRsa n e → key'.StatesRsa n' e' →
      (∃ material, Material.ofKeyMap key = .ok material)
        ∧ (Material.ofKeyMap key = Material.ofKeyMap key'
          ↔ n.value = n'.value ∧ e.value = e'.value))
      ∧ (∀ (key key' : KeyMap) (n e : Octets) (i j : Nat), key.StatesRsa n e →
        key'.StatesRsa (List.replicate i 0 ++ n) (List.replicate j 0 ++ e) →
          Material.ofKeyMap key' = Material.ofKeyMap key
            ∧ (∀ events, provider.importKeyMap events key
                = Outcome.ofAnswer (events ++ [.selected .rsa]) .rsa
                  <$> provider.importRsa (.ofOctets n) (.ofOctets e)
              ∧ provider.importKeyMap events key' = provider.importKeyMap events key)
            ∧ ∀ s s', KeyMap.decode s = .ok key → KeyMap.decode s' = .ok key' →
              Outcome.result <$> provider.importKey s' = Outcome.result <$> provider.importKey s
                ∧ (Native.importKey .all s').result = (Native.importKey .all s).result)
      ∧ (∀ (s : Octets) (key : KeyMap) (n e : Octets) (k : PublicKey),
        KeyMap.decode s = .ok key → key.StatesRsa n e → (Native.importKey .all s).result = .ok k →
          ∃ rsa : Rsa.Key, k = .rsa rsa
            ∧ rsa.modulus.value = n.value ∧ rsa.exponent.value = e.value)
      ∧ ∀ b b' : Octets, (Magnitude.ofOctets b).value = b.value
        ∧ (Magnitude.ofOctets b).octets.head? ≠ some 0
        ∧ Magnitude.ofOctets (Magnitude.ofOctets b).octets = Magnitude.ofOctets b
        ∧ (Magnitude.ofOctets b = Magnitude.ofOctets b' ↔ b.value = b'.value)
        ∧ ((Magnitude.ofOctets b).isZero = true ↔ b.value = 0)
        ∧ ∀ t, (Magnitude.ofOctets b).bitLength ≤ t ↔ b.value < 2 ^ t := by
  refine ⟨?materials, ?zeros, ?numbers, ?magnitudes⟩
  case materials =>
    intro key key' n e n' e' h h'
    exact ⟨⟨_, Material.ofKeyMap_of_statesRsa h⟩, Material.ofKeyMap_eq_iff_of_statesRsa h h'⟩
  case zeros =>
    intro key key' n e i j h h'
    have hn := Octets.value_zeros_append i n
    have he := Octets.value_zeros_append j e
    refine ⟨(Material.ofKeyMap_eq_iff_of_statesRsa h' h).2 ⟨hn, he⟩, fun events => ⟨?_, ?_⟩,
      fun s s' hs hs' => ⟨?_, ?_⟩⟩
    · exact importKeyMap_of_statesRsa provider events h
    · exact importKeyMap_eq_of_value_eq provider events h' h hn he
    · exact map_result_importKey_eq_of_value_eq provider hs' hs h' h hn he
    · exact map_result_importKey_eq_of_value_eq (Native.provider .all) hs' hs h' h hn he
  case numbers =>
    intro s key n e k hs h hk
    have hresult := (Native.provider .all).map_result_importKey s
    rw [Material.ofOctets_of_decode hs, Material.ofKeyMap_of_statesRsa h] at hresult
    obtain ⟨rsa, rfl, hmodulus, hexponent⟩ :=
      Native.exists_of_resultFor_eq_ok (hresult.symm.trans hk)
    exact ⟨rsa, rfl, by rw [hmodulus, Magnitude.value_ofOctets],
      by rw [hexponent, Magnitude.value_ofOctets]⟩
  case magnitudes =>
    intro b b'
    have hvalue := Magnitude.value_ofOctets b
    refine ⟨hvalue, (Magnitude.ofOctets b).head_ne_zero, (Magnitude.ofOctets b).ofOctets_octets,
      Magnitude.ofOctets_eq_iff, ?_, fun t => ?_⟩
    · rw [Magnitude.isZero_eq_true_iff, hvalue]
    · rw [Magnitude.bitLength_le_iff, hvalue]

/-- A key with two zeros in front of its modulus and one in front of its exponent,
and the same key without: they are imported to one key, of the numbers 15 and 3. A
zero after the modulus makes another number of it. -/
theorem importRsa_by_value_padded :
    Material.ofKeyMap (.ofNumbers [0, 0, 0x0f] [0, 0x03])
        = Material.ofKeyMap (.ofNumbers [0x0f] [0x03])
      ∧ Material.ofKeyMap (.ofNumbers [0x0f, 0] [0x03])
        ≠ Material.ofKeyMap (.ofNumbers [0x0f] [0x03])
      ∧ (∃ rsa : Rsa.Key, rsa.modulus.value = 15 ∧ rsa.exponent.value = 3
        ∧ (Native.importKey .all (KeyMap.ofNumbers [0, 0, 0x0f] [0, 0x03]).encode).result
          = .ok (.rsa rsa))
      ∧ ∀ t, (Magnitude.ofOctets [0, 0x80, 0x01]).bitLength ≤ t ↔ 0x8001 < 2 ^ t := by
  obtain ⟨hmaterials, hzeros, hnumbers, hmagnitudes⟩ :=
    importRsa_by_value (Native.provider .all)
  have hs : KeyMap.decode (KeyMap.ofNumbers [0x0f] [0x03]).encode
      = .ok (.ofNumbers [0x0f] [0x03]) := by
    decide +kernel
  have hs' : KeyMap.decode (KeyMap.ofNumbers [0, 0, 0x0f] [0, 0x03]).encode
      = .ok (.ofNumbers [0, 0, 0x0f] [0, 0x03]) := by
    decide +kernel
  have hkey : (Native.importKey .all (KeyMap.ofNumbers [0x0f] [0x03]).encode).result
      = .ok (.rsa ⟨.ofOctets [0x0f], .ofOctets [0x03], by decide⟩) := by
    decide +kernel
  obtain ⟨hmaterial, -, hresults⟩ := hzeros _ _ [0x0f] [0x03] 2 1
    (KeyMap.statesRsa_ofNumbers _ _) (KeyMap.statesRsa_ofNumbers _ _)
  have hkey' := (hresults _ _ hs hs').2.trans hkey
  obtain ⟨rsa, hrsa, hmodulus, hexponent⟩ :=
    hnumbers _ _ _ _ _ hs' (KeyMap.statesRsa_ofNumbers _ _) hkey'
  have hother := (hmaterials _ _ [0x0f, 0] [0x03] [0x0f] [0x03]
    (KeyMap.statesRsa_ofNumbers _ _) (KeyMap.statesRsa_ofNumbers _ _)).2
  refine ⟨hmaterial, mt hother.1 (by decide), ⟨rsa, hmodulus, hexponent, ?_⟩,
    (hmagnitudes [0, 0x80, 0x01] []).2.2.2.2.2⟩
  rw [hkey', hrsa]

end Provider

end KeyForms
