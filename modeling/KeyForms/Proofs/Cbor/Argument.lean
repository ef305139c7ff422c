import KeyForms.Cbor.Head
import KeyForms.Proofs.Octets

/-!
# Arguments of heads

An argument can be written in up to five widths: in the initial octet, or in
one, two, four or eight digits after it. The further information of the head
tells which, and it has to leave room for the argument (`Cbor.HasRoom`). That
is all that the reader asks (`Cbor.readArgument_eq_ok_iff`).

The writer takes the first of the five that has room (`Cbor.shortestInfo`).
Every other one with room takes more digits (`Cbor.HasRoom.eq_or_lt`), and a
larger argument never gets a smaller number as its further information
(`Cbor.shortestInfo_mono`).
-/

namespace KeyForms.Cbor

variable {info n m : Nat}

/-- The arguments that a head has room for are those below `2^64`. -/
def argumentBound : Nat := 0x10000000000000000

/-! ## Room for an argument -/

/-- **A head has room for an argument** when the further information is the
argument itself, or stands for as many digits as the argument has or more. -/
inductive HasRoom (n : Nat) : Nat → Prop where
  /-- The argument is in the initial octet. -/
  | inside (h : n < 24) : HasRoom n n
  /-- One digit follows. -/
  | one (h : n < 0x100) : HasRoom n 24
  /-- Two digits follow. -/
  | two (h : n < 0x10000) : HasRoom n 25
  /-- Four digits follow. -/
  | four (h : n < 0x100000000) : HasRoom n 26
  /-- Eight digits follow. -/
  | eight (h : n < 0x10000000000000000) : HasRoom n 27

/-- The number of digits that follow an initial octet. -/
def digitCount (info : Nat) : Nat :=
  if info < 24 then 0 else argumentWidth info

/-- The further information of the shortest head for an argument. -/
def shortestInfo (n : Nat) : Nat :=
  if n < 24 then n
  else if n < 0x100 then 24
  else if n < 0x10000 then 25
  else if n < 0x100000000 then 26
  else 27

theorem HasRoom.info_lt (h : HasRoom n info) : info < 28 := by
  cases h <;> omega

theorem HasRoom.lt_argumentBound (h : HasRoom n info) : n < argumentBound := by
  unfold argumentBound
  cases h <;> omega

theorem hasRoom_iff_of_lt (h : info < 24) : HasRoom n info ↔ n = info := by
  constructor
  · intro hroom
    cases hroom <;> omega
  · rintro rfl
    exact .inside h

theorem hasRoom_iff_of_le (h : 24 ≤ info) :
    HasRoom n info ↔ info < 28 ∧ n < 256 ^ argumentWidth info := by
  constructor
  · intro hroom
    refine ⟨hroom.info_lt, ?_⟩
    cases hroom with
    | inside hlt => omega
    | one hlt => exact hlt
    | two hlt => exact hlt
    | four hlt => exact hlt
    | eight hlt => exact hlt
  · rintro ⟨hinfo, hlt⟩
    obtain rfl | rfl | rfl | rfl : info = 24 ∨ info = 25 ∨ info = 26 ∨ info = 27 := by omega
    · exact .one hlt
    · exact .two hlt
    · exact .four hlt
    · exact .eight hlt

theorem hasRoom_shortestInfo (h : n < argumentBound) : HasRoom n (shortestInfo n) := by
  unfold shortestInfo
  split
  · exact .inside (by assumption)
  · split
    · exact .one (by assumption)
    · split
      · exact .two (by assumption)
      · split
        · exact .four (by assumption)
        · exact .eight h

/-- **Any other head with room for the argument is longer.** -/
theorem HasRoom.eq_or_lt (h : HasRoom n info) :
    info = shortestInfo n ∨ digitCount (shortestInfo n) < digitCount info := by
  unfold shortestInfo digitCount argumentWidth
  cases h <;> grind

theorem shortestInfo_mono (h : n ≤ m) : shortestInfo n ≤ shortestInfo m := by
  unfold shortestInfo
  grind

/-! ## Reading and writing -/

/-- **An argument is read** exactly when there is room for it and its digits
are in front. -/
theorem readArgument_eq_ok_iff {s rest : Octets} :
    readArgument info s = .ok (some n, rest)
      ↔ HasRoom n info ∧ s = Octets.ofNat (digitCount info) n ++ rest := by
  rcases Nat.lt_or_ge info 24 with hlt | hge
  · rw [readArgument, if_pos hlt, digitCount, if_pos hlt, hasRoom_iff_of_lt hlt]
    simp only [Except.ok.injEq, Prod.mk.injEq, Option.some.injEq, Octets.ofNat,
      List.nil_append, eq_comm]
  · rw [digitCount, if_neg (by omega), hasRoom_iff_of_le hge]
    constructor
    · intro h
      rw [readArgument, if_neg (by omega)] at h
      split at h
      · split at h
        · rename_i digits rest htake
          cases h
          obtain ⟨hlength, rfl⟩ := take_eq_ok_iff.1 htake
          have hlt := Octets.value_lt digits
          rw [hlength] at hlt
          rw [Octets.ofNat_value_of_length hlength]
          exact ⟨⟨by assumption, hlt⟩, rfl⟩
        · cases h
      · split at h <;> cases h
    · rintro ⟨⟨hinfo, hlt⟩, rfl⟩
      have htake : take (argumentWidth info) (Octets.ofNat (argumentWidth info) n ++ rest)
          = .ok (Octets.ofNat (argumentWidth info) n, rest) :=
        take_eq_ok_iff.2 ⟨Octets.length_ofNat _ n, rfl⟩
      rw [readArgument, if_neg (by omega), if_pos hinfo, htake]
      simp only [Octets.value_ofNat_of_lt hlt]

theorem toNat_initialOctet {major : Nat} (hmajor : major < 8) (hinfo : info < 32) :
    (initialOctet major info).toNat = 32 * major + info := by
  rw [initialOctet, UInt8.toNat_ofNat', Nat.mod_eq_of_lt (by omega)]

/-- **A written head in its parts**: the initial octet and the digits. -/
theorem encodeHead_eq (major n : Nat) :
    encodeHead major n
      = initialOctet major (shortestInfo n) :: Octets.ofNat (digitCount (shortestInfo n)) n := by
  unfold encodeHead shortestInfo
  split
  · rename_i hlt
    rw [digitCount, if_pos hlt]
    rfl
  · split
    · rfl
    · split
      · rfl
      · split <;> rfl

theorem length_encodeHead (major n : Nat) :
    (encodeHead major n).length = digitCount (shortestInfo n) + 1 := by
  rw [encodeHead_eq, List.length_cons, Octets.length_ofNat]

end KeyForms.Cbor
