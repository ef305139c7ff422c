import KeyForms.Proofs.Import.Point
import KeyForms.Provider.Recording

/-!
# The requests of a run

A run of imports is judged by what the provider is asked for. The provider
keeps a record of that and answers from the record as it likes, so it may
refuse any of the keys, and what it answers to one may depend on all that came
before (`Provider.recordingWith`).

One import asks for nothing when the octets have no material, and otherwise
once, for the material; the answer is the result
(`Provider.exists_run_importKey_recordingWith`). Since nothing else is done to
the record, it grows along a run by the materials of the inputs in their
order, whatever the answers are (`Provider.record_importKeys`). An import in
the middle of a run meets the record of the inputs before it, and the run as a
whole is told input by input (`Provider.importKeys_recordingWith`).
-/

namespace KeyForms.Provider

variable {ε κ σ : Type}

/-! ## Runs of a provider with a state -/

theorem run_importKeys_cons (provider : Provider (StateM σ) ε κ) (s : Octets)
    (inputs : List Octets) (state : σ) :
    (provider.importKeys (s :: inputs)).run state
      = (let (outcome, next) := (provider.importKey s).run state
        let (outcomes, last) := (provider.importKeys inputs).run next
        (outcome :: outcomes, last)) := by
  rw [importKeys, List.mapM_cons]
  rfl

/-- There is one outcome for every input. -/
theorem length_importKeys (provider : Provider (StateM σ) ε κ) (inputs : List Octets)
    (state : σ) : ((provider.importKeys inputs).run state).1.length = inputs.length := by
  induction inputs generalizing state with
  | nil => rfl
  | cons s inputs ih =>
    rw [run_importKeys_cons]
    exact congrArg (· + 1) (ih _)

/-- **An import in the middle of a run** meets the state that the inputs before
it leave. -/
theorem getElem?_importKeys (provider : Provider (StateM σ) ε κ) (before : List Octets)
    (s : Octets) (after : List Octets) (state : σ) :
    ((provider.importKeys (before ++ s :: after)).run state).1[before.length]?
      = some ((provider.importKey s).run ((provider.importKeys before).run state).2).1 := by
  induction before generalizing state with
  | nil =>
    rw [List.nil_append, run_importKeys_cons]
    rfl
  | cons s' before ih =>
    rw [List.cons_append, run_importKeys_cons, run_importKeys_cons]
    exact ih _

/-! ## The record -/

/-- **The requests for a list of inputs**: the materials of those that have
one, in their order. -/
def requestsOf (inputs : List Octets) : List Material :=
  inputs.filterMap fun s => (Material.ofOctets s).toOption

theorem requestsOf_append (before after : List Octets) :
    requestsOf (before ++ after) = requestsOf before ++ requestsOf after :=
  List.filterMap_append

/-- Octets without material are no request. -/
theorem requestsOf_of_error {s : Octets} {cause : KeyError}
    (h : Material.ofOctets s = .error cause) : requestsOf [s] = [] := by
  rw [requestsOf, List.filterMap_cons, h]
  rfl

/-- Octets with material are one request. -/
theorem requestsOf_of_ok {s : Octets} {material : Material}
    (h : Material.ofOctets s = .ok material) : requestsOf [s] = [material] := by
  rw [requestsOf, List.filterMap_cons, h]
  rfl

variable (answer : List Material → Except ε κ)

/-- **One import and the record.** Octets without material leave it as it is,
and the error is the result. Material is put down once, and the answer to the
record with it is the result. -/
theorem exists_run_importKey_recordingWith (s : Octets) (given : List Material) :
    ∃ outcome, ((recordingWith answer).importKey s).run given
        = (outcome, given ++ requestsOf [s])
      ∧ outcome.result = match Material.ofOctets s with
        | .error cause => .error (.unusable cause)
        | .ok material => (answer (given ++ [material])).mapError (.refused material.keyType) := by
  cases h : Material.ofOctets s with
  | error cause =>
    obtain ⟨events, hevents⟩ := (recordingWith answer).importKey_of_error h
    refine ⟨.unusable events cause, ?_, rfl⟩
    rw [hevents, requestsOf_of_error h, List.append_nil]
    rfl
  | ok material =>
    obtain ⟨events, hevents⟩ := (recordingWith answer).importKey_of_ok h
    refine ⟨.ofAnswer events material.keyType (answer (given ++ [material])), ?_, ?_⟩
    · rw [hevents, submit_recordingWith, requestsOf_of_ok h]
      rfl
    · rw [Outcome.result_ofAnswer]

/-- **The record of a run** is what was there before and the materials of the
inputs. -/
theorem record_importKeys (inputs : List Octets) (given : List Material) :
    (((recordingWith answer).importKeys inputs).run given).2 = given ++ requestsOf inputs := by
  induction inputs generalizing given with
  | nil => exact (List.append_nil given).symm
  | cons s inputs ih =>
    obtain ⟨outcome, hrun, -⟩ := exists_run_importKey_recordingWith answer s given
    rw [run_importKeys_cons, hrun]
    show (((recordingWith answer).importKeys inputs).run (given ++ requestsOf [s])).2 = _
    rw [ih, List.append_assoc, ← requestsOf_append, List.singleton_append]

/-- **A run of imports.** The provider is asked for the materials of the
inputs, in their order, and for nothing else. An input without material makes
no request and has the error as its result. An input with material makes one
request, which carries the key that is stated, and the answer is the result: a
key as it is, and a refusal with the type of the key. -/
theorem importKeys_recordingWith (given : List Material) (inputs : List Octets) :
    ∃ outcomes, ((recordingWith answer).importKeys inputs).run given
        = (outcomes, given ++ requestsOf inputs)
      ∧ outcomes.length = inputs.length
      ∧ ∀ before s after, inputs = before ++ s :: after →
        ∃ outcome, outcomes[before.length]? = some outcome
          ∧ (∀ cause, Material.ofOctets s = .error cause →
            ((recordingWith answer).importKey s).run (given ++ requestsOf before)
                = (outcome, given ++ requestsOf before)
              ∧ outcome.result = .error (.unusable cause))
          ∧ ∀ material, Material.ofOctets s = .ok material →
            ((recordingWith answer).importKey s).run (given ++ requestsOf before)
                = (outcome, given ++ requestsOf before ++ [material])
              ∧ outcome.result = (answer (given ++ requestsOf before ++ [material])).mapError
                (.refused material.keyType)
              ∧ ∃ key, KeyMap.decode s = .ok key
                ∧ key.get? Label.keyType = some (.integer material.keyType.id)
                ∧ material.Carries key := by
  refine ⟨(((recordingWith answer).importKeys inputs).run given).1, ?_,
    length_importKeys _ _ _, ?_⟩
  · rw [← record_importKeys answer]
    rfl
  · rintro before s after rfl
    obtain ⟨outcome, hrun, hresult⟩ :=
      exists_run_importKey_recordingWith answer s (given ++ requestsOf before)
    refine ⟨outcome, ?_, ?_, ?_⟩
    · rw [getElem?_importKeys, record_importKeys, hrun]
    · intro cause h
      rw [h] at hresult
      refine ⟨?_, hresult⟩
      rw [hrun, requestsOf_of_error h, List.append_nil]
    · intro material h
      rw [h] at hresult
      obtain ⟨key, hkey, hmade⟩ := Material.exists_of_ofOctets_eq_ok h
      refine ⟨?_, hresult, key, hkey, Material.get?_keyType_of_isMadeOf hmade,
        Material.carries_of_isMadeOf hmade⟩
      rw [hrun, requestsOf_of_ok h]

/-- The base point, octets that encode nothing, and the base point again. The
provider refuses the first key that it is given, and takes the second. -/
theorem importKeys_recordingWith_base :
    ∃ material outcomes, Material.ofOctets (Native.cutBase 32).encode = .ok material
      ∧ ((recordingWith fun given =>
            if given.length = 1 then .error "busy" else .ok given.length).importKeys
          [(Native.cutBase 32).encode, [], (Native.cutBase 32).encode]).run []
        = (outcomes, [material, material])
      ∧ outcomes[0]?.map Outcome.result = some (.error (.refused .ec2 "busy"))
      ∧ outcomes[1]?.map Outcome.result
        = some (.error (.unusable (.malformed (.cbor .truncated))))
      ∧ outcomes[2]?.map Outcome.result = some (.ok 2) := by
  obtain ⟨info, hinfo⟩ := Curve.p256.exists_subjectInfo
    (show (Curve.Point.base.coordinates.take 32).length
      + (Curve.Point.base.coordinates.drop 32).length ≤ 65508 by decide +kernel)
  have hbase : Material.ofOctets (Native.cutBase 32).encode = .ok (.ec .p256 info) := by
    rw [Material.ofOctets, KeyMap.decode_encode (Native.fits_cutBase 32)]
    show Material.ofKeyMap (Native.cutBase 32) = _
    rw [Native.cutBase, Material.ofKeyMap_of_statesPoint (KeyMap.statesPoint_ofCoordinates _ _ _),
      hinfo]
    rfl
  have hnone : Material.ofOctets [] = .error (.malformed (.cbor .truncated)) := rfl
  obtain ⟨outcomes, hrun, -, hinputs⟩ := importKeys_recordingWith
    (fun given => if given.length = 1 then .error "busy" else .ok given.length) []
    [(Native.cutBase 32).encode, [], (Native.cutBase 32).encode]
  obtain ⟨first, hfirst, -, hrefused⟩ := hinputs [] _ _ rfl
  obtain ⟨second, hsecond, hunusable, -⟩ := hinputs [_] _ _ rfl
  obtain ⟨third, hthird, -, htaken⟩ := hinputs [_, _] _ _ rfl
  have hbefore : requestsOf [(Native.cutBase 32).encode, []] = [.ec .p256 info] := by
    rw [← List.singleton_append, requestsOf_append, requestsOf_of_ok hbase,
      requestsOf_of_error hnone, List.append_nil]
  have hrecord : requestsOf ([(Native.cutBase 32).encode, []] ++ [(Native.cutBase 32).encode])
      = [.ec .p256 info, .ec .p256 info] := by
    rw [requestsOf_append, hbefore, requestsOf_of_ok hbase, List.singleton_append]
  have hlast := (htaken _ hbase).2.1
  rw [hbefore] at hlast
  refine ⟨_, outcomes, hbase, ?_, ?_, ?_, ?_⟩
  · rw [hrun, List.nil_append]
    exact congrArg (Prod.mk outcomes) hrecord
  · rw [show outcomes[0]? = some first from hfirst, Option.map_some, (hrefused _ hbase).2.1]
    rfl
  · rw [show outcomes[1]? = some second from hsecond, Option.map_some, (hunusable _ hnone).2]
  · rw [show outcomes[2]? = some third from hthird, Option.map_some, hlast]
    rfl

end KeyForms.Provider
