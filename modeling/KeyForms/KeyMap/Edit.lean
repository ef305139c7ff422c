import KeyForms.KeyMap.Decoding
import KeyForms.KeyMap.Encoding
import KeyForms.RawPoint

/-!
# Editing key maps

The ways in which a key map is changed: emptying it, setting a label, and
replacing it by one that is read from octets or made from a raw point. An edit
answers with the value that a label had before, or with an error; an edit
that fails leaves the key map as it was.
-/

namespace KeyForms.KeyMap

/-- **One change of a key map.** -/
inductive Edit where
  /-- Remove all entries. -/
  | clear
  /-- Give a label a value. -/
  | set (label : Int64) (value : Parameter)
  /-- Replace the key map by an encoded one. -/
  | load (encoded : Octets)
  /-- Replace the key map by that of a raw point. -/
  | loadRaw (point : Octets)
deriving DecidableEq

/-- The key map that takes the place of the one that is edited, or why the
edit fails. -/
def edited? (key : KeyMap) : Edit → Except KeyError KeyMap
  | .clear => .ok empty
  | .set label value => .ok (key.insert label value)
  | .load encoded => decode encoded
  | .loadRaw point => ofRawPoint point

/-- **The key map after an edit.** -/
def edit (key : KeyMap) (e : Edit) : KeyMap :=
  match key.edited? e with
  | .ok key' => key'
  | .error _ => key

/-- **The answer to an edit**: the value that was replaced, or why the edit
fails. -/
def answer (key : KeyMap) (e : Edit) : Except KeyError (Option Parameter) :=
  match key.edited? e, e with
  | .error error, _ => .error error
  | .ok _, .set label _ => .ok (key.get? label)
  | .ok _, _ => .ok none

/-- The key map after a sequence of edits. -/
def editAll (key : KeyMap) (edits : List Edit) : KeyMap := edits.foldl edit key

/-- Whether a key map is read back from its encoding. -/
def readsBack (key : KeyMap) : Bool :=
  match decode key.encode with
  | .ok key' => key' = key
  | .error _ => false

end KeyForms.KeyMap
