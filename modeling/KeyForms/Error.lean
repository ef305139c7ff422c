import KeyForms.Algorithm
import KeyForms.Cbor.Head
import KeyForms.Der.Element
import KeyForms.KeyType

/-!
# Errors

Everything that can go wrong between one form of a key and another, up to
the point where the key is handed over. An error is a cause with the numbers
that belong to it; the words are all in `KeyError.message`.

A key that was handed over and refused is another matter, since then there is
somebody else's reason to carry (`ImportError`).
-/

namespace KeyForms

/-- **Why octets or a key map are malformed.** -/
inductive Malformed where
  /-- The octets do not begin with a CBOR item. -/
  | cbor (failure : Cbor.Failure)
  /-- Octets follow the item. -/
  | trailing (count : Nat)
  /-- The item is not a map. -/
  | notMap
  /-- A label is given two values. -/
  | duplicate (label : Int64)
  /-- A field is missing. -/
  | missing (label : Int64)
  /-- A field is a byte string and should be an integer. -/
  | notInteger (label : Int64)
  /-- A field is an integer and should be a byte string. -/
  | notOctets (label : Int64)
deriving DecidableEq

/-- **Why a key cannot be brought into another form.** -/
inductive KeyError where
  /-- A raw point has none of the accepted shapes: its length, and its first
  octet if it has one. -/
  | rawShape (length : Nat) (first : Option UInt8)
  /-- A key map, or its encoding, is malformed. -/
  | malformed (cause : Malformed)
  /-- The key type is none of the three. -/
  | unsupportedKeyType (id : Int64)
  /-- The curve is none of those for the key type. -/
  | unsupportedCurve (keyType : KeyType) (id : Int64)
  /-- An algorithm is not in the table. -/
  | unknownAlgorithm (algorithm : Algorithm.Unknown)
  /-- A DER content is too long. -/
  | tooLong (content : Der.TooLong)
deriving DecidableEq

/-- **Why a key was not imported**: it could not be brought into the form in
which keys are handed over, or it was handed over and refused for a reason of
type `ε`. -/
inductive ImportError (ε : Type) where
  /-- The key never got as far as being handed over. -/
  | unusable (cause : KeyError)
  /-- A key of this type was refused. -/
  | refused (keyType : KeyType) (reason : ε)
deriving DecidableEq

/-! ## Words -/

namespace Cbor

/-- The word for a failure to read an item. -/
def Failure.word : Failure → String
  | .truncated => "Io"
  | .illFormed => "Syntax"
  | .invalid => "Semantic"
  | .tooDeep => "RecursionLimitExceeded"

end Cbor

/-- An integer in decimal. -/
def decimal (n : Int64) : String := toString n.toInt

/-- The words for a cause of malformedness. -/
def Malformed.message : Malformed → String
  | .cbor failure => failure.word
  | .trailing count => toString count ++ " trailing bytes after COSE_Key"
  | .notMap => "expected a CBOR map"
  | .duplicate label => "duplicate label " ++ decimal label
  | .missing label => "missing field " ++ decimal label
  | .notInteger label => "field " ++ decimal label ++ " is a byte string, expected an integer"
  | .notOctets label => "field " ++ decimal label ++ " is an integer, expected a byte string"

/-- A digit of the base-sixteen form, in lower case. -/
def hexDigit (n : Nat) : Char := "0123456789abcdef".toList.getD n '0'

/-- An octet as two base-sixteen digits. -/
def hexOctet (b : UInt8) : String :=
  String.ofList [hexDigit (b.toNat / 16), hexDigit (b.toNat % 16)]

/-- What a raw point begins with. -/
def describeFirst : Option UInt8 → String
  | some b => "0x" ++ hexOctet b
  | none => "nothing"

/-- **The words for an error.** -/
def KeyError.message : KeyError → String
  | .rawShape length first =>
    "raw EC point must be 64, 96 or 132 bytes long, " ++
      "or start with 0x04 and be 65, 97 or 133 bytes long; got " ++
      toString length ++ " bytes starting with " ++ describeFirst first
  | .malformed cause => "malformed COSE_Key: " ++ cause.message
  | .unsupportedKeyType id => "unsupported COSE key type: " ++ decimal id
  | .unsupportedCurve keyType id =>
    "unsupported curve " ++ decimal id ++ " for " ++ keyType.name ++ " key"
  | .unknownAlgorithm algorithm => "unknown algorithm: " ++ algorithm.text
  | .tooLong content =>
    "DER length " ++ toString content.length ++ " exceeds the two-byte long form"

/-- The words for a failed import, given those for a refusal. -/
def ImportError.message {ε : Type} (describe : ε → String) : ImportError ε → String
  | .unusable cause => cause.message
  | .refused keyType reason => keyType.name ++ " key import rejected: " ++ describe reason

end KeyForms
