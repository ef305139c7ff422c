/-!
# Signature algorithms

A key may say which algorithm it is used with, as a registered integer code;
a JSON signature header says it as a text. Either is resolved to the
signature scheme that a verifier runs. A code or text outside the two tables
is an error that names it (`Algorithm.Unknown`).
-/

namespace KeyForms

/-- The schemes a signature is verified with. -/
inductive SignatureScheme where
  /-- Ed25519 on the message itself. -/
  | ed25519
  /-- ECDSA over SHA-256. -/
  | ecdsaSha256
  /-- ECDSA over SHA-384. -/
  | ecdsaSha384
  /-- ECDSA over SHA-512. -/
  | ecdsaSha512
  /-- RSASSA-PKCS1-v1_5 over SHA-256. -/
  | rsaSha256
  /-- RSASSA-PKCS1-v1_5 over SHA-384. -/
  | rsaSha384
  /-- RSASSA-PKCS1-v1_5 over SHA-512. -/
  | rsaSha512
  /-- RSASSA-PKCS1-v1_5 over SHA-1. -/
  | rsaSha1
deriving DecidableEq

/-- The standard name of a scheme: the ASN.1 name for ECDSA and RSA. -/
def SignatureScheme.name : SignatureScheme → String
  | .ed25519 => "Ed25519"
  | .ecdsaSha256 => "ecdsa-with-SHA256"
  | .ecdsaSha384 => "ecdsa-with-SHA384"
  | .ecdsaSha512 => "ecdsa-with-SHA512"
  | .rsaSha256 => "sha256WithRSAEncryption"
  | .rsaSha384 => "sha384WithRSAEncryption"
  | .rsaSha512 => "sha512WithRSAEncryption"
  | .rsaSha1 => "sha1WithRSAEncryption"

/-- **The algorithms a key can name.** -/
inductive Algorithm where
  /-- EdDSA. -/
  | edDsa
  /-- ECDSA with SHA-256. -/
  | es256
  /-- ECDSA with SHA-384. -/
  | es384
  /-- ECDSA with SHA-512. -/
  | es512
  /-- RSASSA-PKCS1-v1_5 with SHA-256. -/
  | rs256
  /-- RSASSA-PKCS1-v1_5 with SHA-384. -/
  | rs384
  /-- RSASSA-PKCS1-v1_5 with SHA-512. -/
  | rs512
  /-- RSASSA-PKCS1-v1_5 with SHA-1. -/
  | rs1
deriving DecidableEq

namespace Algorithm

/-- Every algorithm, in the order of the table. -/
def all : List Algorithm := [edDsa, es256, es384, es512, rs256, rs384, rs512, rs1]

/-- The registered name. -/
def name : Algorithm → String
  | edDsa => "EdDSA"
  | es256 => "ES256"
  | es384 => "ES384"
  | es512 => "ES512"
  | rs256 => "RS256"
  | rs384 => "RS384"
  | rs512 => "RS512"
  | rs1 => "RS1"

/-- The registered code. -/
def code : Algorithm → Int64
  | edDsa => -8
  | es256 => -7
  | es384 => -35
  | es512 => -36
  | rs256 => -257
  | rs384 => -258
  | rs512 => -259
  | rs1 => -65535

/-- The scheme a verifier runs for an algorithm. -/
def scheme : Algorithm → SignatureScheme
  | edDsa => .ed25519
  | es256 => .ecdsaSha256
  | es384 => .ecdsaSha384
  | es512 => .ecdsaSha512
  | rs256 => .rsaSha256
  | rs384 => .rsaSha384
  | rs512 => .rsaSha512
  | rs1 => .rsaSha1

/-- A code or a header text that names no algorithm here. -/
inductive Unknown where
  /-- A code that is not in the table. -/
  | code (n : Int64)
  /-- A header text that is not accepted. -/
  | header (text : String)
deriving DecidableEq

/-- The unknown name as it is shown: a code in decimal, a text as it is. -/
def Unknown.text : Unknown → String
  | .code n => toString n.toInt
  | .header text => text

/-- **The algorithm of a code.** -/
def ofCode (n : Int64) : Except Unknown Algorithm :=
  match all.find? (fun a => a.code = n) with
  | some a => .ok a
  | none => .error (.code n)

/-- The algorithm of a code is the one that has it. -/
@[simp] theorem ofCode_code (a : Algorithm) : ofCode a.code = .ok a := by
  cases a <;> rfl

end Algorithm

/-- The scheme of an algorithm code. -/
def SignatureScheme.ofCode (n : Int64) : Except Algorithm.Unknown SignatureScheme :=
  (Algorithm.ofCode n).map Algorithm.scheme

/-- **The scheme of a signature header's algorithm text.** Only `RS256` is
accepted. Those who read headers rely on that, so this is no place for a
general table. -/
def SignatureScheme.ofHeader (text : String) : Except Algorithm.Unknown SignatureScheme :=
  if text = "RS256" then .ok .rsaSha256 else .error (.header text)

end KeyForms
