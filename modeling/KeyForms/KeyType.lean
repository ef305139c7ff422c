/-!
# Key types

A key map begins by saying of which type the key is, and the type decides
what its other labels mean: label −1 is a curve for two of the types and a
modulus for the third.
-/

namespace KeyForms

/-- **The three types of key.** -/
inductive KeyType where
  /-- An octet key pair: one string of octets on a named curve. -/
  | okp
  /-- An elliptic curve key with two coordinates. -/
  | ec2
  /-- An RSA key. -/
  | rsa
deriving DecidableEq

namespace KeyType

/-- The registered number of a key type. -/
def id : KeyType → Int64
  | okp => 1
  | ec2 => 2
  | rsa => 3

/-- The key type of a registered number. -/
def ofId? (n : Int64) : Option KeyType :=
  if n = 1 then some okp
  else if n = 2 then some ec2
  else if n = 3 then some rsa
  else none

/-- The name that messages use. -/
def name : KeyType → String
  | okp => "OKP"
  | ec2 => "EC2"
  | rsa => "RSA"

/-- A number names the key type that has it, and no other does. -/
theorem ofId?_eq_some_iff {n : Int64} {t : KeyType} : ofId? n = some t ↔ n = t.id := by
  unfold ofId?
  split
  · subst_vars
    cases t <;> decide
  · split
    · subst_vars
      cases t <;> decide
    · split
      · subst_vars
        cases t <;> decide
      · cases t <;> simp_all [id]

end KeyType

end KeyForms
