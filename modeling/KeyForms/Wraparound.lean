/-!
# Wrap-around digits

Modulo `2^521 - 1` a carry out of bit 521 is worth one, so a sum or a product
is brought back to 521 bits by adding what sticks out at the top to the low
end. Numbers are written here in nine digits for that, the least significant
first: eight digits of 58 bits and one of 57.

The result has the right residue (`Wraparound.Writes.sqrt`), but it is not
always the residue itself: a number of no more bits than a carry may come
out with the modulus added to it. Since the modulus is odd, its lowest bit is
then the wrong one. So whoever takes a bit from the digits has to do the
arithmetic in the same steps, and the steps are fixed below.
-/

namespace KeyForms.Wraparound

/-- A number by its digits, the least significant first. -/
abbrev Digits := List Nat

/-- The base of all digits but the last, `2^58`. -/
def base : Nat := 0x400000000000000

/-- The base of the last digit, `2^57`. -/
def topBase : Nat := 0x200000000000000

/-- The number of digits. -/
def count : Nat := 9

/-- The modulus, `2^521 - 1`. -/
def modulus : Nat :=
  0x01ffffffffffffffffffffffffffffffffffffffffffffffffffffffffffffffffffffffffffffffffffffffffffffffffffffffffffffffffffffffffffffffffff

/-- **The number that digits write.** -/
def value : Digits → Nat
  | [] => 0
  | d :: ds => d + base * value ds

/-- The lowest digits of a number, as many as are asked for, and then the
rest of it as one more. -/
def split : Nat → Nat → Digits
  | 0, n => [n]
  | more + 1, n => n % base :: split more (n / base)

/-- The digits of a number. -/
def ofNat (n : Nat) : Digits := split (count - 1) n

/-! ## Carrying -/

/-- Carry through all digits from the lowest to the highest, and out of it. -/
def carry : Nat → Digits → Digits × Nat
  | c, [] => ([], c)
  | c, [d] => ([(d + c) % topBase], (d + c) / topBase)
  | c, d :: e :: ds =>
    let upper := carry ((d + c) / base) (e :: ds)
    ((d + c) % base :: upper.1, upper.2)

/-- Add to the lowest digit, carry on from as many digits as are stated, and
leave in the next digit whatever arrives there. -/
def carryInto : Nat → Nat → Digits → Digits
  | _, _, [] => []
  | 0, c, d :: ds => (d + c) :: ds
  | steps + 1, c, d :: ds => (d + c) % base :: carryInto steps ((d + c) / base) ds

/-- **Bring digits back to their sizes**: carry through all of them, add what
comes out to the lowest, and carry on from the lowest two. -/
def settle (ds : Digits) : Digits :=
  let carried := carry 0 ds
  carryInto 2 carried.2 carried.1

/-! ## Arithmetic -/

/-- The sum. -/
def sum (a b : Digits) : Digits := settle (List.zipWith (· + ·) a b)

/-- Digits moved up by one place. What moves out at the top is worth two at
the low end, since the last digit is one bit shorter than the others. -/
def shift (ds : Digits) : Digits :=
  match ds.getLast? with
  | some top => 2 * top :: ds.dropLast
  | none => []

/-- The product before it is settled: every digit of the one times the other,
moved to its place. -/
def columns (a b : Digits) : Digits :=
  a.foldr (fun d upper => List.zipWith (· + ·) (b.map (d * ·)) (shift upper))
    (List.replicate count 0)

/-- The product. -/
def product (a b : Digits) : Digits := settle (columns a b)

/-- The result of squaring several times. -/
def squareTimes : Nat → Digits → Digits
  | 0, a => a
  | n + 1, a => squareTimes n (product a a)

/-- **The square root of a square**, which is its power with the exponent
`2^519`, a quarter of the modulus and one. -/
def sqrt (a : Digits) : Digits := squareTimes 519 a

end KeyForms.Wraparound
