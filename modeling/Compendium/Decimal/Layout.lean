import Compendium.Decimal.Shortest

/-!
# Decimal text of floats

Two ways to write the shortest decimal of a float: `dataText`, which always shows a fraction or an
exponent, and `plainText`, which never shows an exponent.
-/

namespace Compendium.Decimal

/-- The decimal digits of a natural number. -/
def natText (n : Nat) : List Char :=
  Nat.toDigits 10 n

def intText (n : Int) : List Char :=
  if n < 0 then '-' :: natText n.natAbs else natText n.natAbs

/-- The digits in positional notation: zeros fill up to the point, and the fraction follows it. -/
def positional (d : Digits) : List Char :=
  let digits := natText d.value
  if 0 ≤ d.exponent then digits ++ List.replicate d.exponent.toNat '0'
  else
    let places := (-d.exponent).toNat
    if digits.length ≤ places then
      '0' :: '.' :: (List.replicate (places - digits.length) '0' ++ digits)
    else
      digits.take (digits.length - places) ++ '.' :: digits.drop (digits.length - places)

/-- The digits in scientific notation: one digit before the point, and a signed exponent. -/
def scientific (d : Digits) (power : Int) : List Char :=
  let mantissa :=
    match natText d.value with
    | [] => ['0']
    | [digit] => [digit]
    | digit :: rest => digit :: '.' :: rest
  mantissa ++ 'e' :: (if power < 0 then '-' else '+') :: natText power.natAbs

/-- The power of ten of the first digit. -/
def Digits.power (d : Digits) : Int :=
  d.exponent + (natText d.value).length - 1

/-- Whether a float is below zero or is the negative zero. -/
def isNegative (x : Float) : Bool :=
  0x8000000000000000 ≤ x.toBits.toNat

def signed (x : Float) (magnitude : List Char) : List Char :=
  if isNegative x then '-' :: magnitude else magnitude

/-- A float as it stands in JSON text: positional for powers of ten from -5 to 15, always with a
fraction, and scientific beyond. -/
def dataText (x : Float) : List Char :=
  let b := Binary.ofBits x.toBits
  if b.mantissa = 0 then signed x ['0', '.', '0']
  else
    let d := b.shortest .even
    if d.power < -5 || 16 ≤ d.power then signed x (scientific d d.power)
    else if 0 ≤ d.exponent then signed x (positional d ++ ['.', '0'])
    else signed x (positional d)

/-- A float as it stands in an attribute: positional, without an empty fraction. -/
def plainText (x : Float) : List Char :=
  let b := Binary.ofBits x.toBits
  if b.mantissa = 0 then signed x ['0']
  else signed x (positional (b.shortest .up))

end Compendium.Decimal
