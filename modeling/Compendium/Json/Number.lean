import Compendium.Json.Basic

/-!
# Numbers of JSON text

A number without fraction and exponent that fits 64 bits is an integer. Any other number is a float:
the leading digits that fit 64 bits, scaled by a power of ten. A number too large for a float is
refused.
-/

namespace Compendium.Json

/-- Whether a character is a decimal digit. -/
def isDigit (c : Char) : Bool :=
  '0' ≤ c && c ≤ '9'

/-- The parts of a number's text. -/
structure NumberText where
  negative : Bool
  whole : List Char
  fraction : Option (List Char)
  exponent : Option (Bool × List Char)

/-- Cuts off the exponent part, if the rest of a number has one. -/
def exponentPart? : List Char → Option (Option (Bool × List Char))
  | [] => some none
  | c :: rest =>
    if c == 'e' || c == 'E' then
      let (negative, digits) :=
        match rest with
        | '-' :: digits => (true, digits)
        | '+' :: digits => (false, digits)
        | digits => (false, digits)
      if !digits.isEmpty && digits.all isDigit then some (some (negative, digits)) else none
    else none

/-- The parts of a well-formed number: no leading zeros, and digits on both sides of a point. -/
def NumberText.parse? (s : List Char) : Option NumberText :=
  let (negative, s) :=
    match s with
    | '-' :: rest => (true, rest)
    | _ => (false, s)
  let whole := s.takeWhile isDigit
  let rest := s.dropWhile isDigit
  if whole.isEmpty || (whole.head? == some '0' && 1 < whole.length) then none
  else
    match rest with
    | '.' :: rest =>
      let fraction := rest.takeWhile isDigit
      if fraction.isEmpty then none
      else (exponentPart? (rest.dropWhile isDigit)).map fun e => ⟨negative, whole, some fraction, e⟩
    | _ => (exponentPart? rest).map fun e => ⟨negative, whole, none, e⟩

/-- The greatest significand that is kept. -/
def maxSignificand : Nat := 0xFFFFFFFFFFFFFFFF

/-- Leading digits as a number, and the power of ten by which it is scaled. -/
structure Scaled where
  significand : Nat
  exponent : Int

/-- Reads whole digits: from the first one that no longer fits, digits only raise the exponent. -/
def Scaled.whole : List Char → Scaled → Scaled
  | [], s => s
  | c :: rest, s =>
    let next := s.significand * 10 + (c.toNat - 48)
    if s.exponent = 0 && next ≤ maxSignificand then Scaled.whole rest ⟨next, 0⟩
    else Scaled.whole rest ⟨s.significand, s.exponent + 1⟩

/-- Reads fraction digits up to the first one that no longer fits. -/
def Scaled.fraction : List Char → Scaled → Scaled
  | [], s => s
  | c :: rest, s =>
    let next := s.significand * 10 + (c.toNat - 48)
    if next ≤ maxSignificand then Scaled.fraction rest ⟨next, s.exponent - 1⟩ else s

/-- The exponents that a number may reach: beyond, they stay at the end of the range. -/
def maxExponent : Nat := 0x7FFFFFFF

def powerOfTen (n : Nat) : Float :=
  Float.ofScientific 1 false n

/-- A float divided by a power of ten, in steps that a float can hold. The count bounds the
steps. -/
def divideByPower : Nat → Float → Nat → Float
  | 0, f, _ => f
  | steps + 1, f, n =>
    if n ≤ 308 then f / powerOfTen n
    else if f == 0 then f
    else divideByPower steps (f / powerOfTen 308) (n - 308)

/-- The magnitude of a scaled number, unless it is too large for a float. -/
def Scaled.toFloat? (s : Scaled) : Option Float :=
  let f := s.significand.toUInt64.toFloat
  if s.exponent < 0 then some (divideByPower 8 f s.exponent.natAbs)
  else if s.exponent ≤ 308 then
    let product := f * powerOfTen s.exponent.toNat
    if product.isInf then none else some product
  else if s.significand = 0 then some f
  else none

def digitsValue (digits : List Char) : Nat :=
  digits.foldl (fun n c => n * 10 + (c.toNat - 48)) 0

/-- Applies the written exponent. An exponent out of range gives zero, or nothing where the number
would be too large. -/
def Scaled.shifted? (s : Scaled) : Option (Bool × List Char) → Option Float
  | none => s.toFloat?
  | some (negative, digits) =>
    let e := digitsValue digits
    if maxExponent < e then
      if s.significand ≠ 0 && !negative then none else some 0
    else
      let total := if negative then s.exponent - e else s.exponent + e
      Scaled.toFloat? ⟨s.significand, max (-(maxExponent : Int) - 1) (min maxExponent total)⟩

def NumberText.value? (t : NumberText) : Option Json :=
  let whole := Scaled.whole t.whole ⟨0, 0⟩
  match t.fraction, t.exponent with
  | none, none =>
    if whole.exponent = 0 then
      if !t.negative then some (.int whole.significand)
      else if whole.significand ≠ 0 && whole.significand ≤ 0x8000000000000000 then
        some (.int (-whole.significand))
      else some (.float (-whole.significand.toUInt64.toFloat))
    else whole.toFloat?.map fun f => .float (if t.negative then -f else f)
  | fraction, exponent =>
    ((Scaled.fraction (fraction.getD []) whole).shifted? exponent).map fun f =>
      .float (if t.negative then -f else f)

/-- The number that a word writes. -/
def number? (s : List Char) : Option Json :=
  (NumberText.parse? s).bind NumberText.value?

end Compendium.Json
