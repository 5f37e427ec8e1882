import TypeAtlas.Text.Basic
/-!
Double precision numbers as exact values: a sign, a mantissa below `2 ^ 53` and a power of two not
below `2 ^ (-1074)`. A ratio is rounded to the nearest such number, and of two equally near ones
to the one with the even mantissa.
-/

namespace TypeAtlas

/-- A double precision number. -/
inductive Double
  | notANumber
  | infinite (negative : Bool)
  | finite (negative : Bool) (mantissa : Nat) (exponent : Int)
  deriving DecidableEq

namespace Double

/-- The smallest power of two that a mantissa is multiplied by. -/
def leastExponent : Int := -1074

/-- The greatest power of two that a mantissa is multiplied by. -/
def greatestExponent : Int := 971

/-- The quotient rounded to the nearest natural number, a half to the even neighbour. -/
def roundQuotient (num den : Nat) : Nat :=
  let quotient := num / den
  let twice := 2 * (num % den)
  if den < twice ∨ (den = twice ∧ quotient % 2 = 1) then quotient + 1 else quotient

/-- A ratio divided by a power of two. -/
def scale (num den : Nat) (exponent : Int) : Nat × Nat :=
  match exponent with
  | .ofNat e => (num, den * Nat.pow 2 e)
  | .negSucc e => (num * Nat.pow 2 (e + 1), den)

/-- The power of two that leaves a mantissa of 53 bits, or the least one for a small ratio. -/
def exponentOf (num den : Nat) : Int :=
  let guess : Int := (Nat.log2 num : Int) - (Nat.log2 den : Int) - 52
  let (n, d) := scale num den guess
  max leastExponent (if n < Nat.pow 2 52 * d then guess - 1 else guess)

/-- The number that is nearest to a ratio. -/
def ofRatio (negative : Bool) (num den : Nat) : Double :=
  if num = 0 then finite negative 0 leastExponent
  else
    let exponent := exponentOf num den
    let (n, d) := scale num den exponent
    let rounded := roundQuotient n d
    let (mantissa, exponent) :=
      if rounded = Nat.pow 2 53 then (Nat.pow 2 52, exponent + 1) else (rounded, exponent)
    if greatestExponent < exponent then infinite negative else finite negative mantissa exponent

/-- The number that is nearest to an integer. -/
def ofInt (n : Int) : Double :=
  ofRatio (decide (n < 0)) n.natAbs 1

/-- The double nearest to `digits * 10 ^ exponent`, where `digits` has at most `count` digits.
Numbers far outside of the range of doubles are not computed: they are infinite or zero. -/
def ofDecimal (negative : Bool) (digits count : Nat) (exponent : Int) : Double :=
  if digits = 0 then finite negative 0 leastExponent
  else if exponent + count < -330 then finite negative 0 leastExponent
  else if 310 < exponent then infinite negative
  else
    match exponent with
    | .ofNat e => ofRatio negative (digits * Nat.pow 10 e) 1
    | .negSucc e => ofRatio negative digits (Nat.pow 10 (e + 1))

/-- Whether a number is none, in the sense that it differs from itself. -/
def isNotANumber : Double → Bool
  | notANumber => true
  | _ => false

/-- The value of the 32 bits of a single precision number. -/
def ofSingleBits (bits : Nat) : Double :=
  let negative := decide (Nat.pow 2 31 ≤ bits)
  let biased := bits / Nat.pow 2 23 % 256
  let fraction := bits % Nat.pow 2 23
  if biased = 255 then
    if fraction = 0 then infinite negative else notANumber
  else if biased = 0 then ofRatio negative fraction (Nat.pow 2 149)
  else ofRatio negative ((Nat.pow 2 23 + fraction) * Nat.pow 2 biased) (Nat.pow 2 150)

/-- The value of the 64 bits of a double precision number. -/
def ofBits (bits : Nat) : Double :=
  let negative := decide (Nat.pow 2 63 ≤ bits)
  let biased : Nat := bits / Nat.pow 2 52 % 2048
  let fraction := bits % Nat.pow 2 52
  if biased = 2047 then
    if fraction = 0 then infinite negative else notANumber
  else if biased = 0 then finite negative fraction leastExponent
  else finite negative (Nat.pow 2 52 + fraction) ((biased : Int) - 1075)

/-- The 64 bits of a number. All that are not a number share one pattern. -/
def toBits : Double → Nat
  | notANumber => 2047 * Nat.pow 2 52 + Nat.pow 2 51
  | infinite negative => (if negative then Nat.pow 2 63 else 0) + 2047 * Nat.pow 2 52
  | finite negative mantissa exponent =>
      let sign := if negative then Nat.pow 2 63 else 0
      if mantissa < Nat.pow 2 52 then sign + mantissa
      else sign + (exponent + 1075).toNat * Nat.pow 2 52 + (mantissa - Nat.pow 2 52)

end Double

end TypeAtlas

namespace TypeAtlas.Double

/-- Digits of all scripts become ASCII digits, other characters stay. -/
def asciiDigit (c : Char) : Char :=
  match Text.decimalValue? c with
  | some d => Char.ofNat (48 + d)
  | none => c

/-- Takes out the underscores of a text. One that does not stand between two digits is refused;
`afterDigit` says whether a digit stands before the text. -/
def joinGroups (afterDigit : Bool) : List Char → Option (List Char)
  | [] => some []
  | '_' :: rest =>
      if afterDigit && (rest.head?.map Char.isDigit).getD false then joinGroups false rest else none
  | c :: rest => (joinGroups c.isDigit rest).map (c :: ·)

/-- The number that decimal digits write. -/
def digitsValue (cs : List Char) : Nat :=
  cs.foldl (fun n c => 10 * n + (c.toNat - 48)) 0

def exponentPart? : List Char → Option Int
  | [] => some 0
  | c :: rest =>
      if c ≠ 'e' ∧ c ≠ 'E' then none
      else
        let (negative, digits) :=
          match rest with
          | '-' :: ds => (true, ds)
          | '+' :: ds => (false, ds)
          | ds => (false, ds)
        if digits.isEmpty || !digits.all Char.isDigit then none
        else some (if negative then -(digitsValue digits : Int) else digitsValue digits)

/-- The number written by decimal notation without a sign. -/
def unsigned? (negative : Bool) (cs : List Char) : Option Double :=
  let whole := cs.takeWhile Char.isDigit
  let rest := cs.dropWhile Char.isDigit
  let (fraction, rest) :=
    match rest with
    | '.' :: ds => (ds.takeWhile Char.isDigit, ds.dropWhile Char.isDigit)
    | ds => ([], ds)
  if whole.isEmpty && fraction.isEmpty then none
  else
    (exponentPart? rest).map fun exponent =>
      ofDecimal negative (digitsValue (whole ++ fraction)) (whole.length + fraction.length)
        (exponent - fraction.length)

/-- The number written by a text, with blanks around it allowed. -/
def ofChars? (cs : List Char) : Option Double :=
  let cs := (Text.trim cs).map asciiDigit
  match joinGroups false cs with
  | none => none
  | some cs =>
      let (negative, magnitude) :=
        match cs with
        | '-' :: ds => (true, ds)
        | '+' :: ds => (false, ds)
        | ds => (false, ds)
      let word := String.ofList (magnitude.map Char.toLower)
      if word = "nan" then some notANumber
      else if word = "inf" ∨ word = "infinity" then some (infinite negative)
      else unsigned? negative magnitude

/-- Decimal digits with the place of the point: `digits` written out and the point set after
`places` of them. -/
structure Digits where
  digits : Nat
  count : Nat
  places : Int

/-- The factors that turn quarters of `2 ^ exponent` into units of `10 ^ unit`: a number of
quarters times the first over the second is the number of units. -/
def unitFactors (exponent unit : Int) : Nat × Nat :=
  (Nat.pow 2 (exponent - 2).toNat * Nat.pow 10 (-unit).toNat,
    Nat.pow 2 (2 - exponent).toNat * Nat.pow 10 unit.toNat)

/-- Whether a positive double is below a power of ten. -/
def isBelowPower (mantissa : Nat) (exponent places : Int) : Bool :=
  let (num, den) := unitFactors exponent places
  decide (4 * mantissa * num < den)

/-- The least number of places that hold a positive double: the double is below
`10 ^ places`. The binary length gives it up to two. -/
def placesOf (mantissa : Nat) (exponent : Int) : Int :=
  let estimate := Int.fdiv ((Nat.log2 mantissa + exponent) * 30103) 100000
  if isBelowPower mantissa exponent estimate then estimate
  else if isBelowPower mantissa exponent (estimate + 1) then estimate + 1
  else estimate + 2

/-- Of the two neighbours of a positive double on the grid of `10 ^ unit`, the one that reads back
as the double. Of two the nearer one, and of two equally near ones the even one. -/
def onGrid? (mantissa : Nat) (exponent unit : Int) : Option Nat :=
  let (num, den) := unitFactors exponent unit
  let below := if mantissa = Nat.pow 2 52 ∧ leastExponent < exponent then 1 else 2
  let low := (4 * mantissa - below) * num
  let value := 4 * mantissa * num
  let high := (4 * mantissa + 2) * num
  let readsBack (units : Nat) : Bool :=
    if mantissa % 2 = 0 then decide (low ≤ units * den) && decide (units * den ≤ high)
    else decide (low < units * den) && decide (units * den < high)
  let floor := value / den
  if readsBack floor && readsBack (floor + 1) then some (roundQuotient value den)
  else if readsBack floor then some floor
  else if readsBack (floor + 1) then some (floor + 1)
  else none

/-- The first grid, from `count` digits on, that has a point which reads back. -/
def digitsFrom (mantissa : Nat) (exponent places : Int) (count : Nat) : Nat → Digits
  | 0 => ⟨mantissa, count, places⟩
  | fuel + 1 =>
      match onGrid? mantissa exponent (places - count) with
      | some digits => ⟨digits, count, places⟩
      | none => digitsFrom mantissa exponent places (count + 1) fuel

/-- The digits of a number in base ten, most significant first; zero has none. -/
def decimalChars (n : Nat) : List Char :=
  if n = 0 then [] else decimalChars (n / 10) ++ [Char.ofNat (48 + n % 10)]
termination_by n

/-- The digits of a positive double without zeros at their end, and the place of the point.
Seventeen digits tell every two doubles apart. -/
def shortestDigits (mantissa : Nat) (exponent : Int) : List Char × Int :=
  let found := digitsFrom mantissa exponent (placesOf mantissa exponent) 1 17
  let chars := decimalChars found.digits
  ((chars.reverse.dropWhile (· == '0')).reverse, found.places + chars.length - found.count)

/-- The exponents from `10 ^ (-5)` to `10 ^ 15` of the first digit are written positionally, with
at least one digit after the point. Other numbers have an exponent of two digits or more. -/
def layOut (digits : List Char) (places : Int) : List Char :=
  if -4 < places ∧ places ≤ 16 then
    if places ≤ 0 then
      ['0', '.'] ++ List.replicate (-places).toNat '0' ++ digits
    else if digits.length ≤ places.toNat then
      digits ++ List.replicate (places.toNat - digits.length) '0' ++ ['.', '0']
    else digits.take places.toNat ++ ['.'] ++ digits.drop places.toNat
  else
    let point := if digits.length ≤ 1 then [] else ['.']
    let sign := if places - 1 < 0 then '-' else '+'
    digits.take 1 ++ point ++ digits.drop 1 ++ ['e', sign] ++
      List.leftpad 2 '0' (decimalChars (places - 1).natAbs)

/-- The shortest text that reads as a number. -/
def text : Double → String
  | notANumber => "nan"
  | infinite negative => if negative then "-inf" else "inf"
  | finite negative mantissa exponent =>
      let magnitude :=
        if mantissa = 0 then ['0', '.', '0']
        else
          let (digits, places) := shortestDigits mantissa exponent
          layOut digits places
      String.ofList (if negative then '-' :: magnitude else magnitude)

end TypeAtlas.Double
