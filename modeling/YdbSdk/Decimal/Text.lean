import YdbSdk.Data.Digits

namespace YdbSdk.Decimal

/-! # Decimal numbers as text

A decimal of some precision and scale is a signed 128-bit integer, the number times ten to the
scale.  Three values above every precision stand for infinity, for what is not a number and for
an error.  Texts are lists of characters. -/

def maxPrecision : Nat := 35

def inf : Int := 100000000000000000 * 1000000000000000000

def nan : Int := inf + 1

def err : Int := nan + 1

/-- What an unsigned 128-bit integer keeps of a result. -/
def unsigned (value : Nat) : Nat := value % 2 ^ 128

/-- An unsigned 128-bit integer returned as a signed one, negated before if asked. -/
def signed (neg : Bool) (v : Nat) : Int :=
  .bmod (if neg then -(v : Int) else v) (2 ^ 128)

def getDivider : Nat → Nat
  | 0 => 1
  | scale + 1 => unsigned (getDivider scale * 10)

def isNormal (v : Int) : Bool := decide (v < inf) && decide (-inf < v)

/-! ## Printing -/

/-- How a loop of `toString` ends: with the characters written so far, or with an early return. -/
inductive Printed where
  | done (precision scale : Nat) (s : List Char)
  | early (text : Option (List Char))
deriving DecidableEq

def digitChar (digit : Nat) : Char := .ofNat ('0'.toNat + digit)

def printDigits : (precision v scale : Nat) → (s : List Char) → Printed
  | 0, _, _, _ => .early (some [])
  | precision + 1, v, scale, s =>
    let digit := v % 10
    let s := if digit ≠ 0 ∨ scale = 0 ∨ s ≠ [] then digitChar digit :: s else s
    let s := if scale = 1 ∧ s ≠ [] then '.' :: s else s
    if v / 10 ≠ 0 then printDigits precision (v / 10) (scale - 1) s
    else .done precision (scale - 1) s

def printZeros : (precision scale : Nat) → (s : List Char) → Printed
  | precision, 0, s => .done precision 0 s
  | 0, _ + 1, _ => .early none
  | precision + 1, scale + 1, s => printZeros precision scale ('0' :: s)

/-- A text, or `none` for the null pointer. -/
def toString (val : Int) (precision scale : Nat) : Option (List Char) :=
  if precision = 0 ∨ maxPrecision < precision ∨ precision < scale then some []
  else if val = inf then some ['i', 'n', 'f']
  else if val = -inf then some ['-', 'i', 'n', 'f']
  else if val = nan then some ['n', 'a', 'n']
  else if ¬ isNormal val then none
  else if val = 0 then some ['0']
  else
    let neg := decide (val < 0)
    match printDigits precision val.natAbs scale [] with
    | .early text => text
    | .done precision scale s =>
      match if scale ≠ 0 then printZeros precision scale s else .done precision scale s with
      | .early text => text
      | .done _ _ digits =>
        let s := if scale ≠ 0 then '.' :: digits else digits
        let s := if s.head? = some '.' then '0' :: s else s
        some (if neg then '-' :: s else s)

/-! ## Parsing -/

def isNan (s : List Char) : Bool :=
  match s with
  | [first, second, third] =>
    (first == 'N' || first == 'n') && (second == 'A' || second == 'a') &&
      (third == 'N' || third == 'n')
  | _ => false

def isInf (s : List Char) : Bool :=
  match s with
  | [first, second, third] =>
    (first == 'I' || first == 'i') && (second == 'N' || second == 'n') &&
      (third == 'F' || third == 'f')
  | _ => false

def charDigit (c : Char) : Nat := c.toNat - '0'.toNat

/-- How the loop over the characters ends: at a character that does not belong there, with more
whole digits than the precision leaves, or with what is left beyond the scale. -/
inductive Scan where
  | failed
  | overflowed
  | stopped (v scale : Nat) (rest : List Char)

def scan : (s : List Char) → (dot : Bool) → (v integral scale : Nat) → Scan
  | [], _, v, _, scale => .stopped v scale []
  | c :: s, dot, v, integral, scale =>
    if c = '.' then
      if dot then .failed else scan s true v integral scale
    else if dot ∧ scale = 0 then .stopped v scale (c :: s)
    else
      let scale := if dot then scale - 1 else scale
      if ¬ c.isDigit then .failed
      else
        let v := unsigned (unsigned (v * 10) + charDigit c)
        if ¬ dot ∧ 0 < v then
          if integral = 0 then .overflowed else scan s dot v (integral - 1) scale
        else scan s dot v integral scale

def beyondFive : (plus : Bool) → (s : List Char) → Option (Bool × List Char)
  | true, s => some (true, s)
  | false, [] => some (false, [])
  | false, c :: s => if ¬ c.isDigit then none else beyondFive (c != '0') s

/-- Whether the digits beyond the scale round the number up, `none` at an error. -/
def roundsUp (v : Nat) (c : Char) (s : List Char) : Option Bool :=
  if ¬ c.isDigit then none
  else
    let decided :=
      if '5' < c then some (true, s)
      else if c = '5' then beyondFive (v % 2 == 1) s
      else some (false, s)
    match decided with
    | none => none
    | some (plus, s) => if s.all Char.isDigit then some plus else none

def scaleUp : (scale v : Nat) → Nat
  | 0, v => v
  | scale + 1, v => scaleUp scale (unsigned (v * 10))

def unsignedText (str : List Char) : List Char :=
  match str with
  | '-' :: s => s
  | '+' :: s => s
  | s => s

def fromString (str : List Char) (precision scale : Nat) : Int :=
  if precision < scale then err
  else if str = [] then err
  else
    let neg := str.head? == some '-'
    let s := unsignedText str
    if isInf s then (if neg then -inf else inf)
    else if isNan s then nan
    else
      match scan s false 0 (precision - scale) scale with
      | .failed => err
      | .overflowed => if neg then -inf else inf
      | .stopped v scale [] => signed neg (scaleUp scale v)
      | .stopped v scale (c :: s) =>
        match roundsUp v c s with
        | none => err
        | some false => signed neg (scaleUp scale v)
        | some true =>
          let v := unsigned (v + 1)
          let v := if getDivider precision ≤ v then inf.toNat else v
          signed neg (scaleUp scale v)

def validFrom : (dot : Bool) → (s : List Char) → Bool
  | _, [] => true
  | dot, c :: s =>
    if c = '.' then if dot then false else validFrom true s
    else if ¬ c.isDigit then false
    else validFrom dot s

def isValid (str : List Char) : Bool :=
  if str = [] then false
  else
    let s := unsignedText str
    if isInf s || isNan s then true else validFrom false s

/-! ## Written numbers -/

/-- A decimal number as it is written: a sign, digits before a point, perhaps a point and digits
after it, and perhaps an exponent. -/
structure Literal where
  sign : Option Bool
  whole : List (Fin 10)
  fraction : Option (List (Fin 10))
  exponent : Option (Bool × List (Fin 10))

namespace Literal

def signText : Option Bool → List Char
  | none => []
  | some true => ['-']
  | some false => ['+']

def digitsText (digits : List (Fin 10)) : List Char :=
  digits.map fun digit : Fin 10 => digitChar digit.val

def fractionText : Option (List (Fin 10)) → List Char
  | none => []
  | some digits => '.' :: digitsText digits

def exponentText : Option (Bool × List (Fin 10)) → List Char
  | none => []
  | some (neg, digits) => 'e' :: (if neg then ['-'] else []) ++ digitsText digits

def text (literal : Literal) : List Char :=
  signText literal.sign ++ digitsText literal.whole ++ fractionText literal.fraction ++
    exponentText literal.exponent

def negative (literal : Literal) : Bool := literal.sign == some true

def fractionDigits (literal : Literal) : List (Fin 10) := literal.fraction.getD []

def digits (literal : Literal) : List Nat :=
  (literal.whole ++ literal.fractionDigits).map Fin.val

def exponentValue (literal : Literal) : Int :=
  match literal.exponent with
  | none => 0
  | some (neg, digits) =>
    (if neg then -1 else 1) * Data.horner 0 (digits.map Fin.val)

def magnitude (literal : Literal) : ℚ :=
  Data.horner 0 literal.digits / 10 ^ literal.fractionDigits.length *
    10 ^ literal.exponentValue

def number (literal : Literal) : ℚ :=
  if literal.negative then -literal.magnitude else literal.magnitude

end Literal

end YdbSdk.Decimal
