import HostBridge.Number.Double

namespace HostBridge

structure Decimal where
  digits : Nat
  exponent : Int

namespace Decimal

def width : Nat → Nat
  | 0 => 0
  | n + 1 => width ((n + 1) / 10) + 1
  decreasing_by omega

/-- The power of ten just above `num / den`: `10 ^ (k - 1) ≤ num / den < 10 ^ k`. -/
def leading (num den : Nat) : Int :=
  if den ≤ num then width (num / den)
  else 1 - (width ((den + num - 1) / num - 1) : Int)

def strip : Nat → Decimal → Decimal
  | 0, d => d
  | fuel + 1, d =>
    if d.digits ≠ 0 ∧ d.digits % 10 = 0 then strip fuel ⟨d.digits / 10, d.exponent + 1⟩ else d

/-- The numbers that a text must lie between to read back, over one denominator; the ends
themselves read back when `closed`. -/
structure Interval where
  low : Nat
  value : Nat
  high : Nat
  den : Nat
  closed : Bool

def Interval.contains (i : Interval) (num den : Nat) : Bool :=
  if i.closed then i.low * den ≤ num * i.den && num * i.den ≤ i.high * den
  else i.low * den < num * i.den && num * i.den < i.high * den

/-- The multiple of `10 ^ e` nearest to the value that reads back, if there is one; of two at the
same distance the larger. -/
def Interval.onGrid (i : Interval) (e : Int) : Option Decimal :=
  let up := Nat.pow 10 e.toNat
  let down := Nat.pow 10 (-e).toNat
  let below := i.value * down / (i.den * up)
  let rest := 2 * (i.value * down - below * (i.den * up))
  let hasBelow := i.contains (below * up) down
  let hasAbove := i.contains ((below + 1) * up) down
  if hasBelow && (!hasAbove || rest < i.den * up) then some ⟨below, e⟩
  else if hasAbove then some ⟨below + 1, e⟩
  else none

/-- The interval of numbers that round to `significand * 2 ^ scale`. The gap below a power of two
is half as wide, except at the smallest scale. -/
def Interval.around (significand : Nat) (scale : Int) : Interval :=
  let up := 1 <<< (scale - 2).toNat
  let narrow := significand == 1 <<< Format.double.fraction && scale != Format.double.minScale
  { low := (4 * significand - if narrow then 1 else 2) * up
    value := 4 * significand * up
    high := (4 * significand + 2) * up
    den := 1 <<< (2 - scale).toNat
    closed := significand % 2 == 0 }

/-- The shortest decimal that reads back as `significand * 2 ^ scale`, nearest to it. Seventeen
digits always suffice. -/
def shortest (significand : Nat) (scale : Int) : Decimal :=
  let i := Interval.around significand scale
  let k := leading i.value i.den
  let found := (List.range 17).findSome? fun n => i.onGrid (k - (n + 1 : Nat))
  strip 17 (found.getD ⟨0, 0⟩)

def text (d : Decimal) : String :=
  let digits := (Nat.toDigits 10 d.digits)
  if 0 ≤ d.exponent then String.ofList (digits ++ List.replicate d.exponent.toNat '0')
  else
    let places := (-d.exponent).toNat
    let padded := List.replicate (places + 1 - digits.length) '0' ++ digits
    let whole := padded.length - places
    String.ofList (padded.take whole ++ '.' :: padded.drop whole)

end Decimal

namespace Double

def magnitudeText (m : Nat) (q : Int) : String :=
  if m = 0 then "0" else (Decimal.shortest m q).text

def signedText (x : Double) (plus : Bool) : String :=
  let sign (negative : Bool) := if negative then "-" else if plus then "+" else ""
  match x.datum with
  | .finite negative m q => sign negative ++ magnitudeText m q
  | .infinite negative => sign negative ++ "inf"
  | .nan .. => "NaN"

def text (x : Double) : String := x.signedText false

/-- The text of a number of the script language: an integral number below `10 ^ 15` is written as
an integer, so that negative zero has no sign. -/
def scriptText (x : Double) : String :=
  match x.datum with
  | .nan .. => "nan"
  | .finite .. =>
    if x.isIntegral && x.toInt64.natAbs < 1000000000000000 then toString x.toInt64 else x.text
  | .infinite _ => x.text

end Double

end HostBridge
