/-! Binary interchange formats: how a bit pattern stands for an exact value, and how an exact
value is rounded to a pattern. -/

namespace HostBridge

/-- A sign bit, then `exponent` exponent bits, then `fraction` fraction bits. -/
structure Format where
  fraction : Nat
  exponent : Nat

inductive Datum
  | finite (negative : Bool) (significand : Nat) (scale : Int)
  | infinite (negative : Bool)
  | nan (negative : Bool) (payload : Nat)
  deriving DecidableEq

namespace Format

def single : Format := ⟨23, 8⟩

def double : Format := ⟨52, 11⟩

def topField (f : Format) : Nat := (1 <<< f.exponent) - 1

def minScale (f : Format) : Int := 2 - ((1 <<< (f.exponent - 1) : Nat) : Int) - f.fraction

def decode (f : Format) (bits : Nat) : Datum :=
  let fraction := bits % (1 <<< f.fraction)
  let field := (bits >>> f.fraction) % (1 <<< f.exponent)
  let negative := (bits >>> (f.fraction + f.exponent)) % 2 == 1
  if field = f.topField then
    if fraction = 0 then .infinite negative else .nan negative fraction
  else if field = 0 then .finite negative fraction f.minScale
  else .finite negative ((1 <<< f.fraction) + fraction) (f.minScale + (field - 1 : Nat))

def withSign (f : Format) (negative : Bool) (magnitude : Nat) : Nat :=
  (negative.toNat <<< (f.fraction + f.exponent)) + magnitude

def roundHalfEven (n k : Nat) : Nat :=
  let q := n >>> k
  let r := 2 * (n % (1 <<< k))
  if r < 1 <<< k then q
  else if 1 <<< k < r then q + 1
  else q + q % 2

/-- The pattern, sign left out, of `significand * 2 ^ scale` rounded to nearest. A significand
that rounds up to the next power of two carries into the exponent field by itself. -/
def magnitude (f : Format) (significand : Nat) (scale : Int) : Nat :=
  if significand = 0 then 0
  else
    let target := max f.minScale (scale + significand.log2 - f.fraction)
    let rounded :=
      if target ≤ scale then significand <<< (scale - target).toNat
      else roundHalfEven significand (target - scale).toNat
    min (((target - f.minScale).toNat <<< f.fraction) + rounded) (f.topField <<< f.fraction)

def encode (f : Format) : Datum → Nat
  | .finite negative m q => f.withSign negative (f.magnitude m q)
  | .infinite negative => f.withSign negative (f.topField <<< f.fraction)
  | .nan negative payload =>
    f.withSign negative ((f.topField <<< f.fraction) + payload % (1 <<< f.fraction))

/-- The payload of a quiet result: the leading bits are kept and the first is set. -/
def quietPayload (source target : Format) (payload : Nat) : Nat :=
  let kept := (payload <<< target.fraction) >>> source.fraction
  kept ||| (1 <<< (target.fraction - 1))

def convert (source target : Format) (bits : Nat) : Nat :=
  match source.decode bits with
  | .nan negative payload => target.encode (.nan negative (source.quietPayload target payload))
  | datum => target.encode datum

end Format

end HostBridge
