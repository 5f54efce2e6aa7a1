import HostBridge.Number.Format

namespace HostBridge

structure Double where
  bits : UInt64
  deriving DecidableEq, Inhabited

structure Single where
  bits : UInt32
  deriving DecidableEq, Inhabited

namespace Double

def datum (x : Double) : Datum := Format.double.decode x.bits.toNat

def ofDatum (d : Datum) : Double := ⟨UInt64.ofNat (Format.double.encode d)⟩

def ofInt (n : Int) : Double := ofDatum (.finite (n < 0) n.natAbs 0)

def zero : Double := ⟨0⟩

def one : Double := ofInt 1

def isNaN (x : Double) : Bool :=
  match x.datum with
  | .nan .. => true
  | _ => false

def isZero (x : Double) : Bool :=
  match x.datum with
  | .finite _ m _ => m == 0
  | _ => false

def same (x y : Double) : Bool :=
  !x.isNaN && !y.isNaN && (x.bits == y.bits || x.isZero && y.isZero)

def isNegative (x : Double) : Bool :=
  match x.datum with
  | .finite negative m _ => negative && m != 0
  | .infinite negative => negative
  | .nan .. => false

def isIntegral (x : Double) : Bool :=
  match x.datum with
  | .finite _ m q => m % (1 <<< (-q).toNat) == 0
  | _ => false

def floorScaled (significand : Nat) (scale : Int) : Nat :=
  (significand <<< scale.toNat) >>> (-scale).toNat

/-- Truncation toward zero of a finite number; an infinity goes to the bound on its side and
what is not a number to zero. -/
def truncate (x : Double) (low high : Int) : Int :=
  match x.datum with
  | .finite negative m q =>
    let n : Int := floorScaled m q
    max low (min high (if negative then -n else n))
  | .infinite negative => if negative then low else high
  | .nan .. => 0

def toInt64 (x : Double) : Int := x.truncate (-0x8000000000000000) 0x7fffffffffffffff

def toUInt64 (x : Double) : Int := x.truncate 0 0xffffffffffffffff

def toSingle (x : Double) : Single :=
  ⟨UInt32.ofNat (Format.double.convert .single x.bits.toNat)⟩

end Double

def Single.toDouble (x : Single) : Double :=
  ⟨UInt64.ofNat (Format.single.convert .double x.bits.toNat)⟩

end HostBridge
