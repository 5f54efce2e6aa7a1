import HostBridge.Function.Basic
import HostBridge.Storage.Slice

namespace HostBridge

inductive Native
  | bool
  | int (width : IntWidth)
  | uint (width : IntWidth)
  | single
  | double
  | string
  | any
  | list (elem : Native)

namespace Native

def Carrier : Native → Type
  | .bool => Bool
  | .int w => { n : Int // w.Signed n }
  | .uint w => { n : Int // w.Unsigned n }
  | .single => Single
  | .double => Double
  | .string => String
  | .any => Value
  | .list t => List t.Carrier

def type : Native → Ty
  | .bool => .bool
  | .int w => .int w
  | .uint w => .uint w
  | .single => .float .w32
  | .double => .float .w64
  | .string => .string
  | .any => .any
  | .list t => .slice t.type

/-- All of a list in order, as a slice; nil if an item does not fit, which no data reaches. -/
def sliceOf (elem : Ty) (items : List Value) : StateM Store Value :=
  if items.all elem.accepts then
    return .slice ⟨elem, ← Store.newBacking items.toArray, 0, items.length, items.length⟩
  else return .nil

def toValue : (t : Native) → t.Carrier → StateM Store Value
  | .bool, b => return .bool b
  | .int w, n => return .int w (Int64.ofInt n.1)
  | .uint w, n => return .uint w (UInt64.ofNat n.1.toNat)
  | .single, x => return .float .w32 (Single.toDouble x)
  | .double, x => return .float .w64 x
  | .string, s => return .string s
  | .any, v => return v
  | .list t, xs => do
    let items ← xs.mapM t.toValue
    sliceOf t.type items

def integer? : Value → Option Int
  | .int _ i => some i.toInt
  | .uint _ u => some u.toNat
  | _ => none

/-- The native data of a host value. An integer of any width is taken as far as it is in range,
and nil is the empty list. -/
def ofValue (st : Store) : (t : Native) → Value → Except HostError t.Carrier
  | .bool, v =>
    match v with
    | .bool b => .ok b
    | _ => .error (.typeMismatch "bool" v.typeText)
  | .int w, v =>
    match integer? v with
    | some n =>
      if h : w.Signed n then .ok ⟨n, h⟩
      else .error (.typeMismatch (Ty.int w).text v.typeText)
    | none => .error (.typeMismatch (Ty.int w).text v.typeText)
  | .uint w, v =>
    match integer? v with
    | some n =>
      if h : w.Unsigned n then .ok ⟨n, h⟩
      else .error (.typeMismatch (Ty.uint w).text v.typeText)
    | none => .error (.typeMismatch (Ty.uint w).text v.typeText)
  | .single, v =>
    match v with
    | .float _ x => .ok x.toSingle
    | _ => .error (.typeMismatch (Ty.float .w32).text v.typeText)
  | .double, v =>
    match v with
    | .float _ x => .ok x
    | _ => .error (.typeMismatch (Ty.float .w64).text v.typeText)
  | .string, v =>
    match v with
    | .string s => .ok s
    | _ => .error (.typeMismatch "string" v.typeText)
  | .any, v => .ok v
  | .list t, v =>
    match v with
    | .slice s => (s.toList st).mapM (t.ofValue st)
    | .nil => .ok []
    | _ => .error (.typeMismatch "slice" v.typeText)

def Tuple : List Native → Type
  | [] => Unit
  | t :: ts => t.Carrier × Tuple ts

def arguments (st : Store) : (ts : List Native) → List Value → Except HostError (Tuple ts)
  | [], _ => .ok ()
  | t :: ts, vs => do
    let x ← t.ofValue st (vs.head?.getD .nil)
    let xs ← arguments st ts vs.tail
    return (x, xs)

def results : (ts : List Native) → Tuple ts → StateM Store (List Value)
  | [], _ => return []
  | t :: ts, (x, xs) => return (← t.toValue x) :: (← results ts xs)

end Native

structure NativeFunction where
  params : List Native
  results : List Native
  run : Native.Tuple params → HostM (Except String (Native.Tuple results))

namespace NativeFunction

def sig (f : NativeFunction) : Signature :=
  ⟨f.params.map Native.type, f.results.map Native.type, false⟩

def body (f : NativeFunction) : Body := fun args => do
  let xs ← (Native.arguments (← get) f.params args : Except HostError _)
  match ← f.run xs with
  | .ok ys => Native.results f.results ys
  | .error text => HostM.fail (.call text)

end NativeFunction

end HostBridge
