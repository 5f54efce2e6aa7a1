import HostBridge.Error
import HostBridge.Value.Basic

/-! Keys of maps. A key keeps what map entries are told apart by: widths do not count, nor does
the type of a struct. -/

namespace HostBridge

mutual

inductive Key
  | nil
  | bool (b : Bool)
  | int (i : Int64)
  | uint (u : UInt64)
  | float (bits : UInt64)
  | complex (re im : UInt64)
  | string (s : String)
  | ref (address : Nat)
  | struct (fields : Keys)

inductive Keys
  | nil
  | cons (head : Key) (tail : Keys)

end

deriving instance DecidableEq for Key, Keys

inductive Object
  | channel (id : Nat)
  | map (id : Nat)
  | cell (id : Nat)
  | backing (id : Nat)
  | body (id : Nat)
  | box (id : Nat)
  | closure (id : Nat)
  | table (id : Nat)
  | handle (id : Nat)
  | state (id : Nat)

def page : Nat := 0x100000000

def basePage : Nat := 0x1000

def Object.address : Object → Nat
  | .channel i => page * (basePage + 10 * i + 1)
  | .map i => page * (basePage + 10 * i + 2)
  | .cell i => page * (basePage + 10 * i + 3)
  | .backing i => page * (basePage + 10 * i + 4)
  | .body i => page * (basePage + 10 * i + 5)
  | .box i => page * (basePage + 10 * i + 6)
  | .closure i => page * (basePage + 10 * i + 7)
  | .table i => page * (basePage + 10 * i + 8)
  | .handle i => page * (basePage + 10 * i + 9)
  | .state i => page * (basePage + 10 * i + 10)

def Chan.address (c : Chan) : Nat := (Object.channel c.id).address

def Map.address (m : Map) : Nat := (Object.map m.id).address

def Slice.address (s : Slice) : Nat := (Object.backing s.backing).address + s.offset

def Pointer.address (p : Pointer) : Nat :=
  match p.cell with
  | some i => (Object.cell i).address
  | none => 0

def Function.address (f : Function) : Nat := (Object.body f.body).address

def Box.address (b : Box) : Nat := (Object.box b.id).address

def Closure.address (f : Closure) : Nat := (Object.closure f.id).address

def Handle.address (h : Handle) : Nat := (Object.handle h.id).address

def Value.address? : Value → Option Nat
  | .func f => some f.address
  | .chan c => some c.address
  | .map m => some m.address
  | .slice s => some s.address
  | .ptr p => some p.address
  | .address a => some a.toNat
  | .boxed o => some o.address
  | _ => none

/-- The two zeros have one key. -/
def Double.keyBits (x : Double) : UInt64 := if x.isZero then 0 else x.bits

mutual

def Key.ofValue : Value → Except HostError Key
  | .nil => .ok .nil
  | .bool b => .ok (.bool b)
  | .int _ i => .ok (.int i)
  | .uint _ u => .ok (.uint u)
  | .float _ x => .ok (.float x.keyBits)
  | .complex _ x y => .ok (.complex x.keyBits y.keyBits)
  | .string s => .ok (.string s)
  | .chan c => .ok (.ref c.address)
  | .ptr p => .ok (.ref p.address)
  | .address a => .ok (.ref a.toNat)
  | .boxed o => .ok (.ref o.address)
  | .struct _ vs => (Keys.ofValues vs).map .struct
  | .func f => .error (.unhashable (Value.func f).typeText)
  | .map m => .error (.unhashable (Value.map m).typeText)
  | .slice s => .error (.unhashable (Value.slice s).typeText)

def Keys.ofValues : List Value → Except HostError Keys
  | [] => .ok .nil
  | v :: vs => do
    let k ← Key.ofValue v
    let ks ← Keys.ofValues vs
    return .cons k ks

end

end HostBridge
