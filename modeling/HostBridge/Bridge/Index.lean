import HostBridge.Bridge.Convert
import HostBridge.Script.Table
import HostBridge.Storage.Map
import HostBridge.Storage.Slice
import HostBridge.Storage.Struct

namespace HostBridge

namespace StructTy

/-- An exported field, else a method bound to the struct or to the pointer it was reached through,
else nil. Methods that take a pointer are found only through one. -/
def member (s : Nat) (t : StructTy) (vs : List Value) (via : Option Pointer) (name : String) :
    BridgeM Script :=
  match t.exported? name with
  | some (i, _) => (vs[i]?.getD .nil).toScript s
  | none =>
    match t.method? name with
    | none => return .nil
    | some m =>
      match m.receiver, via with
      | .value, _ => Closure.make name (.method m.func (.struct t vs))
      | .pointer, some p => Closure.make name (.method m.func (.ptr p))
      | .pointer, none => return .nil

def index (s : Nat) (t : StructTy) (vs : List Value) (via : Option Pointer) (key : Script) :
    BridgeM Script :=
  match key.asText? with
  | some name => t.member s vs via name
  | none => return .nil

end StructTy

def Chan.index (c : Chan) (key : Script) : BridgeM Script :=
  match key.asText? with
  | some "receive" => Closure.make "receive" (.receive c)
  | some "send" => Closure.make "send" (.send c)
  | some "close" => Closure.make "close" (.close c)
  | _ => return .nil

def Map.index (s : Nat) (m : Map) (key : Script) : BridgeM Script := do
  let k ← key.toHost m.key
  match ← (m.find (← get) k : Except HostError _) with
  | some v => v.toScript s
  | none => return .nil

def Script.position (len : Nat) : Script → Except BridgeError Nat
  | .number n =>
    if n.isIntegral then
      let i := n.toInt64
      if i < 1 ∨ (len : Int) < i then .error (.indexOutOfRange i len) else .ok (i - 1).toNat
    else .error (.typeMismatch "integer index" "number")
  | key => .error (.typeMismatch "integer index" key.typeText)

def Slice.index (s : Nat) (w : Slice) (key : Script) : BridgeM Script :=
  match key.asText? with
  | some "append" => Closure.make "append" (.append w)
  | some "capacity" => Closure.make "capacity" (.capacity w)
  | some _ => return .nil
  | none => do
    let i ← (key.position w.len : Except BridgeError _)
    match w.get? (← get) i with
    | some v => v.toScript s
    | none => BridgeM.fail (.indexOutOfRange (i + 1) w.len)

namespace Pointer

def badPointee (p : Pointer) : BridgeError :=
  .typeMismatch "pointer to struct, map, slice or chan" p.type.text

def index (s : Nat) (p : Pointer) (key : Script) : BridgeM Script := do
  if p.isNil then BridgeM.fail .nilDereference
  match ← (p.load (← get) : Except HostError Value) with
  | .struct t vs => t.index s vs (some p) key
  | .map m =>
    let _ ← (Value.map m).toScript s
    m.index s key
  | .slice w =>
    let _ ← (Value.slice w).toScript s
    w.index s key
  | .chan c =>
    let _ ← (Value.chan c).toScript s
    c.index key
  | _ => BridgeM.fail p.badPointee

end Pointer

namespace Handle

def refuse {α : Type} (h : Handle) (op : Operator) : BridgeM α :=
  BridgeM.fail (.badOperand op h.typeText)

def index (s : Nat) (h : Handle) (key : Script) : BridgeM Script :=
  match h.kind?, h.payload with
  | some .chan, .value (.chan c) => c.index key
  | some .map, .value (.map m) => m.index s key
  | some .slice, .value (.slice w) => w.index s key
  | some .struct, .value (.struct t vs) => t.index s vs none key
  | some .ptr, .value (.ptr p) => p.index s key
  | _, _ => h.refuse .index

def len (h : Handle) : BridgeM Script :=
  match h.kind?, h.payload with
  | some .map, .value (.map m) => do return .number (.ofInt (m.size (← get)))
  | some .slice, .value (.slice w) => return .number (.ofInt w.len)
  | _, _ => h.refuse .len

end Handle

namespace Script

def refuse {α : Type} (v : Script) (op : Operator) : BridgeM α :=
  BridgeM.fail (.badOperand op v.typeText)

def index (s : Nat) (target key : Script) : BridgeM Script :=
  match target with
  | .table i => do return Table.get (← get) i key
  | .handle h => h.index s key
  | v => v.refuse .index

/-- The length of a text in bytes, the border of a table, the size of a map or a slice. -/
def len : Script → BridgeM Script
  | .string s => return .number (.ofInt s.utf8ByteSize)
  | .table i => do return .number (.ofInt (Table.size (← get) i))
  | .handle h => h.len
  | v => v.refuse .len

end Script

end HostBridge
