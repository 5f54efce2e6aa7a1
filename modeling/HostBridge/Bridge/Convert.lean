import HostBridge.Script.State
import HostBridge.Storage.Zero

namespace HostBridge

namespace Handle

def make (s : Nat) (kind : HandleKind) (payload : Payload) : BridgeM Script := do
  let set ← State.operators s
  return .handle ⟨← Store.freshId, payload, some ⟨set, kind⟩⟩

def inert (v : Value) : StateM Store Script := return .handle ⟨← Store.freshId, .value v, none⟩

def constructor (s : Nat) (t : Ty) : BridgeM Script := make s .type (.type t)

end Handle

def Closure.make (name : String) (code : Code) : StateM Store Script :=
  return .function ⟨← Store.freshId, name, code⟩

namespace Value

/-- The script value of a host value. Booleans, numbers and strings go by value, boxed script
values as they are, and references as new handles. -/
def toScript (s : Nat) : Value → BridgeM Script
  | .nil => return .nil
  | .bool b => return .bool b
  | .int _ i => return .number (.ofInt i.toInt)
  | .uint _ u => return .number (.ofInt u.toNat)
  | .float _ x => return .number x
  | .string t => return .string t
  | .func f => Closure.make f.sig.text (.host f)
  | .chan c => Handle.make s .chan (.value (.chan c))
  | .map m => Handle.make s .map (.value (.map m))
  | .slice w => Handle.make s .slice (.value (.slice w))
  | .struct t vs => Handle.make s .struct (.value (.struct t vs))
  | .ptr p => Handle.make s .ptr (.value (.ptr p))
  | .boxed ⟨_, .script v⟩ => return v
  | .boxed ⟨_, .type t⟩ => Handle.constructor s t
  | .boxed ⟨i, .foreign n⟩ => Handle.inert (.boxed ⟨i, .foreign n⟩)
  | .address a => Handle.inert (.address a)
  | .complex w x y => do
    match ((← get).state s).config.unsupported with
    | .fatal => BridgeM.fail (.unsupported (Ty.complex w).text)
    | .inert => Handle.inert (.complex w x y)

def toScripts (s : Nat) : List Value → BridgeM (List Script)
  | [] => return []
  | v :: vs => do
    let x ← v.toScript s
    let xs ← toScripts s vs
    return x :: xs

end Value

def Ty.ofNumber (hint : Ty) (n : Double) : Except BridgeError Value :=
  match hint with
  | .int w => .ok (.int w (Int64.ofInt (w.wrapSigned n.toInt64)))
  | .uint w =>
    let i := if n.isNegative then n.toInt64 else n.toUInt64
    .ok (.uint w (UInt64.ofNat (w.wrapUnsigned i).toNat))
  | .float .w32 => .ok (.float .w32 n.toSingle.toDouble)
  | .float .w64 | .any => .ok (.float .w64 n)
  | t => .error (.typeMismatch t.text "number")

namespace Script

/-- The host value of a script value. Nil is the zero value of the hint, handles give what they
hold, and functions, tables and states are boxed, whatever the hint. -/
def toHost (hint : Ty) : Script → BridgeM Value
  | .nil => hint.zero
  | .bool b =>
    match hint with
    | .bool | .any => return .bool b
    | t => BridgeM.fail (.typeMismatch t.text "boolean")
  | .number n => hint.ofNumber n
  | .string s =>
    match hint with
    | .string | .any => return .string s
    | t => BridgeM.fail (.typeMismatch t.text "string")
  | .handle ⟨_, .value v, _⟩ => return v
  | .handle ⟨_, .type t, _⟩ => Box.make (.type t)
  | .function f => Box.make (.script (.function f))
  | .table i => Box.make (.script (.table i))
  | .state i => Box.make (.script (.state i))

def toHosts : List Ty → List Script → BridgeM (List Value)
  | t :: ts, x :: xs => do
    let v ← x.toHost t
    let vs ← toHosts ts xs
    return v :: vs
  | _, _ => return []

def allToHost (hint : Ty) : List Script → BridgeM (List Value)
  | [] => return []
  | x :: xs => do
    let v ← x.toHost hint
    let vs ← allToHost hint xs
    return v :: vs

def asText? : Script → Option String
  | .string s => some s
  | _ => none

end Script

end HostBridge
