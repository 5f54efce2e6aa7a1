import HostBridge.Bridge.Index
import HostBridge.Function.Basic
import HostBridge.Storage.Chan

namespace HostBridge

namespace Function

/-- Call a host function with script arguments, after a bound receiver if there is one. Too few
arguments fail. Surplus ones are collected by a variadic function and ignored by any other. -/
def invoke (host : Host) (s : Nat) (f : Function) (receiver : Option Value)
    (args : List Script) : BridgeM (List Script) := do
  let bound := receiver.toList
  let required := f.sig.required - bound.length
  if args.length < required then
    BridgeM.fail (.arity f.sig.text required args.length)
  let fixed ← Script.toHosts ((f.sig.params.take f.sig.required).drop bound.length) args
  let rest ←
    if f.sig.variadic then do
      let items ← Script.allToHost f.sig.rest (args.drop required)
      let collected ← Slice.ofList f.sig.rest items
      pure [Value.slice collected]
    else pure []
  let results ← BridgeM.rescue (f.call host (bound ++ fixed ++ rest))
  Value.toScripts s results

end Function

def Chan.received (s : Nat) : Option Value → BridgeM (List Script)
  | some v => do return [← v.toScript s, .bool true]
  | none => return [.nil, .bool false]

def Chan.argument (c : Chan) (args : List Script) : BridgeM Value :=
  match args[1]? with
  | some x => x.toHost c.elem
  | none => BridgeM.fail (.arity "send" 1 (args.length - 1))

def Map.next (s : Nat) (m : Map) (keys : List Value) (cursor : Nat) : BridgeM (List Script) := do
  let st ← get
  let i := (st.cursors.get? cursor).getD 0
  set { st with cursors := st.cursors.set cursor (i + 1) }
  match keys[i]? with
  | none => return []
  | some key =>
    let v ← (m.find (← get) key : Except HostError _)
    return [← key.toScript s, ← (v.getD .nil).toScript s]

def Code.run (host : Host) (s : Nat) (args : List Script) : Code → BridgeM (List Script)
  | .host f => f.invoke host s none args
  | .method f receiver => f.invoke host s (some receiver) args.tail
  | .receive c => do Chan.received s (← c.receive)
  | .send c => do
    let v ← c.argument args
    c.send v
    return []
  | .close c => do
    c.close
    return []
  | .append w => do
    let items ← Script.allToHost w.elem args.tail
    return [← (Value.slice (← w.append items)).toScript s]
  | .capacity w => return [.number (.ofInt w.cap)]
  | .next m keys cursor => m.next s keys cursor
  | .echo => return args
  | .count => return [.number (.ofInt args.length)]
  | .apply => BridgeM.fail (.runtime "apply wants a callable")

def Ty.instantiate : Ty → StateM Store Value
  | .map k e => (Ty.map k e).zero
  | .slice e => return .slice (← Slice.withCapacity e 0 10)
  | .chan d e => return .chan ((← Chan.make e 0).restrict d)
  | t => do return .ptr (← Pointer.withType t (← t.zero))

def Handle.call (s : Nat) (h : Handle) : BridgeM (List Script) :=
  match h.kind?, h.payload with
  | some .map, .value (.map m) => do
    let keys := m.keys (← get)
    return [← Closure.make "map iterator" (.next m keys (← Store.newCursor))]
  | some .type, .type t => do return [← (← t.instantiate).toScript s]
  | _, _ => h.refuse .call

namespace Script

def call (host : Host) (s : Nat) (target : Script) (args : List Script) :
    BridgeM (List Script) :=
  match target, args with
  | .function ⟨_, _, .apply⟩, first :: rest => call host s first rest
  | .function f, args => f.code.run host s args
  | .handle h, _ => h.call s
  | v, _ => v.refuse .call

def callMethod (host : Host) (s : Nat) (target : Script) (name : String) (args : List Script) :
    BridgeM (List Script) := do
  let f ← target.index s (.string name)
  f.call host s (target :: args)

end Script

end HostBridge
