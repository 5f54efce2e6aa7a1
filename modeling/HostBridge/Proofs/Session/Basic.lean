import HostBridge.Bridge.Assign
import HostBridge.Bridge.Call
import HostBridge.Function.Stock

/-! Sessions: a host program and its scripts at work, one action after another and in any order.
Nobody makes up a reference: an action works on values that earlier actions gave out. -/

namespace HostBridge

inductive Item
  | value (v : Value)
  | script (x : Script)
  | tables (set : Nat)

def Code.parts : Code → List Item
  | .method _ receiver => [.value receiver]
  | .receive c | .send c | .close c => [.value (.chan c)]
  | .append w | .capacity w => [.value (.slice w)]
  | .next m keys _ => .value (.map m) :: keys.map .value
  | .host _ | .echo | .count | .apply => []

def Item.parts : Item → List Item
  | .value (.struct _ vs) => vs.map .value
  | .value (.boxed ⟨_, .script x⟩) => [.script x]
  | .script (.handle ⟨_, .value v, _⟩) => [.value v]
  | .script (.function f) => f.code.parts
  | _ => []

def Value.isPlain : Value → Bool
  | .nil | .bool _ | .int .. | .uint .. | .float .. | .complex .. | .string _ | .func _
  | .address _ => true
  | _ => false

def Script.isPlain : Script → Bool
  | .nil | .bool _ | .number _ | .string _ => true
  | _ => false

/-- What host code can do with storage; the actions that write check what they write. -/
inductive HostAction
  | plain (v : Value)
  | foreign (n : Nat)
  | reify (t : Ty)
  | zero (t : Ty)
  | makeMap (key elem : Ty)
  | fillMap (key elem : Ty) (pairs : List (Value × Value))
  | insert (m : Map) (key value : Value)
  | remove (m : Map) (key : Value)
  | find (m : Map) (key : Value)
  | entries (m : Map)
  | makeSlice (elem : Ty)
  | withCapacity (elem : Ty) (len cap : Nat)
  | ofList (elem : Ty) (items : List Value)
  | item (w : Slice) (i : Nat)
  | setItem (w : Slice) (i : Nat) (v : Value)
  | append (w : Slice) (vs : List Value)
  | window (w : Slice) (low high : Nat)
  | toList (w : Slice)
  | makeStruct (t : StructTy) (vs : List Value)
  | fields (t : StructTy) (vs : List Value)
  | setField (t : StructTy) (vs : List Value) (name : String) (v : Value)
  | setFieldAt (t : StructTy) (vs : List Value) (i : Nat) (v : Value)
  | makePointer (v : Value)
  | nilPointer (t : Ty)
  | load (p : Pointer)
  | store (p : Pointer) (v : Value)
  | changeField (p : Pointer) (name : String) (v : Value)
  | makeChan (elem : Ty) (capacity : Nat)
  | restrict (c : Chan) (direction : Direction)
  | send (c : Chan) (v : Value)
  | receive (c : Chan)
  | close (c : Chan)

namespace HostAction

def operands : HostAction → List Value
  | .plain v => if v.isPlain then [] else [v]
  | .foreign _ | .reify _ | .zero _ | .makeMap .. | .makeSlice _ | .withCapacity .. | .nilPointer _
  | .makeChan .. => []
  | .fillMap _ _ pairs => pairs.map (·.1) ++ pairs.map (·.2)
  | .insert m key value => [.map m, key, value]
  | .remove m key | .find m key => [.map m, key]
  | .entries m => [.map m]
  | .ofList _ items => items
  | .item w _ | .window w .. | .toList w => [.slice w]
  | .setItem w _ v => [.slice w, v]
  | .append w vs => .slice w :: vs
  | .makeStruct _ vs => vs
  | .fields t vs => [.struct t vs]
  | .setField t vs _ v | .setFieldAt t vs _ v => [.struct t vs, v]
  | .makePointer v => [v]
  | .load p => [.ptr p]
  | .store p v | .changeField p _ v => [.ptr p, v]
  | .restrict c _ | .receive c | .close c => [.chan c]
  | .send c v => [.chan c, v]

def run : HostAction → HostM (List Value)
  | .plain v => return [v]
  | .foreign n => return [← Box.make (.foreign n)]
  | .reify t => return [← Box.make (.type t)]
  | .zero t => return [← t.zero]
  | .makeMap key elem => return [.map (← Map.make key elem)]
  | .fillMap key elem pairs => return [.map (← Map.ofPairs key elem pairs)]
  | .insert m key value => do
    m.insert key value
    return []
  | .remove m key => return (← m.remove key).toList
  | .find m key => do return (← (m.find (← get) key : Except HostError _)).toList
  | .entries m => do return (m.entries (← get)).map (·.key) ++ (m.entries (← get)).map (·.value)
  | .makeSlice elem => return [.slice (← Slice.make elem)]
  | .withCapacity elem len cap => return [.slice (← Slice.withCapacity elem len cap)]
  | .ofList elem items => return [.slice (← Slice.ofList elem items)]
  | .item w i => do return (w.get? (← get) i).toList
  | .setItem w i v => do
    w.set i v
    return []
  | .append w vs => return [.slice (← w.append vs)]
  | .window w low high => return [.slice (← (w.slice low high : Except HostError _))]
  | .toList w => do return w.toList (← get)
  | .makeStruct t vs => return [← (t.make vs : Except HostError _)]
  | .fields _ vs => return vs
  | .setField t vs name v => return [.struct t (← (t.set vs name v : Except HostError _))]
  | .setFieldAt t vs i v => return [.struct t (← (t.setAt vs i v : Except HostError _))]
  | .makePointer v => return [.ptr (← Pointer.make v)]
  | .nilPointer t => return [.ptr ⟨t, none⟩]
  | .load p => do return [← (p.load (← get) : Except HostError _)]
  | .store p v => do
    p.store v
    return []
  | .changeField p name v => do
    p.modifyFields "struct" fun t vs => t.set vs name v
    return []
  | .makeChan elem capacity => return [.chan (← Chan.make elem capacity)]
  | .restrict c direction => return [.chan (c.restrict direction)]
  | .send c v => do
    c.send v
    return []
  | .receive c => return (← c.receive).toList
  | .close c => do
    c.close
    return []

end HostAction

/-- What host code can bring about that starts in a store and holds some values: the stores it
leaves, with the values it holds by then. -/
inductive HostRun (st : Store) (held : List Value) : Store → List Value → Prop
  | start : HostRun st held st held
  | done {a : HostAction} {st' st'' : Store} {held' vs : List Value} :
    HostRun st held st' held' → a.operands ⊆ held' → a.run st' = .ok vs st'' →
      HostRun st held st'' (held' ++ vs)
  | stopped {a : HostAction} {st' st'' : Store} {held' : List Value} {stop : Stop HostError} :
    HostRun st held st' held' → a.operands ⊆ held' → a.run st' = .error stop st'' →
      HostRun st held st'' held'

/-- A body that works on storage by actions alone, from its arguments and the values it holds
itself. -/
def Body.Checked (captured : List Value) (b : Body) : Prop :=
  ∀ args st, match b args st with
    | .ok vs st' => ∃ held, HostRun st (captured ++ args) st' held ∧ vs ⊆ held
    | .error _ st' => ∃ held, HostRun st (captured ++ args) st' held

def State.holds (set : Nat) (state : State) : Bool :=
  state.alive && state.registry.any fun (_, slot) => slot.as? .tables = some set

namespace SlotType

/-- Host code owns operator tables when no registry has them any more, and only then it can put them
into one. -/
def isShared (st : Store) : (type : SlotType) → type.Content → Bool
  | .tables, set => st.states.items.toList.any (·.holds set)
  | .foreign _, _ => false

def items : (type : SlotType) → type.Content → List Item
  | .tables, set => [.tables set]
  | .foreign _, _ => []

end SlotType

inductive Action
  | host (a : HostAction)
  | callHost (f : Function) (args : List Value)
  | wrap (x : Script)
  | plain (x : Script)
  | newTable (items : List Script)
  | callback (name : String) (code : Code)
  | newState (config : Config)
  | stateRef (s : Nat)
  | drop (s : Nat)
  | setGlobal (s : Nat) (name : String) (x : Script)
  | global (s : Nat) (name : String)
  | registrySet (s : Nat) (key : String) (type : SlotType) (value : type.Content)
  | registryGet (s : Nat) (key : String) (type : SlotType)
  | registryGetOrInsert (s : Nat) (key : String) (type : SlotType) (value : type.Content)
  | operators (s : Nat)
  | convert (s : Nat) (v : Value)
  | constructor (s : Nat) (t : Ty)
  | toHost (hint : Ty) (x : Script)
  | index (s : Nat) (target key : Script)
  | assign (s : Nat) (target key value : Script)
  | len (target : Script)
  | call (s : Nat) (target : Script) (args : List Script)
  | callMethod (s : Nat) (target : Script) (name : String) (args : List Script)

namespace Action

def state? : Action → Option Nat
  | .stateRef s | .drop s | .setGlobal s .. | .global s _ | .registrySet s .. | .registryGet s ..
  | .registryGetOrInsert s .. | .operators s | .convert s _ | .constructor s _ | .index s ..
  | .assign s .. | .call s .. | .callMethod s .. => some s
  | _ => none

def operands : Action → List Item
  | .host a => a.operands.map .value
  | .callHost f args => .value (.func f) :: args.map .value
  | .wrap x | .setGlobal _ _ x | .toHost _ x | .len x => [.script x]
  | .plain x => if x.isPlain then [] else [.script x]
  | .newTable items => items.map .script
  | .callback _ code => code.parts
  | .registrySet _ _ type value | .registryGetOrInsert _ _ type value => type.items value
  | .newState _ | .stateRef _ | .drop _ | .global .. | .registryGet .. | .operators _
  | .constructor .. => []
  | .convert _ v => [.value v]
  | .index _ target key => [.script target, .script key]
  | .assign _ target key value => [.script target, .script key, .script value]
  | .call _ target args | .callMethod _ target _ args => .script target :: args.map .script

def run (host : Host) : Action → BridgeM (List Item)
  | .host a => return (← a.run).map .value
  | .callHost f args => return (← f.call host args).map .value
  | .wrap x => return [.value (← Box.make (.script x))]
  | .plain x => return [.script x]
  | .newTable items => return [.script (.table (← Store.newTable (Table.sequence items)))]
  | .callback name code => return [.script (← Closure.make name code)]
  | .newState config => do
    let _ ← Store.newState config
    return []
  | .stateRef s => return [.script (.state s)]
  | .drop s => do
    State.drop s
    return []
  | .setGlobal s name x => do
    State.setGlobal s name x
    return []
  | .global s name => do return [.script (State.global (← get) s name)]
  | .registrySet s key type value => do
    if type.isShared (← get) value then return []
    State.registrySet s key type value
    return []
  | .registryGet s key type => do
    return (State.registryGet (← get) s key type).toList.flatMap type.items
  | .registryGetOrInsert s key type value => do
    if type.isShared (← get) value then return []
    return type.items (← State.registryGetOrInsert s key type value)
  | .operators s => return [.tables (← State.operators s)]
  | .convert s v => return [.script (← v.toScript s)]
  | .constructor s t => return [.script (← Handle.constructor s t)]
  | .toHost hint x => return [.value (← x.toHost hint)]
  | .index s target key => return [.script (← target.index s key)]
  | .assign s target key value => do
    target.setIndex s key value
    return []
  | .len target => return [.script (← target.len)]
  | .call s target args => return (← target.call host s args).map .script
  | .callMethod s target name args => return (← target.callMethod host s name args).map .script

end Action

/-- A host program with its scripts: the meaning of its functions, the storage, and what host code
and scripts hold. -/
structure Session where
  host : Host
  store : Store := {}
  held : List Item := []
  /-- For each number that was given out, the state that was at work. -/
  makers : List (Option Nat) := []

namespace Session

def define (S : Session) (n : Nat) (b : Body) : Session :=
  { S with host := fun k => if k = n then b else S.host k }

def Allows (S : Session) (a : Action) : Prop :=
  a.operands ⊆ S.held ∧ ∀ s ∈ a.state?, s < S.store.states.size

theorem allows_of_none {S : Session} {a : Action} (held : a.operands ⊆ S.held)
    (stateless : a.state? = none) : S.Allows a := ⟨held, by simp [stateless]⟩

theorem allows_of_some {S : Session} {a : Action} {s : Nat} (held : a.operands ⊆ S.held)
    (worker : a.state? = some s) (there : s < S.store.states.size) : S.Allows a :=
  ⟨held, by simpa [worker] using there⟩

def leave (S : Session) (worker : Option Nat) (st : Store) (out : List Item) : Session where
  host := S.host
  store := st
  held := S.held ++ out
  makers := S.makers ++ List.replicate (st.fresh - S.makers.length) worker

/-- The session after an action; one that stops keeps its effects and gives nothing out. -/
def perform (S : Session) (a : Action) : Session :=
  match a.run S.host S.store with
  | .ok out st => S.leave a.state? st out
  | .error _ st => S.leave a.state? st []

/-- Where a session gets to by a list of actions. Between them the host program may give its
functions bodies that use what it holds. -/
inductive Run : Session → List Action → Session → Prop
  | start (S : Session) : Run S [] S
  | define {S S' : Session} {as : List Action} {captured : List Value} {b : Body} (n : Nat) :
    Run S as S' → captured.map .value ⊆ S'.held → b.Checked captured → Run S as (S'.define n b)
  | act {S S' : Session} {as : List Action} {a : Action} :
    Run S as S' → S'.Allows a → Run S (as ++ [a]) (S'.perform a)

/-- Everything there is in a session: what is held, what storage and globals hold, and the parts
of these. -/
inductive Occurs (S : Session) : Item → Prop
  | held {i : Item} : i ∈ S.held → S.Occurs i
  | key {n : Nat} {es : List Entry} {e : Entry} :
    S.store.maps.get? n = some es → e ∈ es → S.Occurs (.value e.key)
  | entry {n : Nat} {es : List Entry} {e : Entry} :
    S.store.maps.get? n = some es → e ∈ es → S.Occurs (.value e.value)
  | slot {n : Nat} {items : Array Value} {v : Value} :
    S.store.backings.get? n = some items → v ∈ items → S.Occurs (.value v)
  | cell {n : Nat} {v : Value} : S.store.cells.get? n = some v → S.Occurs (.value v)
  | queued {n : Nat} {c : Channel Value} {v : Value} :
    S.store.channels.get? n = some c → v ∈ c.queue → S.Occurs (.value v)
  | tableKey {n : Nat} {es : List (Script × Script)} {e : Script × Script} :
    S.store.tables.get? n = some es → e ∈ es → S.Occurs (.script e.1)
  | tableValue {n : Nat} {es : List (Script × Script)} {e : Script × Script} :
    S.store.tables.get? n = some es → e ∈ es → S.Occurs (.script e.2)
  | global {n : Nat} {state : State} {name : String} {x : Script} :
    S.store.states.get? n = some state → (name, x) ∈ state.globals → S.Occurs (.script x)
  | part {i j : Item} : S.Occurs i → j ∈ i.parts → S.Occurs j

end Session

end HostBridge
