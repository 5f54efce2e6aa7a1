import HostBridge.Bridge.Error

namespace HostBridge

namespace Assoc

variable {α : Type}

def find (key : String) (l : List (String × α)) : Option α := l.lookup key

def put (key : String) (a : α) : List (String × α) → List (String × α)
  | [] => [(key, a)]
  | (k, b) :: rest => if k = key then (k, a) :: rest else (k, b) :: put key a rest

theorem find_put (key other : String) (a : α) (l : List (String × α)) :
    find other (put key a l) = if other = key then some a else find other l := by
  induction l with
  | nil => by_cases h : other = key <;> grind [put, find]
  | cons x rest ih =>
    obtain ⟨k, b⟩ := x
    simp only [find] at ih ⊢
    by_cases hk : k = key <;> by_cases h : other = k <;> grind [put]

end Assoc

namespace State

def slot? (st : Store) (s : Nat) (key : String) : Option Slot :=
  Assoc.find key (st.state s).registry

def modify (s : Nat) (f : State → State) : StateM Store Unit :=
  modifyGet fun st => ((), { st with states := st.states.set s (f (st.state s)) })

def setSlot (s : Nat) (key : String) (slot : Slot) : StateM Store Unit :=
  modify s fun state => { state with registry := Assoc.put key slot state.registry }

def registrySet (s : Nat) (key : String) : (type : SlotType) → type.Content → StateM Store Unit
  | .tables, set => setSlot s key (.operators set)
  | .foreign name, value => do setSlot s key (.foreign (← Store.freshId) name value)

def registryGet (st : Store) (s : Nat) (key : String) (type : SlotType) : Option type.Content :=
  (slot? st s key).bind (·.as? type)

def registryGetOrInsert (s : Nat) (key : String) (type : SlotType) (value : type.Content) :
    BridgeM type.Content := do
  match slot? (← get) s key with
  | none =>
    registrySet s key type value
    return value
  | some slot =>
    match slot.as? type with
    | some old => return old
    | none => BridgeM.fail (.registryCollision key)

/-- The set of operator tables of a state, built on first use. -/
def operators (s : Nat) : BridgeM Nat := do
  let st ← get
  let key := (st.state s).config.registryKey
  match slot? st s key with
  | some (.operators set) => return set
  | some (.foreign ..) => BridgeM.fail (.registryCollision key)
  | none =>
    let set ← Store.freshId
    setSlot s key (.operators set)
    return set

def tables (set : Nat) : List OperatorTable := HandleKind.all.map (⟨set, ·⟩)

def setGlobal (s : Nat) (name : String) (v : Script) : StateM Store Unit :=
  modify s fun state => { state with globals := Assoc.put name v state.globals }

def global (st : Store) (s : Nat) (name : String) : Script :=
  (Assoc.find name (st.state s).globals).getD .nil

def drop (s : Nat) : StateM Store Unit := modify s ({ · with alive := false })

end State

end HostBridge
