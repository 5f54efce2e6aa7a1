import HostBridge.Config.Basic
import HostBridge.Value.Key

/-! The storage that values share, and the computations that run on it. A computation that stops
keeps what it has written so far. -/

namespace HostBridge

structure Heap (α : Type) where
  items : Array α := #[]

namespace Heap

variable {α : Type}

def size (h : Heap α) : Nat := h.items.size

def get? (h : Heap α) (i : Nat) : Option α := h.items[i]?

def set (h : Heap α) (i : Nat) (a : α) : Heap α := ⟨h.items.setIfInBounds i a⟩

def push (h : Heap α) (a : α) : Heap α := ⟨h.items.push a⟩

@[simp] theorem size_push (h : Heap α) (a : α) : (h.push a).size = h.size + 1 := by
  simp [size, push]

@[simp] theorem size_set (h : Heap α) (i : Nat) (a : α) : (h.set i a).size = h.size := by
  simp [size, set]

theorem get?_push (h : Heap α) (a : α) (i : Nat) :
    (h.push a).get? i = if i = h.size then some a else h.get? i :=
  Array.getElem?_push

theorem get?_set (h : Heap α) (i j : Nat) (a : α) :
    (h.set i a).get? j = if i = j ∧ i < h.size then some a else h.get? j := by
  by_cases e : i = j <;> by_cases l : i < h.items.size <;>
    simp_all [size, set, get?]

theorem get?_set_self {h : Heap α} {i : Nat} {b : α} (held : h.get? i = some b) (a : α) :
    (h.set i a).get? i = some a := by
  obtain ⟨inside, _⟩ := Array.getElem?_eq_some_iff.mp held
  rw [get?_set, if_pos ⟨rfl, inside⟩]

theorem get?_set_ne {i j : Nat} (ne : j ≠ i) (h : Heap α) (a : α) :
    (h.set i a).get? j = h.get? j := by
  rw [get?_set, if_neg fun both => ne both.1.symm]

end Heap

structure Entry where
  index : Key
  key : Value
  value : Value

/-- What a registry slot holds: a set of operator tables, or an object of a type that the host
program chose. -/
inductive Slot
  | operators (set : Nat)
  | foreign (id : Nat) (type : String) (value : UInt64)

inductive SlotType
  | tables
  | foreign (name : String)

instance : Coe String SlotType := ⟨.foreign⟩

abbrev SlotType.Content : SlotType → Type
  | .tables => Nat
  | .foreign _ => UInt64

def Slot.as? : (type : SlotType) → Slot → Option type.Content
  | .tables, .operators set => some set
  | .foreign name, .foreign _ type value => if type = name then some value else none
  | _, _ => none

structure State where
  config : Config := {}
  registry : List (String × Slot) := []
  globals : List (String × Script) := []
  alive : Bool := true

instance : Inhabited State := ⟨{}⟩

structure Store where
  maps : Heap (List Entry) := {}
  backings : Heap (Array Value) := {}
  cells : Heap Value := {}
  channels : Heap (Channel Value) := {}
  tables : Heap (List (Script × Script)) := {}
  cursors : Heap Nat := {}
  states : Heap State := {}
  fresh : Nat := 0

instance : Inhabited Store := ⟨{}⟩

abbrev HostM := EStateM (Stop HostError) Store

section

variable {ε σ α β : Type} {x : EStateM ε σ α} {f : α → EStateM ε σ β} {st st' : σ}

theorem bind_ok {a : α} (h : x st = .ok a st') : (x >>= f) st = f a st' := by
  simp only [bind, EStateM.bind, h]

theorem bind_error {e : ε} (h : x st = .error e st') : (x >>= f) st = .error e st' := by
  simp only [bind, EStateM.bind, h]

theorem get_bind {f : σ → EStateM ε σ β} : ((get : EStateM ε σ σ) >>= f) st = f st st := rfl

theorem ok_of_bind {b : β} (h : (x >>= f) st = .ok b st') :
    ∃ a st₁, x st = .ok a st₁ ∧ f a st₁ = .ok b st' := by
  cases eq : x st with
  | ok a st₁ =>
    rw [bind_ok eq] at h
    exact ⟨a, st₁, rfl, h⟩
  | error e st₁ =>
    rw [bind_error eq] at h
    cases h

end

instance {ε : Type} : MonadLift (StateM Store) (EStateM ε Store) where
  monadLift x := modifyGet x.run

instance {ε δ : Type} : MonadLift (Except ε) (EStateM (Stop ε) δ) where
  monadLift
    | .ok a => pure a
    | .error e => throw (.error e)

namespace HostM

def fail {α : Type} (e : HostError) : HostM α := throw (.error e)

def check (t : Ty) (v : Value) : HostM Unit :=
  if t.accepts v then pure () else fail (.typeMismatch t.text v.typeText)

end HostM

namespace Store

def freshId : StateM Store Nat := modifyGet fun st => (st.fresh, { st with fresh := st.fresh + 1 })

def newMap (entries : List Entry) : StateM Store Nat :=
  modifyGet fun st => (st.maps.size, { st with maps := st.maps.push entries })

def newBacking (items : Array Value) : StateM Store Nat :=
  modifyGet fun st => (st.backings.size, { st with backings := st.backings.push items })

def newCell (v : Value) : StateM Store Nat :=
  modifyGet fun st => (st.cells.size, { st with cells := st.cells.push v })

def newChannel (c : Channel Value) : StateM Store Nat :=
  modifyGet fun st => (st.channels.size, { st with channels := st.channels.push c })

def newTable (entries : List (Script × Script)) : StateM Store Nat :=
  modifyGet fun st => (st.tables.size, { st with tables := st.tables.push entries })

def newCursor : StateM Store Nat :=
  modifyGet fun st => (st.cursors.size, { st with cursors := st.cursors.push 0 })

def newState (config : Config) : StateM Store Nat :=
  modifyGet fun st => (st.states.size, { st with states := st.states.push { config } })

def state (st : Store) (id : Nat) : State := (st.states.get? id).getD {}

end Store

def Box.make (content : Content) : StateM Store Value := do
  return .boxed ⟨← Store.freshId, content⟩

end HostBridge
