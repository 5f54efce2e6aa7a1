import HostBridge.Storage.Zero

namespace HostBridge

def sizeLimit : Nat := 0x10000000000000000

def growth (cap : Nat) : Nat := (cap + (cap + 768) % sizeLimit / 4) % sizeLimit

def growStep (needed : Nat) : Nat → Nat → Option Nat
  | 0, _ => none
  | fuel + 1, cap => if needed ≤ cap then some cap else growStep needed fuel (growth cap)

/-- The capacity of a slice that outgrew `old` and must hold `needed` items: small ones double,
large ones grow by about a quarter. Where nothing wraps around, every step gains a place. -/
def growCapacity (old needed : Nat) : Option Nat :=
  let doubled := min (2 * old) (sizeLimit - 1)
  if doubled < needed then some needed
  else if old < 256 then some doubled
  else growStep needed (needed + 1) old

namespace Slice

def make (elem : Ty) : StateM Store Slice := return ⟨elem, ← Store.newBacking #[], 0, 0, 0⟩

def withCapacity (elem : Ty) (len cap : Nat) : StateM Store Slice := do
  let cap := max cap len
  let items ← elem.zeros cap
  return ⟨elem, ← Store.newBacking items.toArray, 0, len, cap⟩

def checkAll (elem : Ty) : List Value → HostM Unit
  | [] => return
  | v :: vs => do
    HostM.check elem v
    checkAll elem vs

def ofList (elem : Ty) (items : List Value) : HostM Slice := do
  checkAll elem items
  return ⟨elem, ← Store.newBacking items.toArray, 0, items.length, items.length⟩

def items (st : Store) (s : Slice) : Array Value := (st.backings.get? s.backing).getD #[]

def toList (st : Store) (s : Slice) : List Value :=
  ((s.items st).extract s.offset (s.offset + s.len)).toList

def get? (st : Store) (s : Slice) (i : Nat) : Option Value :=
  if i < s.len then (s.items st)[s.offset + i]? else none

/-- Write consecutive slots of the backing; a slot outside it is a fault of the host program. -/
def write (s : Slice) (slot : Nat) (vs : List Value) : HostM Unit := do
  let items := s.items (← get)
  if slot + vs.length ≤ items.size then
    let written := items.extract 0 slot ++ vs.toArray ++ items.extract (slot + vs.length) items.size
    modify fun st => { st with backings := st.backings.set s.backing written }
  else throw (.panic (some "index out of bounds"))

def set (s : Slice) (i : Nat) (v : Value) : HostM Unit := do
  unless i < s.len do HostM.fail (.indexOutOfRange i s.len)
  HostM.check s.elem v
  s.write (s.offset + i) [v]

/-- The slice with `vs` after its items: in place when there is room, else in a backing of its
own. -/
def append (s : Slice) (vs : List Value) : HostM Slice := do
  checkAll s.elem vs
  let needed := s.len + vs.length
  if needed ≤ s.cap then
    s.write (s.offset + s.len) vs
    return { s with len := needed }
  else
    match growCapacity s.cap needed with
    | none => throw (.panic (some "capacity overflow"))
    | some cap =>
      let spare ← s.elem.zeros (cap - needed)
      let moved := s.toList (← get) ++ vs ++ spare
      return ⟨s.elem, ← Store.newBacking moved.toArray, 0, needed, cap⟩

/-- The window from `low` to `high`, which may reach beyond the items up to the capacity. -/
def slice (s : Slice) (low high : Nat) : Except HostError Slice :=
  if low ≤ high ∧ high ≤ s.cap then
    .ok { s with offset := s.offset + low, len := high - low, cap := s.cap - low }
  else .error (.indexOutOfRange high s.cap)

def sharesBacking (s t : Slice) : Bool := s.backing == t.backing

end Slice

end HostBridge
