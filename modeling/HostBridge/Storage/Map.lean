import HostBridge.Store

namespace HostBridge

namespace Entry

def put (e : Entry) : List Entry → List Entry
  | [] => [e]
  | x :: xs => if x.index = e.index then e :: xs else x :: put e xs

def lookup (k : Key) (es : List Entry) : Option Value :=
  (es.find? (·.index = k)).map (·.value)

def erase (k : Key) (es : List Entry) : List Entry := es.eraseP (·.index = k)

theorem lookup_put (e : Entry) (es : List Entry) (k : Key) :
    lookup k (put e es) = if e.index = k then some e.value else lookup k es := by
  induction es with
  | nil => by_cases h : e.index = k <;> simp [put, lookup, h]
  | cons x xs ih =>
    simp only [lookup] at ih ⊢
    by_cases hx : x.index = e.index <;> by_cases h : x.index = k <;> grind [put]

end Entry

namespace Map

def make (key elem : Ty) : StateM Store Map := return ⟨key, elem, ← Store.newMap []⟩

def entries (st : Store) (m : Map) : List Entry := (st.maps.get? m.id).getD []

def size (st : Store) (m : Map) : Nat := (m.entries st).length

def keys (st : Store) (m : Map) : List Value := (m.entries st).map (·.key)

def write (m : Map) (es : List Entry) : HostM Unit :=
  modify fun st => { st with maps := st.maps.set m.id es }

def keyOf (m : Map) (v : Value) : Except HostError Key :=
  if m.key.accepts v then Key.ofValue v else .error (.typeMismatch m.key.text v.typeText)

def find (st : Store) (m : Map) (key : Value) : Except HostError (Option Value) :=
  (m.keyOf key).map fun k => Entry.lookup k (m.entries st)

def insert (m : Map) (key value : Value) : HostM Unit := do
  let k ← m.keyOf key
  HostM.check m.elem value
  m.write (Entry.put ⟨k, key, value⟩ (m.entries (← get)))

def remove (m : Map) (key : Value) : HostM (Option Value) := do
  let k ← m.keyOf key
  let es := m.entries (← get)
  m.write (Entry.erase k es)
  return Entry.lookup k es

def insertAll (m : Map) : List (Value × Value) → HostM Unit
  | [] => return
  | (key, value) :: rest => do
    m.insert key value
    m.insertAll rest

def ofPairs (key elem : Ty) (pairs : List (Value × Value)) : HostM Map := do
  let m ← make key elem
  m.insertAll pairs
  return m

end Map

end HostBridge
