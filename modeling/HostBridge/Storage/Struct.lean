import HostBridge.Storage.Zero

namespace HostBridge

def Field.checkAll : List Field → List Value → Except HostError Unit
  | f :: fs, v :: vs =>
    if f.type.accepts v then Field.checkAll fs vs
    else .error (.typeMismatch f.type.text v.typeText)
  | _, _ => .ok ()

namespace StructTy

def make (t : StructTy) (vs : List Value) : Except HostError Value := do
  unless vs.length = t.fields.length do throw (.arity t.fields.length vs.length)
  Field.checkAll t.fields vs
  return .struct t vs

def get? (t : StructTy) (vs : List Value) (name : String) : Option Value :=
  (t.field? name).bind fun (i, _) => vs[i]?

def setAt (t : StructTy) (vs : List Value) (i : Nat) (v : Value) :
    Except HostError (List Value) :=
  match t.fields[i]? with
  | none => .error (.indexOutOfRange i vs.length)
  | some f =>
    if f.type.accepts v then .ok (vs.set i v) else .error (.typeMismatch f.type.text v.typeText)

def set (t : StructTy) (vs : List Value) (name : String) (v : Value) :
    Except HostError (List Value) :=
  match t.field? name with
  | none => .error (.call (t.name ++ " has no field " ++ name))
  | some (i, _) => t.setAt vs i v

end StructTy

namespace Pointer

/-- A pointer to a new cell, which holds `v` whatever its type. -/
def withType (elem : Ty) (v : Value) : StateM Store Pointer :=
  return ⟨elem, some (← Store.newCell v)⟩

def make (v : Value) : StateM Store Pointer := withType v.type v

def load (st : Store) (p : Pointer) : Except HostError Value :=
  match p.cell with
  | some i => .ok ((st.cells.get? i).getD .nil)
  | none => .error .nilPointer

def write (p : Pointer) (v : Value) : HostM Unit :=
  match p.cell with
  | some i => modify fun st => { st with cells := st.cells.set i v }
  | none => HostM.fail .nilPointer

def store (p : Pointer) (v : Value) : HostM Unit := do
  HostM.check p.elem v
  p.write v

end Pointer

end HostBridge
