import HostBridge.Bridge.Index

namespace HostBridge

def Map.assign (m : Map) (key value : Script) : BridgeM Unit := do
  let k ← key.toHost m.key
  let v ← value.toHost m.elem
  m.insert k v

def Slice.assign (w : Slice) (key value : Script) : BridgeM Unit := do
  let i ← (key.position w.len : Except BridgeError _)
  let v ← value.toHost w.elem
  w.set i v

def Script.fieldName (key : Script) (type : String) : Except BridgeError String :=
  match key with
  | .string name => .ok name
  | key => .error (.unknownField type ("<" ++ key.typeText ++ ">"))

/-- A struct that is not behind a pointer is a copy, so a field of it cannot be assigned. -/
def StructTy.assign (t : StructTy) (key : Script) : BridgeM Unit := do
  let name ← (key.fieldName t.name : Except BridgeError _)
  match t.exported? name with
  | some _ => BridgeM.fail (.notAddressable t.name name)
  | none => BridgeM.fail (.unknownField t.name name)

def Pointer.assign (p : Pointer) (key value : Script) : BridgeM Unit := do
  if p.isNil then BridgeM.fail .nilDereference
  match p.elem with
  | .struct declared =>
    let name ← (key.fieldName declared.name : Except BridgeError _)
    match ← (p.load (← get) : Except HostError Value) with
    | .struct t vs =>
      match t.exported? name with
      | none => BridgeM.fail (.unknownField t.name name)
      | some (i, f) =>
        let v ← value.toHost f.type
        p.write (.struct t (← (t.setAt vs i v : Except HostError _)))
    | _ => BridgeM.fail p.badPointee
  | _ => BridgeM.fail p.badPointee

namespace Script

/-- Where an assignment goes: a pointer that is declared to point to a map or a slice gives way to
a handle of what it points to. At most `fuel` pointers are followed. -/
def destination (s : Nat) : Nat → Script → BridgeM Script
  | 0, _ => throw .blocked
  | fuel + 1, .handle ⟨i, .value (.ptr p), some ⟨set, .ptr⟩⟩ => do
    match p.elem with
    | .map .. | .slice _ =>
      if p.isNil then BridgeM.fail .nilDereference
      let v ← (p.load (← get) : Except HostError Value)
      let inner ← v.toScript s
      destination s fuel inner
    | _ => return .handle ⟨i, .value (.ptr p), some ⟨set, .ptr⟩⟩
  | _ + 1, target => return target

def assign (target key value : Script) : BridgeM Unit :=
  match target with
  | .table i => Table.set i key value
  | .handle h =>
    match h.kind?, h.payload with
    | some .map, .value (.map m) => m.assign key value
    | some .slice, .value (.slice w) => w.assign key value
    | some .struct, .value (.struct t _) => t.assign key
    | some .ptr, .value (.ptr p) => p.assign key value
    | _, _ => h.refuse .newIndex
  | v => v.refuse .newIndex

/-- Assign under a key of a script value. No cell occurs twice on the way, so following a pointer
for each cell is enough. -/
def setIndex (s : Nat) (target key value : Script) : BridgeM Unit := do
  let target ← destination s ((← get).cells.size + 2) target
  assign target key value

end Script

end HostBridge
