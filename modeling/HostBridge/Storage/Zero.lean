import HostBridge.Store

/-! Zero values. A map or a slice is made empty and new each time; functions, channels, interfaces
and addresses are the untyped nil. -/

namespace HostBridge

mutual

def Ty.zero : Ty → StateM Store Value
  | .bool => return .bool false
  | .int w => return .int w 0
  | .uint w => return .uint w 0
  | .float w => return .float w .zero
  | .complex w => return .complex w .zero .zero
  | .string => return .string ""
  | .func _ | .chan .. | .any | .address => return .nil
  | .map k e => return .map ⟨k, e, ← Store.newMap []⟩
  | .slice e => return .slice ⟨e, ← Store.newBacking #[], 0, 0, 0⟩
  | .struct t => t.zero
  | .ptr e => return .ptr ⟨e, none⟩

def StructTy.zero : StructTy → StateM Store Value
  | ⟨name, fields, methods⟩ => return .struct ⟨name, fields, methods⟩ (← Field.zeros fields)

def Field.zeros : List Field → StateM Store (List Value)
  | [] => return []
  | ⟨_, t, _⟩ :: fs => return (← t.zero) :: (← Field.zeros fs)

end

def Ty.zeros (t : Ty) : Nat → StateM Store (List Value)
  | 0 => return []
  | n + 1 => return (← t.zero) :: (← t.zeros n)

end HostBridge
