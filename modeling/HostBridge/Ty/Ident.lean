import HostBridge.Ty.Basic

/-! Identity of types: two types are the same when they are built alike from the same parts, where
a struct type counts by its name alone. -/

namespace HostBridge

mutual

inductive Ident
  | bool
  | int (width : IntWidth)
  | uint (width : IntWidth)
  | float (width : FloatWidth)
  | complex (width : FloatWidth)
  | string
  | func (params results : Idents) (variadic : Bool)
  | chan (direction : Direction) (elem : Ident)
  | map (key elem : Ident)
  | slice (elem : Ident)
  | struct (name : String)
  | ptr (elem : Ident)
  | any
  | address

inductive Idents
  | nil
  | cons (head : Ident) (tail : Idents)

end

deriving instance DecidableEq for Ident, Idents

mutual

def Ty.ident : Ty → Ident
  | .bool => .bool
  | .int w => .int w
  | .uint w => .uint w
  | .float w => .float w
  | .complex w => .complex w
  | .string => .string
  | .func s => s.ident
  | .chan d e => .chan d e.ident
  | .map k e => .map k.ident e.ident
  | .slice e => .slice e.ident
  | .struct s => .struct s.name
  | .ptr e => .ptr e.ident
  | .any => .any
  | .address => .address

def Signature.ident : Signature → Ident
  | ⟨params, results, variadic⟩ => .func (Ty.idents params) (Ty.idents results) variadic

def Ty.idents : List Ty → Idents
  | [] => .nil
  | t :: ts => .cons t.ident (Ty.idents ts)

end

def Ty.same (t u : Ty) : Bool := t.ident = u.ident

@[simp] theorem Ty.same_iff {t u : Ty} : t.same u = true ↔ t.ident = u.ident := by simp [Ty.same]

end HostBridge
