import HostBridge.Ty.Basic

namespace HostBridge

def IntWidth.text : IntWidth → String
  | .word => ""
  | .w8 => "8"
  | .w16 => "16"
  | .w32 => "32"
  | .w64 => "64"

def Direction.text : Direction → String
  | .both => "chan "
  | .send => "chan<- "
  | .receive => "<-chan "

mutual

/-- The notation of a type; a slice that collects `trailing` arguments is written with dots. -/
def Ty.notated : Ty → Bool → String
  | .bool, _ => "bool"
  | .int w, _ => "int" ++ w.text
  | .uint w, _ => "uint" ++ w.text
  | .float .w32, _ => "float32"
  | .float .w64, _ => "float64"
  | .complex .w32, _ => "complex64"
  | .complex .w64, _ => "complex128"
  | .string, _ => "string"
  | .func s, _ => s.text
  | .chan d e, _ => d.text ++ e.notated false
  | .map k e, _ => "map[" ++ k.notated false ++ "]" ++ e.notated false
  | .slice e, trailing => (if trailing then "..." else "[]") ++ e.notated false
  | .struct s, _ => s.name
  | .ptr e, _ => "*" ++ e.notated false
  | .any, _ => "interface \x7b\x7d"
  | .address, _ => "unsafe.Pointer"

def Signature.text : Signature → String
  | ⟨params, results, variadic⟩ =>
    "func(" ++ ", ".intercalate (Ty.texts variadic params) ++ ")" ++
      match Ty.texts false results with
      | [] => ""
      | [r] => " " ++ r
      | rs => " (" ++ ", ".intercalate rs ++ ")"

def Ty.texts (trailing : Bool) : List Ty → List String
  | [] => []
  | t :: ts => t.notated (trailing && ts.isEmpty) :: Ty.texts trailing ts

end

def Ty.text (t : Ty) : String := t.notated false

end HostBridge
