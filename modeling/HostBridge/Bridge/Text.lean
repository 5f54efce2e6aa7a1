import HostBridge.Bridge.Convert
import HostBridge.Value.Text

namespace HostBridge

def Handle.heldText (st : Store) (h : Handle) : String :=
  match h.payload with
  | .value v =>
    "userdata: luar: " ++ v.typeText ++ " " ++ v.text st ++
      " (" ++ addressText (v.address?.getD h.address) ++ ")"
  | .type _ => "userdata: luar: " ++ h.typeText ++ " (" ++ addressText h.address ++ ")"

def Handle.text (st : Store) (h : Handle) : String :=
  match h.kind?, h.payload with
  | none, _ => "userdata: " ++ addressText h.address
  | some .type, .type t => "userdata: luar: type " ++ t.text
  | _, _ => h.heldText st

namespace Script

def text (st : Store) : Script → String
  | .nil => "nil"
  | .bool b => boolText b
  | .number n => n.scriptText
  | .string s => s
  | .function f => "function: " ++ addressText f.address
  | .table i => "table: " ++ addressText (Object.table i).address
  | .state i => "thread: " ++ addressText (Object.state i).address
  | .handle h => h.text st

/-- Equality of the script language: handles that share a table are equal when what they hold is. -/
def same (a b : Script) : Bool :=
  a.rawSame b ||
    match a, b with
    | .handle ⟨_, .value v, some t⟩, .handle ⟨_, .value w, some u⟩ =>
      t == u && t.supports .eq && v.same w
    | _, _ => false

end Script

end HostBridge
