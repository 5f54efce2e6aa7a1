namespace HostBridge

inductive Operator | index | newIndex | len | call | toText | eq
  deriving DecidableEq

def Operator.name : Operator → String
  | .index => "__index"
  | .newIndex => "__newindex"
  | .len => "__len"
  | .call => "__call"
  | .toText => "__tostring"
  | .eq => "__eq"

inductive HandleKind | chan | map | ptr | slice | struct | type
  deriving DecidableEq

namespace HandleKind

def all : List HandleKind := [.chan, .map, .ptr, .slice, .struct, .type]

def name : HandleKind → String
  | .chan => "chan"
  | .map => "map"
  | .ptr => "ptr"
  | .slice => "slice"
  | .struct => "struct"
  | .type => "type"

def operators : HandleKind → List Operator
  | .chan => [.index, .toText, .eq]
  | .map => [.index, .newIndex, .len, .call, .toText, .eq]
  | .ptr => [.index, .newIndex, .toText, .eq]
  | .slice => [.index, .newIndex, .len, .toText, .eq]
  | .struct => [.index, .newIndex, .toText]
  | .type => [.call, .toText]

end HandleKind

/-- One of the six tables of a set; each state builds a set of its own. -/
structure OperatorTable where
  set : Nat
  kind : HandleKind
  deriving DecidableEq

def OperatorTable.supports (t : OperatorTable) (op : Operator) : Bool := op ∈ t.kind.operators

end HostBridge
