import HostBridge.Number.Double
import HostBridge.Script.Operator
import HostBridge.Ty.Ident
import HostBridge.Ty.Text

/-! Values of the host side and of the script language. Storage that values share (map entries,
slice backings, pointer cells, channels, tables) is in a store, and a value names it by number. -/

namespace HostBridge

structure Chan where
  elem : Ty
  direction : Direction
  id : Nat

structure Map where
  key : Ty
  elem : Ty
  id : Nat

/-- A window of `len` items, at `offset` in its backing, that may grow up to `cap`. -/
structure Slice where
  elem : Ty
  backing : Nat
  offset : Nat
  len : Nat
  cap : Nat

structure Pointer where
  elem : Ty
  cell : Option Nat

mutual

inductive Value
  | nil
  | bool (b : Bool)
  | int (width : IntWidth) (i : Int64)
  | uint (width : IntWidth) (u : UInt64)
  | float (width : FloatWidth) (x : Double)
  | complex (width : FloatWidth) (re im : Double)
  | string (s : String)
  | func (f : Function)
  | chan (c : Chan)
  | map (m : Map)
  | slice (s : Slice)
  | struct (type : StructTy) (fields : List Value)
  | ptr (p : Pointer)
  | address (a : UInt64)
  | boxed (b : Box)

structure Box where
  id : Nat
  content : Content

inductive Content
  | script (v : Script)
  | type (t : Ty)
  | foreign (n : Nat)

inductive Script
  | nil
  | bool (b : Bool)
  | number (x : Double)
  | string (s : String)
  | function (f : Closure)
  | table (id : Nat)
  | handle (h : Handle)
  | state (id : Nat)

structure Handle where
  id : Nat
  payload : Payload
  table : Option OperatorTable

inductive Payload
  | value (v : Value)
  | type (t : Ty)

structure Closure where
  id : Nat
  name : String
  code : Code

inductive Code
  | host (f : Function)
  | method (f : Function) (receiver : Value)
  | receive (c : Chan)
  | send (c : Chan)
  | close (c : Chan)
  | append (s : Slice)
  | capacity (s : Slice)
  | next (m : Map) (keys : List Value) (cursor : Nat)
  | echo
  | count
  | apply

end

instance : Inhabited Value := ⟨.nil⟩

instance : Inhabited Script := ⟨.nil⟩

def Chan.type (c : Chan) : Ty := .chan c.direction c.elem

def Chan.restrict (c : Chan) (direction : Direction) : Chan :=
  { c with direction := if c.direction = .both then direction else c.direction }

def Map.type (m : Map) : Ty := .map m.key m.elem

def Slice.type (s : Slice) : Ty := .slice s.elem

def Pointer.type (p : Pointer) : Ty := .ptr p.elem

def Pointer.isNil (p : Pointer) : Bool := p.cell.isNone

namespace Value

/-- The dynamic type; that of nil and of boxed values is the interface. -/
def type : Value → Ty
  | .nil => .any
  | .bool _ => .bool
  | .int w _ => .int w
  | .uint w _ => .uint w
  | .float w _ => .float w
  | .complex w _ _ => .complex w
  | .string _ => .string
  | .func f => .func f.sig
  | .chan c => c.type
  | .map m => m.type
  | .slice s => s.type
  | .struct t _ => .struct t
  | .ptr p => p.type
  | .address _ => .address
  | .boxed _ => .any

def isNil : Value → Bool
  | .nil => true
  | _ => false

def kind : Value → Kind
  | .nil => .invalid
  | v => v.type.kind

def typeText : Value → String
  | .nil => "nil"
  | v => v.type.text

mutual

/-- Host equality: numbers at one width, references by the storage they name, structs of one type
field by field. -/
def same : Value → Value → Bool
  | .nil, .nil => true
  | .bool a, .bool b => a == b
  | .int w a, .int w' b => w == w' && a == b
  | .uint w a, .uint w' b => w == w' && a == b
  | .float w x, .float w' y => w == w' && x.same y
  | .complex w x x', .complex w' y y' => w == w' && x.same y && x'.same y'
  | .string s, .string t => s == t
  | .func f, .func g => f.body == g.body
  | .chan c, .chan d => c.id == d.id
  | .map m, .map n => m.id == n.id
  | .slice s, .slice t => s.backing == t.backing && s.offset == t.offset && s.len == t.len
  | .struct t vs, .struct u ws => t.name == u.name && sameAll vs ws
  | .ptr p, .ptr q => p.cell == q.cell
  | .address a, .address b => a == b
  | .boxed a, .boxed b => a.id == b.id
  | _, _ => false

def sameAll : List Value → List Value → Bool
  | [], [] => true
  | v :: vs, w :: ws => v.same w && sameAll vs ws
  | _, _ => false

end

end Value

/-- Whether a value may be stored where a value of the type is declared. A channel for both
directions may stand for one of a single direction, and nil for every type of references. -/
def Ty.accepts : Ty → Value → Bool
  | .any, _ => true
  | .func _, .nil | .chan .., .nil | .map .., .nil | .slice _, .nil | .ptr _, .nil
  | .address, .nil => true
  | .chan d e, .chan c => e.same c.elem && (d == c.direction || c.direction == .both)
  | t, v => v.type.same t

namespace Script

def typeText : Script → String
  | .nil => "nil"
  | .bool _ => "boolean"
  | .number _ => "number"
  | .string _ => "string"
  | .function _ => "function"
  | .table _ => "table"
  | .handle _ => "userdata"
  | .state _ => "thread"

def isNil : Script → Bool
  | .nil => true
  | _ => false

def rawSame : Script → Script → Bool
  | .nil, .nil => true
  | .bool a, .bool b => a == b
  | .number x, .number y => x.same y
  | .string s, .string t => s == t
  | .function f, .function g => f.id == g.id
  | .table a, .table b => a == b
  | .handle h, .handle k => h.id == k.id
  | .state a, .state b => a == b
  | _, _ => false

end Script

namespace Handle

def typeText (h : Handle) : String :=
  match h.payload with
  | .value v => v.typeText
  | .type t => "type " ++ t.text

def kind? (h : Handle) : Option HandleKind := h.table.map (·.kind)

def supports (h : Handle) (op : Operator) : Bool :=
  match h.table with
  | some t => t.supports op
  | none => false

end Handle

end HostBridge
