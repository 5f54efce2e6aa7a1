namespace HostBridge

inductive IntWidth | word | w8 | w16 | w32 | w64
  deriving DecidableEq

inductive FloatWidth | w32 | w64
  deriving DecidableEq

inductive Direction | both | send | receive
  deriving DecidableEq

def Direction.canSend : Direction → Bool
  | .receive => false
  | _ => true

def Direction.canReceive : Direction → Bool
  | .send => false
  | _ => true

inductive Receiver | value | pointer
  deriving DecidableEq

mutual

inductive Ty
  | bool
  | int (width : IntWidth)
  | uint (width : IntWidth)
  | float (width : FloatWidth)
  | complex (width : FloatWidth)
  | string
  | func (sig : Signature)
  | chan (direction : Direction) (elem : Ty)
  | map (key elem : Ty)
  | slice (elem : Ty)
  | struct (type : StructTy)
  | ptr (elem : Ty)
  | any
  | address

structure Signature where
  params : List Ty
  results : List Ty
  variadic : Bool

structure StructTy where
  name : String
  fields : List Field
  methods : List Method

structure Field where
  name : String
  type : Ty
  exported : Bool

structure Method where
  name : String
  receiver : Receiver
  func : Function

structure Function where
  sig : Signature
  body : Nat

end

instance : Inhabited Ty := ⟨.any⟩

/-- Coarse classes of types and values; `invalid` is the class of the untyped nil. -/
inductive Kind
  | invalid | bool | int | uint | float | complex | string | func | chan | map | slice | struct
  | ptr | interface | address
  deriving DecidableEq

def Kind.text : Kind → String
  | .invalid => "invalid"
  | .bool => "bool"
  | .int => "int"
  | .uint => "uint"
  | .float => "float"
  | .complex => "complex"
  | .string => "string"
  | .func => "func"
  | .chan => "chan"
  | .map => "map"
  | .slice => "slice"
  | .struct => "struct"
  | .ptr => "ptr"
  | .interface => "interface"
  | .address => "unsafe.Pointer"

namespace IntWidth

def count : IntWidth → Nat
  | .w8 => 0x100
  | .w16 => 0x10000
  | .w32 => 0x100000000
  | .w64 | .word => 0x10000000000000000

def Signed (w : IntWidth) (n : Int) : Prop := -(w.count / 2 : Int) ≤ n ∧ n < w.count / 2

def Unsigned (w : IntWidth) (n : Int) : Prop := 0 ≤ n ∧ n < w.count

instance (w : IntWidth) (n : Int) : Decidable (w.Signed n) := inferInstanceAs (Decidable (_ ∧ _))

instance (w : IntWidth) (n : Int) : Decidable (w.Unsigned n) :=
  inferInstanceAs (Decidable (_ ∧ _))

def wrapSigned (w : IntWidth) (n : Int) : Int := n.bmod w.count

def wrapUnsigned (w : IntWidth) (n : Int) : Int := n % w.count

theorem signed_wrapSigned (w : IntWidth) (n : Int) : w.Signed (w.wrapSigned n) := by
  have positive : 0 < w.count := by cases w <;> decide
  have low := Int.le_bmod (x := n) positive
  have high := Int.bmod_lt (x := n) positive
  cases w <;> simp only [Signed, wrapSigned, count] at * <;> omega

theorem unsigned_wrapUnsigned (w : IntWidth) (n : Int) : w.Unsigned (w.wrapUnsigned n) := by
  cases w <;> simp only [Unsigned, wrapUnsigned, count] <;> omega

end IntWidth

namespace Ty

def kind : Ty → Kind
  | .bool => .bool
  | .int _ => .int
  | .uint _ => .uint
  | .float _ => .float
  | .complex _ => .complex
  | .string => .string
  | .func _ => .func
  | .chan .. => .chan
  | .map .. => .map
  | .slice _ => .slice
  | .struct _ => .struct
  | .ptr _ => .ptr
  | .any => .interface
  | .address => .address

def isNumeric : Ty → Bool
  | .int _ | .uint _ | .float _ => true
  | _ => false

end Ty

namespace Signature

def withRest (params : List Ty) (rest : Ty) (results : List Ty) : Signature :=
  ⟨params ++ [.slice rest], results, true⟩

def required (s : Signature) : Nat :=
  if s.variadic then s.params.length - 1 else s.params.length

def rest (s : Signature) : Ty :=
  match s.params.getLast? with
  | some (.slice elem) => elem
  | _ => .any

end Signature

namespace StructTy

def field? (t : StructTy) (name : String) : Option (Nat × Field) :=
  (t.fields.findIdx? (·.name == name)).bind fun i => t.fields[i]?.map (i, ·)

def exported? (t : StructTy) (name : String) : Option (Nat × Field) :=
  (t.field? name).filter (·.2.exported)

def method? (t : StructTy) (name : String) : Option Method :=
  t.methods.find? (·.name == name)

end StructTy

end HostBridge
