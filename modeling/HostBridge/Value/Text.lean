import HostBridge.Number.Decimal
import HostBridge.Storage.Map
import HostBridge.Storage.Slice
import HostBridge.Storage.Struct
import HostBridge.Text.Quoted

/-! Text of host values. Of all pointers only one that is itself the value is followed, so cycles
through pointers end; cycles through maps and slices end where their nesting is too deep. -/

namespace HostBridge

def addressText (a : Nat) : String := "0x" ++ hexText a

def boolText (b : Bool) : String := if b then "true" else "false"

/-- Maps and slices inside this many others are written as their address. -/
def textDepth : Nat := 32

def fieldsText (t : StructTy) (texts : List String) : String :=
  "\x7b" ++ " ".intercalate ((t.fields.zip texts).map fun (f, s) => f.name ++ ":" ++ s) ++ "\x7d"

def entriesText (texts : List String) : String :=
  "map[" ++ " ".intercalate (texts.mergeSort (· ≤ ·)) ++ "]"

namespace Value

def leafText : Value → String
  | .nil => "<nil>"
  | .bool b => boolText b
  | .int _ i => toString i.toInt
  | .uint _ u => toString u.toNat
  | .float _ x => x.text
  | .complex _ re im => "(" ++ re.text ++ im.signedText true ++ "i)"
  | .string s => s
  | .ptr p => if p.isNil then "<nil>" else addressText p.address
  | v => addressText (v.address?.getD 0)

mutual

def flatText : Value → String
  | .struct t vs => fieldsText t (flatTexts vs)
  | v => v.leafText

def flatTexts : List Value → List String
  | [] => []
  | v :: vs => v.flatText :: flatTexts vs

end

def nestedText (st : Store) : Nat → Value → String
  | 0, v => v.flatText
  | room + 1, .map m =>
    entriesText ((m.entries st).map fun e =>
      nestedText st room e.key ++ ":" ++ nestedText st room e.value)
  | room + 1, .slice s => "[" ++ " ".intercalate ((s.toList st).map (nestedText st room)) ++ "]"
  | room + 1, .struct t vs => fieldsText t (vs.map (nestedText st room))
  | _ + 1, v => v.leafText

/-- The text of a value; a pointer to a struct is written as the struct. -/
def text (st : Store) : Value → String
  | .ptr p =>
    match p.load st with
    | .ok (.struct t vs) => "&" ++ nestedText st (textDepth - 1) (.struct t vs)
    | _ => leafText (.ptr p)
  | v => nestedText st textDepth v

end Value

end HostBridge
