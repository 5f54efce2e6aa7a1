import HostBridge.Storage.Chan
import HostBridge.Text.Quoted
import HostBridge.Value.Text

namespace HostBridge

def recordText (name : String) (fields : List (String × String)) : String :=
  name ++ " \x7b " ++ ", ".intercalate (fields.map fun (k, v) => k ++ ": " ++ v) ++ " \x7d"

def Function.diagnostic (f : Function) : String :=
  "HostFunc(" ++ f.sig.text ++ " @ " ++ addressText f.address ++ ")"

def Chan.diagnostic (st : Store) (c : Chan) : String :=
  let ch := c.channel st
  recordText "ChanRef" [("type", quoted c.type.text),
    ("chan", recordText "Channel" [("capacity", toString ch.capacity),
      ("length", toString ch.queue.length), ("closed", boolText ch.closed)])]

def Map.diagnostic (st : Store) (m : Map) : String :=
  recordText "MapRef" [("key", quoted m.key.text), ("elem", quoted m.elem.text),
    ("len", toString (m.size st))]

def Slice.diagnostic (s : Slice) : String :=
  recordText "SliceRef" [("elem", quoted s.elem.text), ("len", toString s.len),
    ("cap", toString s.cap)]

def Pointer.diagnostic (p : Pointer) : String :=
  recordText "PtrRef" [("elem", quoted p.elem.text), ("addr", addressText p.address)]

def Value.diagnostic? (st : Store) : Value → Option String
  | .func f => some f.diagnostic
  | .chan c => some (c.diagnostic st)
  | .map m => some (m.diagnostic st)
  | .slice s => some s.diagnostic
  | .ptr p => some p.diagnostic
  | .boxed o => some ("Opaque(" ++ addressText o.address ++ ")")
  | _ => none

def Script.diagnostic? : Script → Option String
  | .function f => some ("Function(" ++ f.name ++ " @ " ++ addressText f.address ++ ")")
  | .table i => some ("Table(" ++ addressText (Object.table i).address ++ ")")
  | _ => none

end HostBridge
