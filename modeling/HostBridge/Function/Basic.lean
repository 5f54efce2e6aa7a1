import HostBridge.Store

namespace HostBridge

abbrev Body := List Value → HostM (List Value)

abbrev Host := Nat → Body

def Ty.checkArgs : List Ty → List Value → Except HostError Unit
  | t :: ts, v :: vs =>
    if t.accepts v then Ty.checkArgs ts vs else .error (.typeMismatch t.text v.typeText)
  | _, _ => .ok ()

namespace Function

def admits (f : Function) (args : List Value) : Except HostError Unit := do
  unless args.length = f.sig.params.length do
    throw (.arity f.sig.params.length args.length)
  Ty.checkArgs f.sig.params args

def call (host : Host) (f : Function) (args : List Value) : HostM (List Value) := do
  f.admits args
  host f.body args

end Function

end HostBridge
