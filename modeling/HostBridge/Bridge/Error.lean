import HostBridge.Store

namespace HostBridge

inductive BridgeError
  | unsupported (type : String)
  | typeMismatch (expected got : String)
  | notAddressable (type field : String)
  | nilDereference
  | arity (function : String) (expected got : Nat)
  | indexOutOfRange (index : Int) (length : Nat)
  | sendOnClosed
  | closeOfClosed
  | direction (op : ChannelOp) (type : String)
  | unknownField (type field : String)
  | badOperand (op : Operator) (type : String)
  | registryCollision (key : String)
  | runtime (message : String)
  deriving DecidableEq

inductive ErrorCategory
  | unsupported | typeMismatch | addressability | nilDereference | arity | protocol | runtime
  deriving DecidableEq

namespace BridgeError

def message (e : BridgeError) : String :=
  "luar: " ++ match e with
  | .unsupported type => "unsupported host type " ++ type
  | .typeMismatch expected got => "cannot use " ++ got ++ " as " ++ expected
  | .notAddressable type field =>
    "cannot assign to field " ++ field ++ " of non-addressable " ++ type
  | .nilDereference => "invalid memory address or nil pointer dereference"
  | .arity function expected got =>
    function ++ " expects " ++ toString expected ++ " argument(s), got " ++ toString got
  | .indexOutOfRange index length =>
    "index out of range [" ++ toString index ++ "] with length " ++ toString length
  | .sendOnClosed => "send on closed channel"
  | .closeOfClosed => "close of closed channel"
  | .direction op type => "cannot " ++ op.text ++ " on " ++ type
  | .unknownField type field => type ++ " has no field " ++ field
  | .badOperand op type => "cannot " ++ op.name ++ " a value of type " ++ type
  | .registryCollision key => "registry key " ++ key ++ " holds a foreign value"
  | .runtime message => message

def category : BridgeError → ErrorCategory
  | .unsupported _ => .unsupported
  | .typeMismatch .. => .typeMismatch
  | .notAddressable .. => .addressability
  | .nilDereference => .nilDereference
  | .arity .. => .arity
  | .indexOutOfRange .. | .sendOnClosed | .closeOfClosed | .direction .. | .unknownField ..
  | .badOperand .. | .registryCollision _ => .protocol
  | .runtime _ => .runtime

def scriptIndex (index : Nat) : Int := (Int64.ofNat index + 1).toInt

def ofHost : HostError → BridgeError
  | .typeMismatch expected got => .typeMismatch expected got
  | .unhashable type => .typeMismatch "comparable map key" type
  | .indexOutOfRange index length => .indexOutOfRange (scriptIndex index) length
  | .nilPointer => .nilDereference
  | .channel .sendOnClosed => .sendOnClosed
  | .channel .closeOfClosed => .closeOfClosed
  | .direction op type => .direction op type
  | .arity expected got => .arity "host function" expected got
  | .call message => .runtime message

end BridgeError

abbrev BridgeM := EStateM (Stop BridgeError) Store

instance : MonadLift HostM BridgeM where
  monadLift x st :=
    match x st with
    | .ok a st => .ok a st
    | .error stop st => .error (stop.map .ofHost) st

section

variable {α : Type} {x : HostM α} {st st' : Store}

theorem host_ok {a : α} (h : x st = .ok a st') : (liftM x : BridgeM α) st = .ok a st' := by
  simp only [liftM, monadLift, MonadLift.monadLift, h]

theorem host_error {stop : Stop HostError} (h : x st = .error stop st') :
    (liftM x : BridgeM α) st = .error (stop.map .ofHost) st' := by
  simp only [liftM, monadLift, MonadLift.monadLift, h]

theorem ok_of_host {a : α} (h : (liftM x : BridgeM α) st = .ok a st') : x st = .ok a st' := by
  cases eq : x st with
  | ok b st₁ =>
    rw [host_ok eq] at h
    cases h
    rfl
  | error stop st₁ =>
    rw [host_error eq] at h
    cases h

theorem except_bind {β : Type} {a : α} {f : α → BridgeM β} :
    ((liftM (Except.ok a : Except BridgeError α) : BridgeM α) >>= f) st = f a st := rfl

theorem hostExcept_bind {β : Type} {a : α} {f : α → BridgeM β} :
    ((liftM (Except.ok a : Except HostError α) : BridgeM α) >>= f) st = f a st := rfl

end

namespace BridgeM

def fail {α : Type} (e : BridgeError) : BridgeM α := throw (.error e)

def attempt {α : Type} (x : BridgeM α) : BridgeM (Except BridgeError α) := fun st =>
  match x st with
  | .ok a st => .ok (.ok a) st
  | .error (.error e) st => .ok (.error e) st
  | .error stop st => .error stop st

def rescue {α : Type} (x : BridgeM α) : BridgeM α := fun st =>
  match x st with
  | .error (.panic text) st => .error (.error (.runtime (text.getD "host function panicked"))) st
  | r => r

end BridgeM

end HostBridge
