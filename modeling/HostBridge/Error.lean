import HostBridge.Channel.Basic

namespace HostBridge

inductive ChannelOp | send | receive | close
  deriving DecidableEq

def ChannelOp.text : ChannelOp → String
  | .send => "send"
  | .receive => "receive"
  | .close => "close"

inductive HostError
  | typeMismatch (expected got : String)
  | unhashable (type : String)
  | indexOutOfRange (index length : Nat)
  | nilPointer
  | channel (error : ChannelError)
  | direction (op : ChannelOp) (type : String)
  | arity (expected got : Nat)
  | call (message : String)
  deriving DecidableEq

def HostError.message : HostError → String
  | .typeMismatch expected got => "type mismatch: expected " ++ expected ++ ", got " ++ got
  | .unhashable type => "unhashable map key of type " ++ type
  | .indexOutOfRange index length =>
    "index out of range [" ++ toString index ++ "] with length " ++ toString length
  | .nilPointer => "invalid memory address or nil pointer dereference"
  | .channel e => e.message
  | .direction op type => "invalid operation: cannot " ++ op.text ++ " on " ++ type
  | .arity expected got =>
    "wrong argument count: expected " ++ toString expected ++ ", got " ++ toString got
  | .call message => message

inductive Stop (ε : Type)
  | error (e : ε)
  | panic (text : Option String)
  | blocked

def Stop.map {ε δ : Type} (f : ε → δ) : Stop ε → Stop δ
  | .error e => .error (f e)
  | .panic text => .panic text
  | .blocked => .blocked

end HostBridge
