import HostBridge.Bridge.Call
import HostBridge.Channel.Threads

/-! Two threads that share a channel, one of them on the host side and the other one scripts or
the host as well. What is refused before it comes to the channel does not stop a thread. -/

namespace HostBridge

namespace Reply

def toUnit : Reply Value → Except HostError Unit
  | .sent r | .closed r => r.mapError .channel
  | .received _ => .ok ()

def toOption : Reply Value → Option Value
  | .received v => v
  | _ => none

end Reply

namespace Request

def answers {ε : Type} : List (Except ε (Request Value)) → List (Reply Value) →
    List (Except ε (Reply Value))
  | .error e :: rs, replies => .error e :: answers rs replies
  | .ok _ :: rs, reply :: replies => .ok reply :: answers rs replies
  | _, _ => []

def accepted {ε : Type} (rs : List (Except ε (Request Value))) : List (Request Value) :=
  rs.filterMap Except.toOption

end Request

namespace Chan

def requestSend (c : Chan) (v : Value) : Except HostError (Request Value) :=
  (c.maySend v).map fun _ => .send v

def requestReceive (c : Chan) : Except HostError (Request Value) :=
  c.mayReceive.map fun _ => .receive

def requestClose (c : Chan) : Except HostError (Request Value) :=
  c.mayClose.map fun _ => .close

/-- The channel between two threads: number 0 is the other thread, number 1 this one. -/
def system (st : Store) (c : Chan) : System Value := .start (c.channel st) 2

def proceed {ε : Type} (sys : System Value) (i : Nat) (rs : List (Except ε (Request Value))) :
    System Value :=
  (sys.submit i (Request.accepted rs)).run

def join (c : Chan) (sys : System Value) : HostM Unit := do
  c.write sys.channel
  unless sys.isDone do throw .blocked

def answer {ε : Type} (sys : System Value) (i skipped : Nat) (r : Except ε (Request Value)) :
    Except ε (Option (Reply Value)) :=
  r.map fun _ => (sys.replies i)[skipped]?

def unitAnswer (sys : System Value) (i : Nat) (r : Except HostError (Request Value)) :
    Except HostError Unit := do
  match ← answer sys i 0 r with
  | some reply => reply.toUnit
  | none => return

def optionAnswer (sys : System Value) (i : Nat) (r : Except HostError (Request Value)) :
    Except HostError (Option Value) := do
  return (← answer sys i 0 r).bind Reply.toOption

/-- The host sends values and perhaps closes, while a script receives `count` times: what the
script gets, and how each request of the host ends. -/
def feed (s : Nat) (c : Chan) (values : List Value) (thenClose : Bool) (count : Nat) :
    BridgeM (List (Except BridgeError (List Script)) × List (Except HostError Unit)) := do
  let _ ← (Value.chan c).toScript s
  let own := values.map c.requestSend ++ (if thenClose then [c.requestClose] else [])
  let receives := List.replicate count (c.requestReceive.mapError BridgeError.ofHost)
  let sys := proceed ((c.system (← get)).submit 0 (Request.accepted own)) 1 receives
  c.join sys
  let got ← (Request.answers receives (sys.replies 1)).mapM fun
    | .error e => pure (.error e)
    | .ok reply => BridgeM.attempt (received s reply.toOption)
  return (got, (Request.answers own (sys.replies 0)).map fun a => a.bind Reply.toUnit)

/-- The host receives until the channel is closed, while a script sends values and closes: how
each request of the script ends, and what the host gets. -/
def drain (s : Nat) (c : Chan) (args : List Script) :
    BridgeM (List (Except BridgeError (List Script)) × List Value) := do
  let handle ← (Value.chan c).toScript s
  let sends ← args.mapM fun x => do
    let v ← BridgeM.attempt (c.argument [handle, x])
    return v.bind fun v => (c.requestSend v).mapError BridgeError.ofHost
  let own := sends ++ [c.requestClose.mapError BridgeError.ofHost]
  let enough := (c.channel (← get)).queue.length + own.length
  let receives := List.replicate enough c.requestReceive
  let sys := proceed ((c.system (← get)).submit 0 (Request.accepted receives)) 1 own
  c.join sys
  let sent := (Request.answers own (sys.replies 1)).map fun a => do
    (← a).toUnit.mapError BridgeError.ofHost
    return []
  let got := ((sys.replies 0).map Reply.toOption).takeWhile Option.isSome
  return (sent, got.filterMap fun v => v)

def sendThenClose (c : Chan) (v : Value) :
    HostM (Except HostError Unit × Except HostError Unit × Option Value) := do
  let other := c.requestSend v
  let close := c.requestClose
  let sys := proceed (proceed (c.system (← get)) 0 [other]) 1 [close]
  c.join sys
  let next ← c.receive
  return (unitAnswer sys 1 close, unitAnswer sys 0 other, next)

def receiveWhile (c : Chan) (v : Option Value) :
    HostM (Except HostError Unit × Except HostError (Option Value)) := do
  let other := c.requestReceive
  let act := match v with
    | some v => c.requestSend v
    | none => c.requestClose
  let sys := proceed (proceed (c.system (← get)) 0 [other]) 1 [act]
  c.join sys
  return (unitAnswer sys 1 act, optionAnswer sys 0 other)

structure Waited where
  blocked : Bool
  length : Nat
  act : Except HostError (Option Value)
  sender : Except HostError Unit
  after : Nat

def sendWhile (c : Chan) (v : Value) (thenClose : Bool) : HostM Waited := do
  let other := c.requestSend v
  let act := if thenClose then c.requestClose else c.requestReceive
  let waiting := proceed (c.system (← get)) 0 [other]
  let sys := proceed waiting 1 [act]
  c.join sys
  return {
    blocked := !waiting.isDone
    length := waiting.channel.queue.length
    act :=
      if thenClose then (unitAnswer sys 1 act).map fun _ => none else optionAnswer sys 1 act
    sender := unitAnswer sys 0 other
    after := sys.channel.queue.length }

end Chan

end HostBridge
