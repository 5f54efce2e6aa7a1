import HostBridge.Store

namespace HostBridge

namespace Chan

def make (elem : Ty) (capacity : Nat) : StateM Store Chan :=
  return ⟨elem, .both, ← Store.newChannel { capacity }⟩

def channel (st : Store) (c : Chan) : Channel Value :=
  (st.channels.get? c.id).getD { capacity := 0 }

def write (c : Chan) (ch : Channel Value) : HostM Unit :=
  modify fun st => { st with channels := st.channels.set c.id ch }

def maySend (c : Chan) (v : Value) : Except HostError Unit :=
  if !c.direction.canSend then .error (.direction .send c.type.text)
  else if !c.elem.accepts v then .error (.typeMismatch c.elem.text v.typeText)
  else .ok ()

def mayReceive (c : Chan) : Except HostError Unit :=
  if c.direction.canReceive then .ok () else .error (.direction .receive c.type.text)

def mayClose (c : Chan) : Except HostError Unit :=
  if c.direction.canSend then .ok () else .error (.direction .close c.type.text)

def send (c : Chan) (v : Value) : HostM Unit := do
  c.maySend v
  match (c.channel (← get)).enqueue v with
  | (none, _) => throw .blocked
  | (some (.error e), _) => HostM.fail (.channel e)
  | (some (.ok ticket), ch) =>
    c.write ch
    match ch.settle ticket with
    | none => throw .blocked
    | some (.error e) => HostM.fail (.channel e)
    | some (.ok ()) => return

def receive (c : Chan) : HostM (Option Value) := do
  c.mayReceive
  match (c.channel (← get)).dequeue with
  | (none, _) => throw .blocked
  | (some v, ch) =>
    c.write ch
    return v

def close (c : Chan) : HostM Unit := do
  c.mayClose
  match (c.channel (← get)).close with
  | (.error e, _) => HostM.fail (.channel e)
  | (.ok (), ch) => c.write ch

end Chan

end HostBridge
