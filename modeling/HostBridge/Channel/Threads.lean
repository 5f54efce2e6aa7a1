import HostBridge.Channel.Basic

/-! Threads on one channel. A thread that has to wait parks on a condition and gives the lock free;
a signal makes it ready to run its section again. Any thread that is not parked may take the next
step. -/

namespace HostBridge

inductive Request (α : Type)
  | send (v : α)
  | receive
  | close

inductive Reply (α : Type)
  | sent (r : Except ChannelError Unit)
  | received (v : Option α)
  | closed (r : Except ChannelError Unit)

/-- What parked threads wait for: senders for a free slot or for their value to be taken,
receivers for a value. -/
inductive Condition | notFull | notEmpty
  deriving DecidableEq

inductive Status
  | ready
  | parked (on : Condition)
  | signalled (on : Condition)
  deriving DecidableEq

structure Thread (α : Type) where
  todo : List (Request α) := []
  replies : List (Reply α) := []
  ticket : Option Nat := none
  status : Status := .ready

namespace Thread

variable {α : Type}

def park (t : Thread α) (on : Condition) : Thread α := { t with status := .parked on }

def finish (t : Thread α) (r : Reply α) : Thread α :=
  { todo := t.todo.tail, replies := t.replies ++ [r] }

def isParked (t : Thread α) (on : Condition) : Bool := t.status = .parked on

def signal (on : Condition) (t : Thread α) : Thread α :=
  if t.isParked on then { t with status := .signalled on } else t

end Thread

structure System (α : Type) where
  channel : Channel α
  threads : List (Thread α)

namespace System

variable {α : Type}

def start (c : Channel α) (n : Nat) : System α := ⟨c, List.replicate n {}⟩

def submit (sys : System α) (i : Nat) (rs : List (Request α)) : System α :=
  { sys with threads := sys.threads.modify i fun t => { t with todo := t.todo ++ rs } }

def notifyAll (sys : System α) (on : Condition) : System α :=
  { sys with threads := sys.threads.map (·.signal on) }

def notifyOne (sys : System α) (on : Condition) (pick : Nat) : System α :=
  let waiting := (List.range sys.threads.length).filter fun i =>
    (sys.threads[i]?.map (·.isParked on)).getD false
  match waiting[pick % waiting.length]? with
  | some i => { sys with threads := sys.threads.modify i (·.signal on) }
  | none => sys

def update (sys : System α) (i : Nat) (t : Thread α) : System α :=
  { sys with threads := sys.threads.set i t }

def settle (sys : System α) (i : Nat) (t : Thread α) (ticket : Nat) : System α :=
  match sys.channel.settle ticket with
  | some r => sys.update i (t.finish (.sent r))
  | none => sys.update i { t.park .notFull with ticket := some ticket }

def attempt (sys : System α) (i pick : Nat) (t : Thread α) : Request α → System α
  | .send v =>
    match t.ticket with
    | some ticket => sys.settle i t ticket
    | none =>
      match sys.channel.enqueue v with
      | (none, _) => sys.update i (t.park .notFull)
      | (some (.error e), _) => sys.update i (t.finish (.sent (.error e)))
      | (some (.ok ticket), c) =>
        (({ sys with channel := c } : System α).notifyOne .notEmpty pick).settle i t ticket
  | .receive =>
    match sys.channel.dequeue with
    | (none, _) => sys.update i (t.park .notEmpty)
    | (some none, _) => sys.update i (t.finish (.received none))
    | (some (some v), c) =>
      (({ sys with channel := c } : System α).notifyAll .notFull).update i
        (t.finish (.received (some v)))
  | .close =>
    match sys.channel.close with
    | (.error e, _) => sys.update i (t.finish (.closed (.error e)))
    | (.ok (), c) =>
      ((({ sys with channel := c } : System α).notifyAll .notFull).notifyAll .notEmpty).update i
        (t.finish (.closed (.ok ())))

def step (sys : System α) (i pick : Nat) : Option (System α) :=
  match sys.threads[i]? with
  | none => none
  | some t =>
    match t.status, t.todo with
    | .parked _, _ | _, [] => none
    | _, r :: _ => some (sys.attempt i pick t r)

def runSteps : Nat → System α → System α
  | 0, sys => sys
  | fuel + 1, sys =>
    match (List.range sys.threads.length).findSome? (sys.step · 0) with
    | some sys => runSteps fuel sys
    | none => sys

/-- Run until every thread is parked or done. A request takes two steps by itself, and each of
these may wake every thread for a step that leads back to its place. -/
def run (sys : System α) : System α :=
  let requests := sys.threads.foldl (fun n t => n + t.todo.length) 0
  runSteps ((2 * requests + 1) * (sys.threads.length + 1)) sys

def replies (sys : System α) (i : Nat) : List (Reply α) :=
  (sys.threads[i]?.map (·.replies)).getD []

def isDone (sys : System α) : Bool := sys.threads.all (·.todo.isEmpty)

end System

end HostBridge
