/-! A blocking first-in first-out channel, as the sections that run while its lock is held. A
section answers `none` when its thread has to wait and run it again later. -/

namespace HostBridge

inductive ChannelError | sendOnClosed | closeOfClosed
  deriving DecidableEq

def ChannelError.message : ChannelError → String
  | .sendOnClosed => "send on closed channel"
  | .closeOfClosed => "close of closed channel"

/-- With `capacity` zero a send is complete only once its value has been taken. -/
structure Channel (α : Type) where
  capacity : Nat
  queue : List α := []
  closed : Bool := false
  sent : Nat := 0
  taken : Nat := 0

namespace Channel

variable {α : Type}

/-- Room in the queue; the value of a pending hand-over has a place of its own. -/
def slots (c : Channel α) : Nat := max c.capacity 1

def enqueue (c : Channel α) (v : α) : Option (Except ChannelError Nat) × Channel α :=
  if c.closed then (some (.error .sendOnClosed), c)
  else if c.queue.length < c.slots then
    (some (.ok (c.sent + 1)), { c with queue := c.queue ++ [v], sent := c.sent + 1 })
  else (none, c)

/-- Last section of a send: a buffered value needs no receiver, any other must have been taken. -/
def settle (c : Channel α) (ticket : Nat) : Option (Except ChannelError Unit) :=
  if c.capacity ≠ 0 || ticket ≤ c.taken then some (.ok ())
  else if c.closed then some (.error .sendOnClosed)
  else none

def dequeue (c : Channel α) : Option (Option α) × Channel α :=
  match c.queue with
  | v :: rest => (some (some v), { c with queue := rest, taken := c.taken + 1 })
  | [] => (if c.closed then some none else none, c)

/-- Values of a buffered channel stay receivable; a hand-over that nobody took is dropped. -/
def close (c : Channel α) : Except ChannelError Unit × Channel α :=
  if c.closed then (.error .closeOfClosed, c)
  else (.ok (), { c with closed := true, queue := if c.capacity = 0 then [] else c.queue })

end Channel

end HostBridge
