import HostBridge.Channel.Threads

namespace HostBridge

variable {α : Type}

/-- What is seen of a run. A request goes by its thread and the number of earlier requests of the
thread. -/
inductive Event (α : Type)
  | entered (op : Nat × Nat) (v : α)
  | discarded (v : α)
  | done (op : Nat × Nat) (r : Request α) (x : Reply α)

namespace Event

def entry? : Event α → Option ((Nat × Nat) × α)
  | .entered op v => some (op, v)
  | _ => none

def lost? : Event α → Option α
  | .discarded v => some v
  | _ => none

def taken? : Event α → Option α
  | .done _ _ (.received (some v)) => some v
  | _ => none

def isClose : Event α → Bool
  | .done _ _ (.closed (.ok ())) => true
  | _ => false

end Event

abbrev Log (α : Type) := List (Event α)

namespace Log

def entered (log : Log α) : List ((Nat × Nat) × α) := log.filterMap Event.entry?

def discarded (log : Log α) : List α := log.filterMap Event.lost?

def received (log : Log α) : List α := log.filterMap Event.taken?

end Log

def Channel.drops (ch ch' : Channel α) : Request α → List α
  | .close => ch.queue.drop ch'.queue.length
  | _ => []

namespace System

/-- The difference that a step of thread `i` makes: what is new in the queue, what a close drops,
and the reply when there is one. -/
def events (sys sys' : System α) (i : Nat) : Log α :=
  match sys.threads[i]? with
  | some { todo := r :: _, replies, .. } =>
    (sys'.channel.queue.drop sys.channel.queue.length).map (.entered (i, replies.length)) ++
      (sys.channel.drops sys'.channel r).map .discarded ++
      ((sys'.replies i).drop replies.length).map (.done (i, replies.length) r)
  | _ => []

/-- The runs of `n` threads on a channel of capacity `c`: requests come at any time, any thread that
can take a step may be the next one, and a wait may end without a cause. -/
inductive Run (c n : Nat) : Log α → System α → Prop
  | start : Run c n [] (start { capacity := c } n)
  | submit {log : Log α} {sys : System α} (i : Nat) (rs : List (Request α)) :
    Run c n log sys → Run c n log (sys.submit i rs)
  | wake {log : Log α} {sys : System α} (i : Nat) (on : Condition) :
    Run c n log sys → Run c n log { sys with threads := sys.threads.modify i (·.signal on) }
  | step {log : Log α} {sys sys' : System α} {i pick : Nat} :
    Run c n log sys → sys.step i pick = some sys' → Run c n (log ++ sys.events sys' i) sys'

end System

/-- What the section of a request can do with a channel: the channel after it, the ticket that the
thread then holds, and the reply if the request is done. -/
inductive Section (ch : Channel α) : Option Nat → Request α → Channel α → Option Nat →
    Option (Reply α) → Prop
  | full {v : α} : ch.closed = false → Section ch none (.send v) ch none none
  | refused {v : α} : ch.closed = true →
    Section ch none (.send v) ch none (some (.sent (.error .sendOnClosed)))
  | enter {v : α} : ch.closed = false → ch.queue.length < ch.slots → ch.capacity = 0 →
    Section ch none (.send v) { ch with queue := ch.queue ++ [v], sent := ch.sent + 1 }
      (some (ch.sent + 1)) none
  | buffer {v : α} : ch.closed = false → ch.queue.length < ch.slots →
    ch.capacity ≠ 0 ∨ ch.sent + 1 ≤ ch.taken →
    Section ch none (.send v) { ch with queue := ch.queue ++ [v], sent := ch.sent + 1 }
      none (some (.sent (.ok ())))
  | wait {v : α} {k : Nat} : Section ch (some k) (.send v) ch (some k) none
  | settled {v : α} {k : Nat} : ch.capacity ≠ 0 ∨ k ≤ ch.taken →
    Section ch (some k) (.send v) ch none (some (.sent (.ok ())))
  | lost {v : α} {k : Nat} : ch.closed = true → ch.taken < k →
    Section ch (some k) (.send v) ch none (some (.sent (.error .sendOnClosed)))
  | empty {ticket : Option Nat} : Section ch ticket .receive ch ticket none
  | take {ticket : Option Nat} {v : α} {rest : List α} : ch.queue = v :: rest →
    Section ch ticket .receive { ch with queue := rest, taken := ch.taken + 1 } none
      (some (.received (some v)))
  | drained {ticket : Option Nat} : ch.queue = [] → ch.closed = true →
    Section ch ticket .receive ch none (some (.received none))
  | close {ticket : Option Nat} : ch.closed = false →
    Section ch ticket .close
      { ch with closed := true, queue := if ch.capacity = 0 then [] else ch.queue } none
      (some (.closed (.ok ())))
  | again {ticket : Option Nat} : ch.closed = true →
    Section ch ticket .close ch none (some (.closed (.error .closeOfClosed)))

namespace Channel

variable {ch ch' : Channel α} {v : α} {k : Nat}

theorem settle_eq_some {x : Except ChannelError Unit} (h : ch.settle k = some x) :
    x = .ok () ∧ (ch.capacity ≠ 0 ∨ k ≤ ch.taken) ∨
      x = .error .sendOnClosed ∧ ch.closed = true ∧ ch.taken < k := by
  simp only [settle] at h
  split at h
  · rename_i enough
    cases h
    exact .inl ⟨rfl, by simpa using enough⟩
  · rename_i early
    split at h
    · rename_i closed
      cases h
      exact .inr ⟨rfl, closed, by simp at early; omega⟩
    · cases h

theorem settle_eq_none (h : ch.settle k = none) : ch.capacity = 0 := by
  simp only [settle] at h
  split at h
  · cases h
  · rename_i early
    simp at early
    omega

theorem enqueue_eq_none (h : ch.enqueue v = (none, ch')) : ch.closed = false := by
  simp only [enqueue] at h
  split at h
  · cases h
  · rename_i closed
    simpa using closed

theorem enqueue_eq_error {e : ChannelError} (h : ch.enqueue v = (some (.error e), ch')) :
    e = .sendOnClosed ∧ ch.closed = true := by
  simp only [enqueue] at h
  split at h
  · rename_i closed
    cases h
    exact ⟨rfl, closed⟩
  · split at h <;> cases h

theorem enqueue_eq_ok (h : ch.enqueue v = (some (.ok k), ch')) :
    ch.closed = false ∧ ch.queue.length < ch.slots ∧ k = ch.sent + 1 ∧
      ch' = { ch with queue := ch.queue ++ [v], sent := ch.sent + 1 } := by
  simp only [enqueue] at h
  split at h
  · cases h
  · rename_i closed
    split at h
    · rename_i room
      cases h
      exact ⟨by simpa using closed, room, rfl, rfl⟩
    · cases h

end Channel

namespace Thread

structure Same (t t' : Thread α) : Prop where
  todo : t'.todo = t.todo
  replies : t'.replies = t.replies
  ticket : t'.ticket = t.ticket

theorem Same.refl (t : Thread α) : t.Same t := ⟨rfl, rfl, rfl⟩

theorem same_signal (on : Condition) (t : Thread α) : t.Same (t.signal on) := by
  simp only [signal]
  split <;> exact ⟨rfl, rfl, rfl⟩

def After (t : Thread α) (ticket : Option Nat) : Option (Reply α) → Thread α → Prop
  | none, t' => t'.todo = t.todo ∧ t'.replies = t.replies ∧ t'.ticket = ticket
  | some x, t' => t'.todo = t.todo.tail ∧ t'.replies = t.replies ++ [x] ∧ t'.ticket = ticket

end Thread

namespace System

variable {sys sys' : System α} {i pick : Nat} {t : Thread α}

structure Moved (i : Nat) (t : Thread α) (sys sys' : System α) : Prop where
  self : sys'.threads[i]? = some t
  other : ∀ {j : Nat} {u : Thread α}, j ≠ i → sys'.threads[j]? = some u →
    ∃ w, sys.threads[j]? = some w ∧ w.Same u

structure Alike (sys sys' : System α) : Prop where
  length : sys'.threads.length = sys.threads.length
  threads : ∀ {j : Nat} {u : Thread α}, sys'.threads[j]? = some u →
    ∃ w, sys.threads[j]? = some w ∧ w.Same u

theorem Alike.refl (sys : System α) : sys.Alike sys := ⟨rfl, fun h => ⟨_, h, .refl _⟩⟩

theorem Alike.trans {sys₁ sys₂ sys₃ : System α} (h : sys₁.Alike sys₂) (h' : sys₂.Alike sys₃) :
    sys₁.Alike sys₃ where
  length := h'.length.trans h.length
  threads hu := by
    obtain ⟨w, hw, same⟩ := h'.threads hu
    obtain ⟨x, hx, same'⟩ := h.threads hw
    exact ⟨x, hx, same.todo.trans same'.todo, same.replies.trans same'.replies,
      same.ticket.trans same'.ticket⟩

theorem alike_channel (sys : System α) (c : Channel α) : sys.Alike { sys with channel := c } :=
  ⟨rfl, fun h => ⟨_, h, .refl _⟩⟩

theorem alike_notifyAll (sys : System α) (on : Condition) : sys.Alike (sys.notifyAll on) where
  length := by simp [notifyAll]
  threads := by
    intro j u hu
    simp only [notifyAll, List.getElem?_map, Option.map_eq_some_iff] at hu
    obtain ⟨w, hw, rfl⟩ := hu
    exact ⟨w, hw, Thread.same_signal on w⟩

theorem alike_notifyOne (sys : System α) (on : Condition) (pick : Nat) :
    sys.Alike (sys.notifyOne on pick) := by
  unfold notifyOne
  dsimp only
  split
  · refine ⟨by simp, fun {j u} hu => ?_⟩
    rw [List.getElem?_modify] at hu
    obtain ⟨w, hw, rfl⟩ := Option.map_eq_some_iff.mp hu
    refine ⟨w, hw, ?_⟩
    split
    · exact Thread.same_signal on w
    · exact .refl w
  · exact .refl sys

@[simp] theorem channel_notifyOne (sys : System α) (on : Condition) (pick : Nat) :
    (sys.notifyOne on pick).channel = sys.channel := by
  unfold notifyOne
  dsimp only
  split <;> rfl

theorem Alike.moved (h : sys.Alike sys') (ht : sys.threads[i]? = some t) (t' : Thread α) :
    Moved i t' sys (sys'.update i t') where
  self := by
    obtain ⟨hi, _⟩ := List.getElem?_eq_some_iff.mp ht
    simp only [update]
    rw [List.getElem?_set_self]
    exact Nat.lt_of_lt_of_eq hi h.length.symm
  other ne hu := by
    simp only [update] at hu
    rw [List.getElem?_set_ne (Ne.symm ne)] at hu
    exact h.threads hu

structure Stepped (i : Nat) (t : Thread α) (r : Request α) (ticket : Option Nat)
    (reply : Option (Reply α)) (sys sys' : System α) : Prop where
  runs : Section sys.channel t.ticket r sys'.channel ticket reply
  moved : ∃ t', t.After ticket reply t' ∧ Moved i t' sys sys'

theorem Alike.stepped (h : sys.Alike sys') (ht : sys.threads[i]? = some t) {t' : Thread α}
    {r : Request α} {ticket : Option Nat} {reply : Option (Reply α)}
    (after : t.After ticket reply t')
    (runs : Section sys.channel t.ticket r sys'.channel ticket reply) :
    Stepped i t r ticket reply sys (sys'.update i t') := ⟨runs, t', after, h.moved ht t'⟩

theorem after_finish (t : Thread α) (x : Reply α) : t.After none (some x) (t.finish x) :=
  ⟨rfl, rfl, rfl⟩

theorem after_park (t : Thread α) (on : Condition) : t.After t.ticket none (t.park on) :=
  ⟨rfl, rfl, rfl⟩

theorem after_wait (t : Thread α) (on : Condition) (k : Nat) :
    t.After (some k) none { t.park on with ticket := some k } := ⟨rfl, rfl, rfl⟩

theorem stepped_send (ht : sys.threads[i]? = some t) (v : α) (pick : Nat) :
    ∃ ticket reply, Stepped i t (.send v) ticket reply sys (sys.attempt i pick t (.send v)) := by
  have here := Alike.refl sys
  simp only [attempt]
  split
  · rename_i k hk
    simp only [settle]
    split
    · rename_i x settled
      obtain ⟨rfl, enough⟩ | ⟨rfl, closed, early⟩ := Channel.settle_eq_some settled
      · exact ⟨_, _, here.stepped ht (after_finish t _) (hk ▸ .settled enough)⟩
      · exact ⟨_, _, here.stepped ht (after_finish t _) (hk ▸ .lost closed early)⟩
    · have runs : Section sys.channel t.ticket (.send v) sys.channel (some k) none := by
        rw [hk]
        exact .wait
      exact ⟨_, _, here.stepped ht (after_wait t .notFull k) runs⟩
  · rename_i hk
    split
    · rename_i eq
      have runs : Section sys.channel t.ticket (.send v) sys.channel t.ticket none := by
        rw [hk]
        exact .full (Channel.enqueue_eq_none eq)
      exact ⟨_, _, here.stepped ht (after_park t .notFull) runs⟩
    · rename_i e ch eq
      obtain ⟨rfl, closed⟩ := Channel.enqueue_eq_error eq
      exact ⟨_, _, here.stepped ht (after_finish t _) (hk ▸ .refused closed)⟩
    · rename_i k ch eq
      obtain ⟨opened, room, rfl, rfl⟩ := Channel.enqueue_eq_ok eq
      -- the signal comes between the two halves of the section
      have alike := (alike_channel sys { sys.channel with
        queue := sys.channel.queue ++ [v], sent := sys.channel.sent + 1 }).trans
          (alike_notifyOne _ .notEmpty pick)
      simp only [settle, channel_notifyOne]
      split
      · rename_i x settled
        obtain ⟨rfl, enough⟩ | ⟨_, closed, _⟩ := Channel.settle_eq_some settled
        · refine ⟨_, _, alike.stepped ht (after_finish t _) ?_⟩
          rw [channel_notifyOne, hk]
          exact .buffer opened room enough
        · cases opened.symm.trans closed
      · rename_i waits
        refine ⟨_, _, alike.stepped ht (after_wait t .notFull _) ?_⟩
        rw [channel_notifyOne, hk]
        exact .enter opened room (Channel.settle_eq_none waits)

theorem stepped_receive (ht : sys.threads[i]? = some t) (pick : Nat) :
    ∃ ticket reply, Stepped i t .receive ticket reply sys (sys.attempt i pick t .receive) := by
  have here := Alike.refl sys
  simp only [attempt]
  cases queue : sys.channel.queue with
  | nil =>
    cases closed : sys.channel.closed with
    | true =>
      simp only [Channel.dequeue, queue, closed, if_true]
      exact ⟨_, _, here.stepped ht (after_finish t _) (.drained queue closed)⟩
    | false =>
      simp only [Channel.dequeue, queue, closed]
      exact ⟨_, _, here.stepped ht (after_park t .notEmpty) .empty⟩
  | cons v rest =>
    have alike := (alike_channel sys { sys.channel with
      queue := rest, taken := sys.channel.taken + 1 }).trans (alike_notifyAll _ .notFull)
    simp only [Channel.dequeue, queue]
    exact ⟨_, _, alike.stepped ht (after_finish t _) (.take queue)⟩

theorem stepped_close (ht : sys.threads[i]? = some t) (pick : Nat) :
    ∃ ticket reply, Stepped i t .close ticket reply sys (sys.attempt i pick t .close) := by
  have here := Alike.refl sys
  simp only [attempt]
  cases closed : sys.channel.closed with
  | true =>
    simp only [Channel.close, closed, if_true]
    exact ⟨_, _, here.stepped ht (after_finish t _) (.again closed)⟩
  | false =>
    have alike := ((alike_channel sys { sys.channel with
      closed := true, queue := if sys.channel.capacity = 0 then [] else sys.channel.queue }).trans
        (alike_notifyAll _ .notFull)).trans (alike_notifyAll _ .notEmpty)
    simp only [Channel.close, closed]
    exact ⟨_, _, alike.stepped ht (after_finish t _) (.close closed)⟩

theorem step_cases (h : sys.step i pick = some sys') :
    ∃ t r rest ticket reply, sys.threads[i]? = some t ∧ t.todo = r :: rest ∧
      Stepped i t r ticket reply sys sys' := by
  simp only [step] at h
  split at h
  · cases h
  · rename_i t ht
    split at h
    · cases h
    · cases h
    · rename_i r rest todo _
      cases h
      obtain ⟨ticket, reply, stepped⟩ : ∃ ticket reply,
          Stepped i t r ticket reply sys (sys.attempt i pick t r) := by
        cases r with
        | send v => exact stepped_send ht v pick
        | receive => exact stepped_receive ht pick
        | close => exact stepped_close ht pick
      exact ⟨t, r, rest, ticket, reply, ht, todo, stepped⟩

end System

end HostBridge
