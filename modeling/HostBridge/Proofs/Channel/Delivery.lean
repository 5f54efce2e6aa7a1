import HostBridge.Bridge.Call
import HostBridge.Function.Stock
import HostBridge.Proofs.Assignment.Frame
import HostBridge.Proofs.Conversion.Form

namespace HostBridge

variable {st st' : Store} {s : Nat}

theorem Heap.set_of_get? {α : Type} {h : Heap α} {i : Nat} {a : α} (ha : h.get? i = some a) :
    h.set i a = h := by
  obtain ⟨hi, rfl⟩ := Array.getElem?_eq_some_iff.mp ha
  simp only [set, Array.setIfInBounds, hi, dif_pos, Array.set_getElem_self]

structure Handle.Holds (h : Handle) (c : Chan) : Prop where
  payload : h.payload = .value (.chan c)
  kind : h.kind? = some .chan

namespace Chan

variable {c : Chan} {v : Value} {rest : List Value}

def dequeued (c : Chan) (st : Store) (rest : List Value) : Store :=
  let ch := c.channel st
  { st with channels := st.channels.set c.id { ch with queue := rest, taken := ch.taken + 1 } }

section

variable (may : c.direction.canReceive = true)

include may

theorem mayReceive_eq : c.mayReceive = .ok () := by simp [mayReceive, may]

theorem receive_cons (queue : (c.channel st).queue = v :: rest) :
    c.receive st = .ok (some v) (c.dequeued st rest) := by
  have read : (get : HostM Store) st = .ok st st := rfl
  simp only [receive, mayReceive_eq may]
  rw [bind_ok (show (liftM (Except.ok () : Except HostError Unit) : HostM Unit) st = .ok () st
    from rfl), bind_ok read]
  simp only [Channel.dequeue, queue]
  rfl

theorem receive_nil (made : (st.channels.get? c.id).isSome = true)
    (queue : (c.channel st).queue = []) :
    c.receive st = if (c.channel st).closed then .ok none st else .error .blocked st := by
  have read : (get : HostM Store) st = .ok st st := rfl
  obtain ⟨ch, present⟩ := Option.isSome_iff_exists.mp made
  have same : st.channels.set c.id (c.channel st) = st.channels :=
    Heap.set_of_get? (by simp [channel, present])
  simp only [receive, mayReceive_eq may]
  rw [bind_ok (show (liftM (Except.ok () : Except HostError Unit) : HostM Unit) st = .ok () st
    from rfl), bind_ok read]
  simp only [Channel.dequeue, queue]
  cases (c.channel st).closed with
  | false => rfl
  | true =>
    change EStateM.Result.ok none { st with channels := st.channels.set c.id (c.channel st) } = _
    rw [same]
    rfl

end

theorem receive_refused (barred : c.direction.canReceive = false) (st : Store) :
    c.receive st = .error (.error (.direction .receive c.type.text)) st := by
  simp only [receive, mayReceive, barred]
  rfl

theorem channels_dequeued_ne (made : (st.channels.get? c.id).isSome = true) (rest : List Value) :
    (c.dequeued st rest).channels ≠ st.channels := by
  intro same
  obtain ⟨ch, present⟩ := Option.isSome_iff_exists.mp made
  obtain ⟨inside, _⟩ := Array.getElem?_eq_some_iff.mp present
  have both : (c.dequeued st rest).channels.get? c.id = some ch := same ▸ present
  rw [dequeued, Heap.get?_set, if_pos ⟨rfl, inside⟩, channel, present] at both
  simpa using congrArg Channel.taken (Option.some.inj both)

theorem call_method {h : Handle} (holds : h.Holds c) {name : String} {code : Code}
    (named : c.index (.string name) = (Closure.make name code : BridgeM Script))
    (other : code ≠ .apply) {s₀ : Nat} {st₀ st₁ : Store} {f : Script}
    (method : (Script.handle h).index s₀ (.string name) st₀ = .ok f st₁) (host : Host) (s : Nat)
    (args : List Script) : f.call host s args = code.run host s args := by
  obtain ⟨id, payload, table⟩ := h
  obtain ⟨rfl, kind⟩ := holds
  obtain ⟨⟨set, _⟩, rfl, rfl⟩ := Option.map_eq_some_iff.mp kind
  change c.index (.string name) st₀ = .ok f st₁ at method
  rw [named] at method
  cases method
  cases code with
  | apply => exact absurd rfl other
  | _ => cases args <;> rfl

structure Delivers (s : Nat) (c : Chan) (st : Store)
    (r : EStateM.Result (Stop BridgeError) Store (List Script)) : Prop where
  refused : c.direction.canReceive = false →
    r = .error (.error (.direction .receive c.type.text)) st
  blocked : c.direction.canReceive = true → (c.channel st).queue = [] →
    (c.channel st).closed = false → r = .error .blocked st
  drained : c.direction.canReceive = true → (c.channel st).queue = [] →
    (c.channel st).closed = true → r = .ok [.nil, .bool false] st
  delivered : c.direction.canReceive = true → ∀ {v rest}, (c.channel st).queue = v :: rest →
    v.HasForm st s → ∃ x st', r = .ok [x, .bool true] st' ∧
      v.toScript s (c.dequeued st rest) = .ok x st' ∧ st'.channels = (c.dequeued st rest).channels
  lost : c.direction.canReceive = true → ∀ {v rest}, (c.channel st).queue = v :: rest →
    ¬v.HasForm st s → ∃ e, r = .error (.error e) (c.dequeued st rest)
  kept : (∀ stop st', r = .error stop st' → st'.channels = st.channels) ↔
    (c.direction.canReceive = true → ∀ v ∈ (c.channel st).queue.head?, v.HasForm st s)

section

variable (may : c.direction.canReceive = true)

include may

theorem received_blocked (made : (st.channels.get? c.id).isSome = true)
    (queue : (c.channel st).queue = []) (opened : (c.channel st).closed = false) :
    (do Chan.received s (← c.receive) : BridgeM (List Script)) st = .error .blocked st := by
  have waits := receive_nil may made queue
  rw [opened] at waits
  rw [bind_error (host_error waits)]
  rfl

theorem received_drained (made : (st.channels.get? c.id).isSome = true)
    (queue : (c.channel st).queue = []) (closed : (c.channel st).closed = true) :
    (do Chan.received s (← c.receive) : BridgeM (List Script)) st =
      .ok [.nil, .bool false] st := by
  have nothing := receive_nil may made queue
  rw [closed] at nothing
  rw [bind_ok (host_ok nothing)]
  rfl

theorem received_delivered (queue : (c.channel st).queue = v :: rest) (form : v.HasForm st s) :
    ∃ x st', (do Chan.received s (← c.receive) : BridgeM (List Script)) st =
        .ok [x, .bool true] st' ∧
      v.toScript s (c.dequeued st rest) = .ok x st' ∧
      st'.channels = (c.dequeued st rest).channels := by
  have form' : v.HasForm (c.dequeued st rest) s := form.of_config rfl fun usable => usable
  obtain ⟨x, st', converted, _⟩ := Value.exists_toScript form'
  refine ⟨x, st', ?_, converted, ((Value.mild_toScript v).of_ok converted).channels⟩
  rw [bind_ok (host_ok (receive_cons may queue)), received, bind_ok converted]
  rfl

theorem received_lost (queue : (c.channel st).queue = v :: rest) (formless : ¬v.HasForm st s) :
    ∃ e, (do Chan.received s (← c.receive) : BridgeM (List Script)) st =
      .error (.error e) (c.dequeued st rest) := by
  have formless' : ¬v.HasForm (c.dequeued st rest) s := fun form =>
    formless (form.of_config rfl fun usable => usable)
  obtain ⟨e, failed⟩ := Value.toScript_of_not_hasForm formless'
  refine ⟨e, ?_⟩
  rw [bind_ok (host_ok (receive_cons may queue)), received, bind_error failed]

end

theorem received_refused (barred : c.direction.canReceive = false) (st : Store) :
    (do Chan.received s (← c.receive) : BridgeM (List Script)) st =
      .error (.error (.direction .receive c.type.text)) st := by
  rw [bind_error (host_error (receive_refused barred st))]
  rfl

theorem received_kept_iff (made : (st.channels.get? c.id).isSome = true) :
    (∀ stop st', (do Chan.received s (← c.receive) : BridgeM (List Script)) st =
        .error stop st' → st'.channels = st.channels) ↔
      (c.direction.canReceive = true → ∀ v ∈ (c.channel st).queue.head?, v.HasForm st s) := by
  constructor
  · intro kept may v oldest
    obtain ⟨rest, queue⟩ := List.head?_eq_some_iff.mp oldest
    refine Classical.byContradiction fun formless => ?_
    obtain ⟨e, failed⟩ := received_lost may queue formless
    exact channels_dequeued_ne made rest (kept _ _ failed)
  · intro forms stop st' failed
    cases may : c.direction.canReceive with
    | false =>
      rw [received_refused may] at failed
      cases failed
      rfl
    | true =>
      cases queue : (c.channel st).queue with
      | nil =>
        cases closed : (c.channel st).closed with
        | false =>
          rw [received_blocked may made queue closed] at failed
          cases failed
          rfl
        | true =>
          rw [received_drained may made queue closed] at failed
          cases failed
      | cons v rest =>
        have form : v.HasForm st s := forms may v (by rw [queue]; rfl)
        obtain ⟨x, st', ok, _⟩ := received_delivered may queue form
        rw [ok] at failed
        cases failed

/-- A receive by a script takes the oldest value and gives it to the script, if the value has a form
in the state. A value without one is taken and lost; no other receive that stops takes anything. -/
theorem delivers_of_method {h : Handle} (holds : h.Holds c) {s₀ : Nat} {st₀ st₁ : Store}
    {f : Script} (method : (Script.handle h).index s₀ (.string "receive") st₀ = .ok f st₁)
    (made : (st.channels.get? c.id).isSome = true) (host : Host) (s : Nat) (args : List Script) :
    Delivers s c st (f.call host s args st) := by
  have named : c.index (.string "receive") =
    (Closure.make "receive" (.receive c) : BridgeM Script) := rfl
  rw [call_method holds named Code.noConfusion method, Code.run]
  exact {
    refused := fun barred => received_refused barred st
    blocked := fun may queue opened => received_blocked may made queue opened
    drained := fun may queue closed => received_drained may made queue closed
    delivered := fun may _ _ queue form => received_delivered may queue form
    lost := fun may _ _ queue formless => received_lost may queue formless
    kept := received_kept_iff made }

theorem delivers_number_before_complex :
    let c : Chan := ⟨.any, .both, 0⟩
    let items : List Value := [.int .word 7, .complex .w64 .one .zero]
    Delivers 0 c
      { channels := ⟨#[{ capacity := 2, queue := items, sent := 2 }]⟩, states := ⟨#[{}]⟩ }
      ((Script.function ⟨1, "receive", .receive c⟩).call (fun _ => Body.arguments) 0 []
        { channels := ⟨#[{ capacity := 2, queue := items, sent := 2 }]⟩, states := ⟨#[{}]⟩ }) :=
  let h : Handle := ⟨0, .value (.chan ⟨.any, .both, 0⟩), some ⟨0, .chan⟩⟩
  have method : (Script.handle h).index 0 (.string "receive") { fresh := 1 } = .ok _ _ := rfl
  delivers_of_method ⟨rfl, rfl⟩ method rfl _ _ _

/-- A script receives a complex number: there is an error, and the channel is empty. -/
theorem receive_loses_complex :
    let c : Chan := ⟨.complex .w64, .both, 0⟩
    ∃ (f : Script) (e : BridgeError) (st st' : Store), (do
        let c ← Chan.make (.complex .w64) 1
        c.send (.complex .w64 .one .zero)
        let handle ← (Value.chan c).toScript 0
        handle.index 0 (.string "receive") : BridgeM Script) { states := ⟨#[{}]⟩ } = .ok f st ∧
      f.call (fun _ => Body.arguments) 0 [] st = .error (.error e) st' ∧
      (c.channel st).queue.length = 1 ∧ (c.channel st').queue.length = 0 := by
  intro c
  let st (ch : Channel Value) : Store := {
    channels := ⟨#[ch]⟩
    states := ⟨#[{ registry := [(({} : Config).registryKey, .operators 0)] }]⟩
    fresh := 3 }
  exact ⟨.function ⟨2, "receive", .receive c⟩, .unsupported "complex128",
    st { capacity := 1, queue := [.complex .w64 .one .zero], sent := 1 },
    st { capacity := 1, queue := [], sent := 1, taken := 1 }, rfl, rfl, rfl, rfl⟩

end Chan

end HostBridge
