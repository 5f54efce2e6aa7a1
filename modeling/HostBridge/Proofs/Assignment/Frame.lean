import HostBridge.Bridge.Assign

namespace HostBridge

variable {α β : Type} {s : Nat}

structure Store.Grown (st st' : Store) : Prop where
  maps : ∀ {i : Nat} {es : List Entry}, st.maps.get? i = some es → st'.maps.get? i = some es
  backings : ∀ {i : Nat} {items : Array Value}, st.backings.get? i = some items →
    st'.backings.get? i = some items
  cells : st'.cells = st.cells
  channels : st'.channels = st.channels
  tables : st'.tables = st.tables
  cursors : st'.cursors = st.cursors
  globals : ∀ i, (st'.state i).globals = (st.state i).globals

namespace Store.Grown

theorem refl (st : Store) : st.Grown st where
  maps h := h
  backings h := h
  cells := rfl
  channels := rfl
  tables := rfl
  cursors := rfl
  globals _ := rfl

theorem trans {st st' st'' : Store} (h : st.Grown st') (h' : st'.Grown st'') : st.Grown st'' where
  maps hi := h'.maps (h.maps hi)
  backings hi := h'.backings (h.backings hi)
  cells := h'.cells.trans h.cells
  channels := h'.channels.trans h.channels
  tables := h'.tables.trans h.tables
  cursors := h'.cursors.trans h.cursors
  globals i := (h'.globals i).trans (h.globals i)

end Store.Grown

/-- The computation gives a result with the property, or it fails with an error, and the store is
as it was in either case. -/
def Yields {ε : Type} (st : Store) (x : EStateM (Stop ε) Store α) (Q : α → Prop) : Prop :=
  match x st with
  | .ok a st' => st.Grown st' ∧ Q a
  | .error stop st' => st.Grown st' ∧ ∃ e, stop = .error e

namespace Yields

variable {ε : Type} {st : Store} {Q : α → Prop}

theorem pure {a : α} (h : Q a) : Yields st (Pure.pure a : EStateM (Stop ε) Store α) Q :=
  ⟨.refl st, h⟩

theorem imp {x : EStateM (Stop ε) Store α} {R : α → Prop} (hx : Yields st x Q)
    (h : ∀ a, Q a → R a) : Yields st x R := by
  simp only [Yields] at hx ⊢
  split at hx
  · exact ⟨hx.1, h _ hx.2⟩
  · exact hx

theorem throw {e : ε} : Yields st (MonadExcept.throw (.error e) : EStateM (Stop ε) Store α) Q :=
  ⟨.refl st, e, rfl⟩

theorem bind {x : EStateM (Stop ε) Store α} {f : α → EStateM (Stop ε) Store β} {R : β → Prop}
    (hx : Yields st x Q) (hf : ∀ a st', x st = .ok a st' → Q a → Yields st' (f a) R) :
    Yields st (x >>= f) R := by
  simp only [Yields] at hx ⊢
  split at hx
  · rename_i a st' eq
    have second := hf a st' eq hx.2
    rw [bind_ok eq]
    simp only [Yields] at second
    split at second
    · exact ⟨hx.1.trans second.1, second.2⟩
    · exact ⟨hx.1.trans second.1, second.2⟩
  · rename_i eq
    rw [bind_error eq]
    exact hx

theorem hostExcept_bind {x : Except HostError α} {f : α → BridgeM β} {R : β → Prop}
    (h : ∀ a, x = .ok a → Yields st (f a) R) : Yields st (liftM x >>= f) R := by
  cases x with
  | ok a => exact h a rfl
  | error e => exact ⟨.refl st, .ofHost e, rfl⟩

theorem guard {c : Prop} [Decidable c] {e : BridgeError} {f : Unit → BridgeM β} {R : β → Prop}
    (h : ¬c → Yields st (f ()) R) : Yields st (if c then BridgeM.fail e >>= f else f ()) R := by
  split
  · exact throw
  · rename_i passed
    exact h passed

end Yields

def Mild {ε : Type} (x : EStateM (Stop ε) Store α) : Prop := ∀ st, Yields st x fun _ => True

namespace Mild

variable {ε : Type}

theorem pure (a : α) : Mild (Pure.pure a : EStateM (Stop ε) Store α) := fun _ => Yields.pure trivial

theorem of_ok {x : EStateM (Stop ε) Store α} (hx : Mild x) {st st' : Store} {a : α}
    (h : x st = .ok a st') : st.Grown st' := by
  have yields := hx st
  rw [Yields, h] at yields
  exact yields.1

theorem of_error {x : EStateM (Stop ε) Store α} (hx : Mild x) {st st' : Store} {stop : Stop ε}
    (h : x st = .error stop st') : st.Grown st' := by
  have yields := hx st
  rw [Yields, h] at yields
  exact yields.1

theorem refuse (e : BridgeError) : Mild (BridgeM.fail e : BridgeM α) := fun _ => Yields.throw

theorem get : Mild (MonadState.get : EStateM (Stop ε) Store Store) := fun st => ⟨.refl st, trivial⟩

theorem bind {x : EStateM (Stop ε) Store α} {f : α → EStateM (Stop ε) Store β} (hx : Mild x)
    (hf : ∀ a, Mild (f a)) : Mild (x >>= f) :=
  fun st => (hx st).bind fun a st' _ _ => hf a st'

theorem lift {x : StateM Store α} (hx : ∀ st : Store, st.Grown (x st).2) :
    Mild (liftM x : EStateM (Stop ε) Store α) := fun st => ⟨hx st, trivial⟩

theorem except (x : Except ε α) : Mild (liftM x : EStateM (Stop ε) Store α) := by
  cases x with
  | ok a => exact pure a
  | error e => exact fun st => Yields.throw

end Mild

namespace Store

theorem grown_freshId (st : Store) : st.Grown (freshId st).2 := { Grown.refl st with }

theorem grown_newMap (es : List Entry) (st : Store) : st.Grown (newMap es st).2 where
  maps := by
    intro i es' hi
    have ne : i ≠ st.maps.size := by
      rintro rfl
      simp [Heap.get?, Heap.size] at hi
    exact (Heap.get?_push _ _ _).trans ((if_neg ne).trans hi)
  backings h := h
  cells := rfl
  channels := rfl
  tables := rfl
  cursors := rfl
  globals _ := rfl

theorem grown_newBacking (items : Array Value) (st : Store) : st.Grown (newBacking items st).2 where
  backings := by
    intro i es' hi
    have ne : i ≠ st.backings.size := by
      rintro rfl
      simp [Heap.get?, Heap.size] at hi
    exact (Heap.get?_push _ _ _).trans ((if_neg ne).trans hi)
  maps h := h
  cells := rfl
  channels := rfl
  tables := rfl
  cursors := rfl
  globals _ := rfl

end Store

mutual

theorem Ty.grown_zero (t : Ty) (st : Store) : st.Grown (t.zero st).2 := by
  cases t with
  | bool | int _ | uint _ | float _ | complex _ | string | func _ | chan | any | address =>
    exact .refl st
  | map k e =>
    simp only [Ty.zero]
    exact Store.grown_newMap [] st
  | slice e =>
    simp only [Ty.zero]
    exact Store.grown_newBacking #[] st
  | struct t =>
    simp only [Ty.zero]
    exact StructTy.grown_zero t st
  | ptr e =>
    simp only [Ty.zero]
    exact .refl st

theorem StructTy.grown_zero (t : StructTy) (st : Store) : st.Grown (t.zero st).2 := by
  obtain ⟨name, fields, methods⟩ := t
  simp only [StructTy.zero]
  exact Field.grown_zeros fields st

theorem Field.grown_zeros (fs : List Field) (st : Store) : st.Grown (Field.zeros fs st).2 := by
  match fs with
  | [] =>
    simp only [Field.zeros]
    exact .refl st
  | ⟨_, t, _⟩ :: fs =>
    simp only [Field.zeros]
    exact (Ty.grown_zero t st).trans (Field.grown_zeros fs _)

end

theorem State.grown_modify {f : State → State} (h : ∀ state, (f state).globals = state.globals)
    (st : Store) : st.Grown (State.modify s f st).2 := by
  refine { Store.Grown.refl st with globals := fun i => ?_ }
  change (((st.states.set s (f (st.state s))).get? i).getD {}).globals = _
  rw [Heap.get?_set]
  split
  · rename_i eq
    rw [← eq.1]
    exact h _
  · rfl

theorem State.grown_setSlot (key : String) (slot : Slot) (st : Store) :
    st.Grown (State.setSlot s key slot st).2 :=
  grown_modify (f := fun state => { state with registry := Assoc.put key slot state.registry })
    (fun _ => rfl) st

theorem State.mild_operators : Mild (State.operators s) := by
  apply Mild.get.bind
  intro st
  dsimp only
  split
  · exact Mild.pure _
  · exact Mild.refuse _
  · apply (Mild.lift Store.grown_freshId).bind
    intro set
    exact (Mild.lift (State.grown_setSlot _ _)).bind fun _ => Mild.pure set

namespace Handle

theorem mild_make (kind : HandleKind) (payload : Payload) : Mild (make s kind payload) := by
  apply State.mild_operators.bind
  intro set
  exact (Mild.lift Store.grown_freshId).bind fun _ => Mild.pure _

theorem grown_inert (v : Value) (st : Store) : st.Grown (inert v st).2 := Store.grown_freshId st

end Handle

theorem Value.mild_toScript (v : Value) : Mild (v.toScript s) := by
  match v with
  | .nil | .bool _ | .int .. | .uint .. | .float .. | .string _ | .boxed ⟨_, .script x⟩ =>
    simp only [toScript]
    exact Mild.pure _
  | .func f =>
    simp only [toScript]
    exact Mild.lift Store.grown_freshId
  | .chan _ | .map _ | .slice _ | .struct .. | .ptr _ | .boxed ⟨_, .type t⟩ =>
    simp only [toScript]
    exact Handle.mild_make _ _
  | .boxed ⟨i, .foreign n⟩ =>
    simp only [toScript]
    exact Mild.lift (Handle.grown_inert _)
  | .address a =>
    simp only [toScript]
    exact Mild.lift (Handle.grown_inert _)
  | .complex w x y =>
    simp only [toScript]
    apply Mild.get.bind
    intro st
    split
    · exact Mild.refuse _
    · exact Mild.lift (Handle.grown_inert _)

theorem Script.mild_toHost (hint : Ty) (x : Script) : Mild (x.toHost hint) := by
  match x with
  | .nil =>
    simp only [toHost]
    exact Mild.lift hint.grown_zero
  | .bool b =>
    simp only [toHost]
    split
    · exact Mild.pure _
    · exact Mild.pure _
    · exact Mild.refuse _
  | .number n =>
    simp only [toHost]
    exact Mild.except _
  | .string t =>
    simp only [toHost]
    split
    · exact Mild.pure _
    · exact Mild.pure _
    · exact Mild.refuse _
  | .handle ⟨_, .value v, _⟩ =>
    simp only [toHost]
    exact Mild.pure v
  | .handle ⟨_, .type _, _⟩ | .function _ | .table _ | .state _ =>
    simp only [toHost]
    exact Mild.lift Store.grown_freshId

end HostBridge
