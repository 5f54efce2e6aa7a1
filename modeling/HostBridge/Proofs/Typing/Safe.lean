import HostBridge.Proofs.Typing.Store

namespace HostBridge

variable {worker : Option Nat} {W : World} {ε α β : Type}

def Keeps (worker : Option Nat) (W : World) (x : StateM Store α) (Q : World → α → Prop) : Prop :=
  ∀ st, Store.Typed W st →
    ∃ W', W.Extends worker W' ∧ Store.Typed W' (x st).2 ∧ Q W' (x st).1

/-- The computation gives a result with the property or stops, and leaves the store typed. -/
def Safe (worker : Option Nat) (W : World) (x : EStateM ε Store α) (Q : World → α → Prop) : Prop :=
  ∀ st, Store.Typed W st → match x st with
    | .ok a st' => ∃ W', W.Extends worker W' ∧ Store.Typed W' st' ∧ Q W' a
    | .error _ st' => ∃ W', W.Extends worker W' ∧ Store.Typed W' st'

namespace Keeps

variable {Q R : World → α → Prop}

theorem pure {a : α} (h : Q W a) : Keeps worker W (Pure.pure a) Q :=
  fun _ ht => ⟨W, .refl W, ht, h⟩

theorem imp {x : StateM Store α} (hx : Keeps worker W x Q) (h : ∀ W' a, Q W' a → R W' a) :
    Keeps worker W x R := by
  intro st ht
  obtain ⟨W', le, ht', hq⟩ := hx st ht
  exact ⟨W', le, ht', h W' _ hq⟩

theorem bind {x : StateM Store α} {f : α → StateM Store β} {R : World → β → Prop}
    (hx : Keeps worker W x Q)
    (hf : ∀ W' a, W.Extends worker W' → Q W' a → Keeps worker W' (f a) R) :
    Keeps worker W (x >>= f) R := by
  intro st ht
  obtain ⟨W', le, ht', hq⟩ := hx st ht
  obtain ⟨W'', le', ht'', hr⟩ := hf W' _ le hq _ ht'
  exact ⟨W'', le.trans le', ht'', hr⟩

theorem modifyGet {f : Store → α × Store}
    (h : ∀ st, Store.Typed W st →
      ∃ W', W.Extends worker W' ∧ Store.Typed W' (f st).2 ∧ Q W' (f st).1) :
    Keeps worker W (MonadStateOf.modifyGet f : StateM Store α) Q := h

end Keeps

namespace Safe

variable {Q : World → α → Prop} {R : World → β → Prop}

theorem pure {a : α} (h : Q W a) : Safe worker W (Pure.pure a : EStateM ε Store α) Q :=
  fun _ ht => ⟨W, .refl W, ht, h⟩

theorem throw {e : ε} : Safe worker W (MonadExcept.throw e : EStateM ε Store α) Q :=
  fun _ ht => ⟨W, .refl W, ht⟩

theorem fail {e : HostError} : Safe worker W (HostM.fail e : HostM α) Q := throw

theorem refuse {e : BridgeError} : Safe worker W (BridgeM.fail e : BridgeM α) Q := throw

theorem imp {x : EStateM ε Store α} {Q' : World → α → Prop} (hx : Safe worker W x Q)
    (h : ∀ W' a, Q W' a → Q' W' a) : Safe worker W x Q' := by
  intro st ht
  have := hx st ht
  split at this
  · obtain ⟨W', le, ht', hq⟩ := this
    exact ⟨W', le, ht', h W' _ hq⟩
  · exact this

theorem bind {x : EStateM ε Store α} {f : α → EStateM ε Store β} (hx : Safe worker W x Q)
    (hf : ∀ W' a, W.Extends worker W' → Q W' a → Safe worker W' (f a) R) :
    Safe worker W (x >>= f) R := by
  intro st ht
  have first := hx st ht
  split at first
  · rename_i a st' eq
    obtain ⟨W', le, ht', hq⟩ := first
    have second := hf W' a le hq st' ht'
    rw [bind_ok eq]
    split at second
    · obtain ⟨W'', le', ht'', hr⟩ := second
      exact ⟨W'', le.trans le', ht'', hr⟩
    · obtain ⟨W'', le', ht''⟩ := second
      exact ⟨W'', le.trans le', ht''⟩
  · rename_i eq
    rw [bind_error eq]
    exact first

theorem bind_of_false {x : EStateM ε Store α} {f : α → EStateM ε Store β}
    (hx : Safe worker W x fun _ _ => False) : Safe worker W (x >>= f) R :=
  hx.bind fun _ _ _ h => h.elim

theorem none {x : EStateM ε Store α} {P : World → β → Prop} (hx : Safe worker W x Q) :
    Safe worker W (x >>= fun _ => Pure.pure []) fun W' bs => ∀ b ∈ bs, P W' b := by
  apply hx.bind
  intro W' a _ _
  exact pure (by simp)

theorem one {x : EStateM ε Store α} {f : α → β} {P : World → β → Prop}
    (hx : Safe worker W x fun W' a => P W' (f a)) :
    Safe worker W (x >>= fun a => Pure.pure [f a]) fun W' bs => ∀ b ∈ bs, P W' b := by
  apply hx.bind
  intro W' a _ h
  exact pure (List.forall_mem_singleton.mpr h)

theorem guard {c : Prop} [Decidable c] {e : BridgeError} {f : Unit → BridgeM β}
    (h : ¬c → Safe worker W (f ()) R) :
    Safe worker W (if c then BridgeM.fail e >>= f else f ()) R := by
  split
  · exact bind_of_false refuse
  · rename_i passed
    exact h passed

theorem get_bind {f : Store → EStateM ε Store β}
    (h : ∀ st, Store.Typed W st → Safe worker W (f st) R) : Safe worker W (get >>= f) R :=
  bind (Q := fun W' st => Store.Typed W' st ∧ W' = W) (fun _ ht => ⟨W, .refl W, ht, ht, rfl⟩)
    fun _ st _ hst => hst.2 ▸ h st (hst.2 ▸ hst.1)

theorem set {st : Store} {Q : World → PUnit → Prop} (ht : Store.Typed W st) (h : Q W ⟨⟩) :
    Safe worker W (MonadStateOf.set st : EStateM ε Store PUnit) Q :=
  fun _ _ => ⟨W, .refl W, ht, h⟩

theorem modify {f : Store → Store} (h : ∀ st, Store.Typed W st → Store.Typed W (f st)) :
    Safe worker W (modify f : EStateM ε Store PUnit) fun _ _ => True :=
  fun st ht => ⟨W, .refl W, h st ht, trivial⟩

theorem lift {x : StateM Store α} (hx : Keeps worker W x Q) :
    Safe worker W (liftM x : EStateM ε Store α) Q := hx

theorem lift_bind {x : StateM Store α} {f : α → EStateM ε Store β} (hx : Keeps worker W x Q)
    (hf : ∀ W' a, W.Extends worker W' → Q W' a → Safe worker W' (f a) R) :
    Safe worker W (liftM x >>= f) R := (lift hx).bind hf

theorem except_bind {x : Except ε α} {f : α → EStateM (Stop ε) Store β}
    (h : ∀ a, x = .ok a → Safe worker W (f a) R) : Safe worker W (liftM x >>= f) R := by
  cases x with
  | ok a => exact h a rfl
  | error e => exact bind_of_false throw

theorem except {x : Except ε α} (h : ∀ a, x = .ok a → Q W a) :
    Safe worker W (liftM x : EStateM (Stop ε) Store α) Q := by
  cases x with
  | ok a => exact pure (h a rfl)
  | error e => exact throw

theorem host {x : HostM α} (hx : Safe worker W x Q) :
    Safe worker W (liftM x : BridgeM α) Q := by
  intro st ht
  have := hx st ht
  split at this
  · rename_i eq
    rw [host_ok eq]
    exact this
  · rename_i eq
    rw [host_error eq]
    exact this

theorem hostExcept_bind {x : Except HostError α} {f : α → BridgeM β}
    (h : ∀ a, x = .ok a → Safe worker W (f a) R) : Safe worker W (liftM x >>= f) R := by
  cases x with
  | ok a => exact h a rfl
  | error e => exact bind_of_false (refuse (e := .ofHost e))

theorem rescue {x : BridgeM α} (hx : Safe worker W x Q) : Safe worker W (BridgeM.rescue x) Q := by
  intro st ht
  have := hx st ht
  simp only [BridgeM.rescue]
  split at this
  · rename_i eq
    rw [eq]
    exact this
  · rename_i stop _ eq
    rw [eq]
    cases stop <;> exact this

theorem check_bind {t : Ty} {v : Value} {f : Unit → HostM β}
    (h : t.accepts v = true → Safe worker W (f ()) R) :
    Safe worker W (HostM.check t v >>= f) R := by
  simp only [HostM.check]
  split
  · rename_i accepted
    exact h accepted
  · exact bind_of_false fail

end Safe

end HostBridge
