import HostBridge.Proofs.Conversion.RoundTrip

/-! Which host values have a form in the script language. All have one but complex numbers, where
the state refuses them, and values that need an operator table, where the state cannot have any. -/

namespace HostBridge

variable {st st' : Store} {s : Nat}

/-- No object of the host program is in the slot for operator tables. -/
def State.Usable (st : Store) (s : Nat) : Prop :=
  match State.slot? st s (st.state s).config.registryKey with
  | some (.foreign ..) => False
  | _ => True

def Value.HasForm (st : Store) (s : Nat) : Value → Prop
  | .complex .. => (st.state s).config.unsupported = .inert
  | .chan _ | .map _ | .slice _ | .struct .. | .ptr _ | .boxed ⟨_, .type _⟩ => State.Usable st s
  | _ => True

def Value.operators? : Value → Option HandleKind
  | .boxed ⟨_, .type _⟩ => some .type
  | v => (Payload.value v).kind?

inductive Value.Refused (st : Store) (s : Nat) : Value → BridgeError → Prop
  | unsupported {w : FloatWidth} {x y : Double} : (st.state s).config.unsupported = .fatal →
    Refused st s (.complex w x y) (.unsupported (Ty.complex w).text)
  | collision {v : Value} {kind : HandleKind} {id : Nat} {type : String} {value : UInt64} :
    v.operators? = some kind →
      State.slot? st s (st.state s).config.registryKey = some (.foreign id type value) →
      Refused st s v (.registryCollision (st.state s).config.registryKey)

namespace State

theorem not_usable_iff : ¬Usable st s ↔ ∃ id type value,
    slot? st s (st.state s).config.registryKey = some (.foreign id type value) := by
  rw [Usable]
  split
  · rename_i id type value found
    simp [found]
  · rename_i other
    simpa using fun id type value found => other id type value found

theorem setSlot_eq (st : Store) (s : Nat) (key : String) (slot : Slot) :
    (setSlot s key slot st).2 =
      let state := st.state s
      { st with states :=
          st.states.set s { state with registry := Assoc.put key slot state.registry } } := rfl

theorem state_set (st : Store) (s : Nat) (state : State) :
    ({ st with states := st.states.set s state } : Store).state s =
      if s < st.states.size then state else st.state s := by
  simp only [Store.state, Heap.get?_set, true_and]
  split <;> rfl

theorem state_of_not_lt (outside : ¬s < st.states.size) : st.state s = {} := by
  simp only [Heap.size] at outside
  simp only [Store.state, Heap.get?, Array.getElem?_eq_none (Nat.le_of_not_lt outside)]
  rfl

theorem config_setSlot (st : Store) (s : Nat) (key : String) (slot : Slot) :
    ((setSlot s key slot st).2.state s).config = (st.state s).config := by
  rw [setSlot_eq, state_set]
  split <;> rfl

theorem slot?_setSlot (st : Store) (s : Nat) (key : String) (slot : Slot) :
    slot? (setSlot s key slot st).2 s key = if s < st.states.size then some slot else none := by
  rw [slot?, setSlot_eq, state_set]
  split
  · simp only [Assoc.find_put, if_true]
  · rename_i outside
    rw [state_of_not_lt outside]
    rfl

theorem usable_setSlot (st : Store) (s set : Nat) :
    Usable (setSlot s (st.state s).config.registryKey (.operators set) st).2 s := by
  rw [Usable, config_setSlot, slot?_setSlot]
  split <;> simp_all

theorem exists_operators (usable : Usable st s) : ∃ set st', operators s st = .ok set st' ∧
    (st'.state s).config = (st.state s).config ∧ Usable st' s := by
  have read : (get : BridgeM Store) st = .ok st st := rfl
  simp only [operators]
  rw [bind_ok read]
  cases found : slot? st s (st.state s).config.registryKey with
  | none => exact ⟨st.fresh, _, rfl, config_setSlot { st with fresh := st.fresh + 1 } s _ _,
      usable_setSlot { st with fresh := st.fresh + 1 } s _⟩
  | some slot =>
    cases slot with
    | operators set => exact ⟨set, st, rfl, rfl, usable⟩
    | foreign _ _ _ => simp [Usable, found] at usable

theorem operators_of_not_usable (taken : ¬Usable st s) :
    operators s st = .error (.error (.registryCollision (st.state s).config.registryKey)) st := by
  have read : (get : BridgeM Store) st = .ok st st := rfl
  simp only [operators]
  rw [bind_ok read]
  cases found : slot? st s (st.state s).config.registryKey with
  | none => simp [Usable, found] at taken
  | some slot =>
    cases slot with
    | operators _ => simp [Usable, found] at taken
    | foreign _ _ _ => rfl

end State

namespace Handle

theorem exists_make (usable : State.Usable st s) (kind : HandleKind) (payload : Payload) :
    ∃ x st', make s kind payload st = .ok x st' ∧
      (st'.state s).config = (st.state s).config ∧ State.Usable st' s := by
  obtain ⟨set, st₁, built, config, usable₁⟩ := State.exists_operators usable
  simp only [make]
  rw [bind_ok built]
  exact ⟨_, _, rfl, config, usable₁⟩

theorem make_of_not_usable (taken : ¬State.Usable st s) (kind : HandleKind) (payload : Payload) :
    make s kind payload st =
      .error (.error (.registryCollision (st.state s).config.registryKey)) st := by
  simp only [make]
  rw [bind_error (State.operators_of_not_usable taken)]

end Handle

namespace Value

theorem HasForm.of_config {v : Value} (form : v.HasForm st s)
    (config : (st'.state s).config = (st.state s).config)
    (usable : State.Usable st s → State.Usable st' s) : v.HasForm st' s := by
  simp only [HasForm] at form ⊢
  split at form
  · rw [config]
    exact form
  all_goals first | exact usable form | trivial

theorem exists_toScript {v : Value} (form : v.HasForm st s) : ∃ x st', v.toScript s st = .ok x st' ∧
    ∀ {u : Value}, u.HasForm st s → u.HasForm st' s := by
  cases kind : (Payload.value v).kind? with
  | some kind' =>
    rw [toScript_eq_make kind]
    have usable : State.Usable st s := by
      simp only [Payload.kind?] at kind
      split at kind <;> simp_all [HasForm]
    obtain ⟨x, st', made, config, usable'⟩ := Handle.exists_make usable kind' (.value v)
    exact ⟨x, st', made, fun form => form.of_config config fun _ => usable'⟩
  | none =>
    have spent {x : Script} (h : v.toScript s st = .ok x st.spent) : ∃ x st',
        v.toScript s st = .ok x st' ∧ ∀ {u : Value}, u.HasForm st s → u.HasForm st' s :=
      ⟨x, st.spent, h, fun form => form.of_config rfl id⟩
    cases v with
    | nil | bool _ | int _ _ | uint _ _ | float _ _ | string _ => exact ⟨_, st, rfl, id⟩
    | func _ | address _ => exact spent rfl
    | complex _ _ _ => exact spent (toScript_eq_inert form)
    | chan _ | map _ | slice _ | struct _ _ | ptr _ => cases kind
    | boxed b =>
      obtain ⟨_, content⟩ := b
      cases content with
      | script _ => exact ⟨_, st, rfl, id⟩
      | foreign _ => exact spent rfl
      | type t =>
        obtain ⟨x, st', made, config, usable⟩ := Handle.exists_make form .type (.type t)
        exact ⟨x, st', made, fun form => form.of_config config fun _ => usable⟩

theorem exists_refused {v : Value} (formless : ¬v.HasForm st s) : ∃ e, v.Refused st s e := by
  match v, formless with
  | .complex w x y, fatal =>
    refine ⟨_, .unsupported ?_⟩
    cases policy : (st.state s).config.unsupported with
    | fatal => rfl
    | inert => exact absurd policy fatal
  | .chan _, taken | .map _, taken | .slice _, taken | .struct .., taken | .ptr _, taken
  | .boxed ⟨_, .type _⟩, taken =>
    obtain ⟨id, type, value, found⟩ := State.not_usable_iff.mp taken
    exact ⟨_, .collision rfl found⟩
  | .nil, h | .bool _, h | .int .., h | .uint .., h | .float .., h | .string _, h | .func _, h
  | .address _, h | .boxed ⟨_, .script _⟩, h | .boxed ⟨_, .foreign _⟩, h => exact absurd trivial h

theorem toScript_refused {v : Value} {e : BridgeError} (refused : v.Refused st s e) :
    v.toScript s st = .error (.error e) st := by
  cases refused with
  | unsupported fatal =>
    have read : (get : BridgeM Store) st = .ok st st := rfl
    simp only [toScript]
    rw [bind_ok read]
    simp only [fatal]
    rfl
  | collision operators found =>
    have taken := State.not_usable_iff.mpr ⟨_, _, _, found⟩
    cases v with
    | chan | map | slice | struct | ptr => exact Handle.make_of_not_usable taken _ _
    | boxed b =>
      obtain ⟨_, content⟩ := b
      cases content with
      | type _ => exact Handle.make_of_not_usable taken _ _
      | script _ | foreign _ => cases operators
    | nil | bool | int | uint | float | complex | string | func | address => cases operators

theorem toScript_of_not_hasForm {v : Value} (formless : ¬v.HasForm st s) :
    ∃ e, v.toScript s st = .error (.error e) st :=
  (exists_refused formless).imp fun _ => toScript_refused

theorem toScript_eq_error {v : Value} {stop : Stop BridgeError} :
    v.toScript s st = .error stop st' ↔ st' = st ∧ ∃ e, stop = .error e ∧ v.Refused st s e := by
  constructor
  · intro failed
    by_cases form : v.HasForm st s
    · obtain ⟨x, st₁, converted, -⟩ := exists_toScript form
      rw [converted] at failed
      cases failed
    · obtain ⟨e, refused⟩ := exists_refused form
      rw [toScript_refused refused] at failed
      cases failed
      exact ⟨rfl, e, rfl, refused⟩
  · rintro ⟨rfl, e, rfl, refused⟩
    exact toScript_refused refused

end Value

end HostBridge
