import HostBridge.Bridge.Assign
import HostBridge.Proofs.Conversion.Form

namespace HostBridge

variable {S T : Store → Store → Prop} {N : Nat → Nat → Prop} {s : Nat} {st st' : Store}

/-- Both runs give related results, or both stop in the same way, in related stores. -/
inductive Agree {ε α β : Type} (S : Store → Store → Prop) (R : α → β → Prop) :
    EStateM.Result (Stop ε) Store α → EStateM.Result (Stop ε) Store β → Prop
  | ok {a : α} {b : β} {st st' : Store} : R a b → S st st' → Agree S R (.ok a st) (.ok b st')
  | error {stop : Stop ε} {st st' : Store} : S st st' →
    Agree S R (.error stop st) (.error stop st')

namespace Agree

variable {ε α β γ δ : Type} {R : α → β → Prop} {Q : γ → δ → Prop}

theorem imp {R' : α → β → Prop} {r : EStateM.Result (Stop ε) Store α}
    {r' : EStateM.Result (Stop ε) Store β} (h : Agree S R r r') (hR : ∀ a b, R a b → R' a b)
    (hS : ∀ st st', S st st' → T st st') : Agree T R' r r' := by
  cases h with
  | ok related alike => exact .ok (hR _ _ related) (hS _ _ alike)
  | error alike => exact .error (hS _ _ alike)

theorem bind {x : EStateM (Stop ε) Store α} {y : EStateM (Stop ε) Store β}
    {f : α → EStateM (Stop ε) Store γ} {g : β → EStateM (Stop ε) Store δ}
    (hx : Agree S R (x st) (y st'))
    (hf : ∀ a b st₁ st₁', R a b → S st₁ st₁' → Agree T Q (f a st₁) (g b st₁'))
    (weaken : ∀ st st', S st st' → T st st') : Agree T Q ((x >>= f) st) ((y >>= g) st') := by
  cases eq : x st with
  | ok a st₁ =>
    cases eq' : y st' with
    | ok b st₁' =>
      rw [eq, eq'] at hx
      cases hx with
      | ok related alike =>
        rw [bind_ok eq, bind_ok eq']
        exact hf a b st₁ st₁' related alike
    | error stop st₁' =>
      rw [eq, eq'] at hx
      cases hx
  | error stop st₁ =>
    cases eq' : y st' with
    | ok b st₁' =>
      rw [eq, eq'] at hx
      cases hx
    | error stop' st₁' =>
      rw [eq, eq'] at hx
      cases hx with
      | error alike =>
        rw [bind_error eq, bind_error eq']
        exact .error (weaken st₁ st₁' alike)

theorem host {x : HostM α} {y : HostM β} (h : Agree S R (x st) (y st')) :
    Agree S R ((liftM x : BridgeM α) st) ((liftM y : BridgeM β) st') := by
  cases eq : x st with
  | ok a st₁ =>
    cases eq' : y st' with
    | ok b st₁' =>
      rw [eq, eq'] at h
      rw [host_ok eq, host_ok eq']
      cases h with
      | ok related alike => exact .ok related alike
    | error stop st₁' =>
      rw [eq, eq'] at h
      cases h
  | error stop st₁ =>
    cases eq' : y st' with
    | ok b st₁' =>
      rw [eq, eq'] at h
      cases h
    | error stop' st₁' =>
      rw [eq, eq'] at h
      rw [host_error eq, host_error eq']
      cases h with
      | error alike => exact .error alike

end Agree

/-- Stores that are alike give the next objects numbers that are related, and new storage of values
the same place, and they stay alike. -/
structure Allocates (S : Store → Store → Prop) (N : Nat → Nat → Prop) : Prop where
  fresh : ∀ {st st'}, S st st' → N st.fresh st'.fresh
  spent : ∀ {st st'}, S st st' → S st.spent st'.spent
  map : ∀ {st st'}, S st st' → (Store.newMap [] st).1 = (Store.newMap [] st').1 ∧
    S (Store.newMap [] st).2 (Store.newMap [] st').2
  backing : ∀ {st st'}, S st st' → (Store.newBacking #[] st).1 = (Store.newBacking #[] st').1 ∧
    S (Store.newBacking #[] st).2 (Store.newBacking #[] st').2

theorem Allocates.carry (allocates : Allocates S N) {Q : Store → Prop}
    (spent : ∀ {st}, Q st → Q st.spent) (map : ∀ {st}, Q st → Q (Store.newMap [] st).2)
    (backing : ∀ {st}, Q st → Q (Store.newBacking #[] st).2) :
    Allocates (fun st st' => S st st' ∧ Q st) N where
  fresh h := allocates.fresh h.1
  spent h := ⟨allocates.spent h.1, spent h.2⟩
  map h := ⟨(allocates.map h.1).1, (allocates.map h.1).2, map h.2⟩
  backing h := ⟨(allocates.backing h.1).1, (allocates.backing h.1).2, backing h.2⟩

theorem Allocates.eq : Allocates Eq Eq where
  fresh h := congrArg Store.fresh h
  spent h := congrArg Store.spent h
  map := by
    rintro st _ rfl
    exact ⟨rfl, rfl⟩
  backing := by
    rintro st _ rfl
    exact ⟨rfl, rfl⟩

structure Dispatches (s : Nat) (S : Store → Store → Prop) (N : Nat → Nat → Prop) : Prop where
  fresh : ∀ {st st'}, S st st' → N st.fresh st'.fresh
  spent : ∀ {st st'}, S st st' → S st.spent st'.spent
  operators : ∀ {st st'}, S st st' →
    Agree S (fun set set' => set = set' ∨ N set set') (State.operators s st) (State.operators s st')
  policy : ∀ {st st'}, S st st' →
    (st.state s).config.unsupported = (st'.state s).config.unsupported

theorem Dispatches.of_states
    (same : ∀ {st st' : Store}, S st st' → st.states = st'.states ∧ st.fresh = st'.fresh)
    (closed : ∀ {st st' : Store}, S st st' → ∀ states fresh,
      S { st with states, fresh } { st' with states, fresh }) (s : Nat) : Dispatches s S Eq where
  fresh h := (same h).2
  spent := by
    rintro ⟨_, _, _, _, _, _, states, fresh⟩ ⟨_, _, _, _, _, _, states', fresh'⟩ h
    obtain ⟨rfl, rfl⟩ : states = states' ∧ fresh = fresh' := same h
    exact closed h states (fresh + 1)
  operators := by
    rintro ⟨_, _, _, _, _, _, states, fresh⟩ ⟨_, _, _, _, _, _, states', fresh'⟩ h
    obtain ⟨rfl, rfl⟩ : states = states' ∧ fresh = fresh' := same h
    simp only [State.operators]
    rw [get_bind, get_bind]
    simp only [State.slot?, Store.state]
    cases Assoc.find ((states.get? s).getD {}).config.registryKey
      ((states.get? s).getD {}).registry with
    | some slot =>
      cases slot with
      | operators set => exact .ok (.inl rfl) h
      | foreign _ _ _ => exact .error h
    | none => exact .ok (.inl rfl) (closed h _ (fresh + 1))
  policy h := by
    have states := (same h).1
    simp only [Store.state, states]

theorem Dispatches.eq (s : Nat) : Dispatches s Eq Eq := by
  refine .of_states ?_ ?_ s
  · rintro st _ rfl
    exact ⟨rfl, rfl⟩
  · rintro st _ rfl _ _
    rfl

inductive Value.Renewed (N : Nat → Nat → Prop) : Value → Value → Prop
  | same (v : Value) : Renewed N v v
  | boxed {i j : Nat} {content : Content} : N i j →
    Renewed N (.boxed ⟨i, content⟩) (.boxed ⟨j, content⟩)

/-- The same script value, or handles of the same payload or functions that do the same, which were
made in either run. -/
inductive Script.Renewed (N : Nat → Nat → Prop) : Script → Script → Prop
  | same (x : Script) : Renewed N x x
  | handle {i j set set' : Nat} {kind : HandleKind} {payload : Payload} : N i j →
    set = set' ∨ N set set' →
      Renewed N (.handle ⟨i, payload, some ⟨set, kind⟩⟩) (.handle ⟨j, payload, some ⟨set', kind⟩⟩)
  | inert {i j : Nat} {payload : Payload} : N i j →
    Renewed N (.handle ⟨i, payload, none⟩) (.handle ⟨j, payload, none⟩)
  | function {i j : Nat} {name : String} {code : Code} : N i j →
    Renewed N (.function ⟨i, name, code⟩) (.function ⟨j, name, code⟩)

mutual

theorem Ty.zero_alike (allocates : Allocates S N) (t : Ty) {st st' : Store} (alike : S st st') :
    (t.zero st).1 = (t.zero st').1 ∧ S (t.zero st).2 (t.zero st').2 := by
  cases t with
  | bool | int _ | uint _ | float _ | complex _ | string | func _ | chan | any | address | ptr _ =>
    exact ⟨rfl, alike⟩
  | map k e =>
    obtain ⟨same, alike'⟩ := allocates.map alike
    exact ⟨congrArg (fun i => Value.map ⟨k, e, i⟩) same, alike'⟩
  | slice e =>
    obtain ⟨same, alike'⟩ := allocates.backing alike
    exact ⟨congrArg (fun i => Value.slice ⟨e, i, 0, 0, 0⟩) same, alike'⟩
  | struct t => exact StructTy.zero_alike allocates t alike

theorem StructTy.zero_alike (allocates : Allocates S N) (t : StructTy) {st st' : Store}
    (alike : S st st') : (t.zero st).1 = (t.zero st').1 ∧ S (t.zero st).2 (t.zero st').2 := by
  obtain ⟨name, fields, methods⟩ := t
  obtain ⟨same, alike'⟩ := Field.zeros_alike allocates fields alike
  exact ⟨congrArg (Value.struct ⟨name, fields, methods⟩) same, alike'⟩

theorem Field.zeros_alike (allocates : Allocates S N) (fs : List Field) {st st' : Store}
    (alike : S st st') : (Field.zeros fs st).1 = (Field.zeros fs st').1 ∧
      S (Field.zeros fs st).2 (Field.zeros fs st').2 := by
  match fs with
  | [] => exact ⟨rfl, alike⟩
  | ⟨_, t, _⟩ :: fs =>
    obtain ⟨same, alike₁⟩ := Ty.zero_alike allocates t alike
    obtain ⟨same', alike₂⟩ := Field.zeros_alike allocates fs alike₁
    exact ⟨List.cons_eq_cons.mpr ⟨same, same'⟩, alike₂⟩

end

namespace Script

def content? : Script → Option Content
  | .handle ⟨_, .type t, _⟩ => some (.type t)
  | .function f => some (.script (.function f))
  | .table i => some (.script (.table i))
  | .state i => some (.script (.state i))
  | _ => none

theorem toHost_of_content {x : Script} {content : Content} (h : x.content? = some content)
    (hint : Ty) (st : Store) : x.toHost hint st = .ok (.boxed ⟨st.fresh, content⟩) st.spent := by
  match x, h with
  | .handle ⟨_, .type _, _⟩, h | .function _, h | .table _, h | .state _, h =>
    cases h
    rfl

theorem toHost_alike (allocates : Allocates S N) {x : Script} (h : x.content? = none) (hint : Ty)
    (alike : S st st') : Agree S Eq (x.toHost hint st) (x.toHost hint st') := by
  match x, h with
  | .nil, _ =>
    obtain ⟨same, alike'⟩ := hint.zero_alike allocates alike
    exact .ok same alike'
  | .bool b, _ =>
    simp only [toHost]
    split
    · exact .ok rfl alike
    · exact .ok rfl alike
    · exact .error alike
  | .number n, _ =>
    simp only [toHost]
    cases hint.ofNumber n with
    | ok v => exact .ok rfl alike
    | error e => exact .error alike
  | .string _, _ =>
    simp only [toHost]
    split
    · exact .ok rfl alike
    · exact .ok rfl alike
    · exact .error alike
  | .handle ⟨_, .value v, _⟩, _ => exact .ok rfl alike

theorem toHost_renewed (allocates : Allocates S N) (x : Script) (hint : Ty) (alike : S st st') :
    Agree S (Value.Renewed N) (x.toHost hint st) (x.toHost hint st') := by
  cases h : x.content? with
  | some content =>
    rw [toHost_of_content h, toHost_of_content h]
    exact .ok (.boxed (allocates.fresh alike)) (allocates.spent alike)
  | none =>
    refine (toHost_alike allocates h hint alike).imp ?_ fun _ _ alike => alike
    rintro v _ rfl
    exact .same v

theorem keeps_toHost {Q : Store → Prop} (spent : ∀ {st}, Q st → Q st.spent)
    (map : ∀ {st}, Q st → Q (Store.newMap [] st).2)
    (backing : ∀ {st}, Q st → Q (Store.newBacking #[] st).2) {x : Script} {hint : Ty} {v : Value}
    (h : Q st) (converted : x.toHost hint st = .ok v st') : Q st' := by
  have allocates : Allocates (fun st st' => st = st' ∧ Q st) Eq :=
    Allocates.eq.carry (fun h => spent h) (fun h => map h) fun h => backing h
  have alike : st = st ∧ Q st := ⟨rfl, h⟩
  have run := x.toHost_renewed allocates hint alike
  rw [converted] at run
  cases run with
  | ok _ kept => exact kept.2

end Script

theorem Closure.make_renewed (dispatches : Dispatches s S N) (name : String) (code : Code)
    (alike : S st st') :
    Agree S (Script.Renewed N) ((Closure.make name code : BridgeM Script) st)
      ((Closure.make name code : BridgeM Script) st') :=
  .ok (.function (dispatches.fresh alike)) (dispatches.spent alike)

theorem Handle.make_alike (dispatches : Dispatches s S N) (kind : HandleKind)
    (payload payload' : Payload) (alike : S st st') :
    Agree S (fun x y => ∃ i j set set', N i j ∧ (set = set' ∨ N set set') ∧
        x = .handle ⟨i, payload, some ⟨set, kind⟩⟩ ∧ y = .handle ⟨j, payload', some ⟨set', kind⟩⟩)
      (Handle.make s kind payload st) (Handle.make s kind payload' st') := by
  simp only [make]
  refine (dispatches.operators alike).bind ?_ fun _ _ alike => alike
  intro set set' st₁ st₁' sets alike₁
  exact .ok ⟨_, _, set, set', dispatches.fresh alike₁, sets, rfl, rfl⟩ (dispatches.spent alike₁)

theorem Handle.make_renewed (dispatches : Dispatches s S N) (kind : HandleKind)
    (payload : Payload) (alike : S st st') :
    Agree S (Script.Renewed N) (Handle.make s kind payload st)
      (Handle.make s kind payload st') := by
  refine (make_alike dispatches kind payload payload alike).imp ?_ fun _ _ alike => alike
  rintro _ _ ⟨i, j, set, set', fresh, sets, rfl, rfl⟩
  exact .handle fresh sets

theorem Handle.inert_renewed (dispatches : Dispatches s S N) (v : Value) (alike : S st st') :
    Agree S (Script.Renewed N) ((Handle.inert v : BridgeM Script) st)
      ((Handle.inert v : BridgeM Script) st') :=
  .ok (.inert (dispatches.fresh alike)) (dispatches.spent alike)

/-- A value becomes the same script value in both runs, or handles of it that differ in nothing but
their numbers. -/
theorem Value.toScript_renewed (dispatches : Dispatches s S N) (v : Value) (alike : S st st') :
    Agree S (Script.Renewed N) (v.toScript s st) (v.toScript s st') := by
  match v with
  | .nil | .bool _ | .int .. | .uint .. | .float .. | .string _ | .boxed ⟨_, .script _⟩ =>
    exact .ok (.same _) alike
  | .func f => exact Closure.make_renewed dispatches _ _ alike
  | .chan _ | .map _ | .slice _ | .struct .. | .ptr _ | .boxed ⟨_, .type _⟩ =>
    exact Handle.make_renewed dispatches _ _ alike
  | .boxed ⟨_, .foreign _⟩ | .address _ => exact Handle.inert_renewed dispatches _ alike
  | .complex w x y =>
    simp only [toScript]
    rw [get_bind, get_bind]
    have policy := dispatches.policy alike
    cases eq : (st.state s).config.unsupported with
    | fatal =>
      rw [eq] at policy
      simp only [← policy]
      exact .error alike
    | inert =>
      rw [eq] at policy
      simp only [← policy]
      exact Handle.inert_renewed dispatches _ alike

end HostBridge
