import HostBridge.Proofs.Assignment.Alike
import HostBridge.Proofs.Pointer.Pointee

namespace HostBridge

variable {s c : Nat} {st st' : Store} {h d : Handle} {p : Pointer} {w : Value}

theorem Value.Forwarded.exists_kind (forwarded : w.Forwarded) :
    ∃ kind, (Payload.value w).kind? = some kind := by
  cases forwarded <;> exact ⟨_, rfl⟩

theorem Value.exists_toScript_alike {kind : HandleKind} (usable : State.Usable st s)
    (hkind : (Payload.value w).kind? = some kind) :
    ∃ i set st₁, w.toScript s st = .ok (.handle ⟨i, .value w, some ⟨set, kind⟩⟩) st₁ ∧
      st.fresh ≤ i ∧ Store.Alike st.fresh s st st₁ := by
  rw [Value.toScript_eq_make hkind]
  exact Store.exists_make_alike usable kind (.value w)

theorem Ty.forwards_of_same {t u : Ty} (same : t.same u = true) (h : u.forwards = true) :
    t.forwards = true := by
  cases u with
  | map _ _ | slice _ =>
    cases t with
    | map _ _ | slice _ => rfl
    | func f =>
      obtain ⟨_, _, _⟩ := f
      simp [ident, Signature.ident] at same
    | _ => simp [ident] at same
  | _ => simp [forwards] at h

theorem Ty.exists_struct_of_same {t : Ty} {u : StructTy} (same : t.same (.struct u) = true) :
    ∃ declared, t = .struct declared := by
  cases t with
  | struct declared => exact ⟨declared, rfl⟩
  | func f =>
    obtain ⟨_, _, _⟩ := f
    simp [ident, Signature.ident] at same
  | _ => simp [ident] at same

theorem Ty.not_forwards_of_same {t : Ty} {u : StructTy} (same : t.same (.struct u) = true) :
    t.forwards = false := by
  obtain ⟨declared, rfl⟩ := exists_struct_of_same same
  rfl

namespace Script

theorem index_ptr_made (isOf : h.IsOf (.ptr p)) (cell : p.cell = some c)
    (held : st.cells.get? c = some w) (forwarded : w.Forwarded) (s : Nat) (key : Script) :
    (Script.handle h).index s key st = (do
      let d ← w.toScript s
      d.index s key : BridgeM Script) st := by
  obtain ⟨kind, hkind⟩ := forwarded.exists_kind
  have direct : Handle.IsOf ⟨0, .value w, some ⟨0, kind⟩⟩ w := ⟨rfl, hkind.symm⟩
  rw [index_ptr isOf, Pointer.index_forwarded cell held forwarded direct]
  cases made : w.toScript s st with
  | error stop st₁ => rw [bind_error made, bind_error made]
  | ok d st₁ =>
    rw [bind_ok made, bind_ok made]
    rw [Value.toScript_eq_make hkind] at made
    obtain ⟨i, set, rfl⟩ := Handle.eq_of_make made
    cases forwarded <;> cases hkind <;> rfl

theorem setIndex_ptr_made (isOf : h.IsOf (.ptr p)) (same : p.elem.same w.type = true)
    (cell : p.cell = some c) (held : st.cells.get? c = some w) (forwards : w.type.forwards = true)
    (s : Nat) (key value : Script) :
    (Script.handle h).setIndex s key value st = (do
      let d ← w.toScript s
      d.setIndex s key value : BridgeM Unit) st := by
  have elem := Ty.forwards_of_same same forwards
  cases w with
  | map _ | slice _ =>
    rw [setIndex_forwarded isOf elem cell held (by simp) rfl]
    cases made : (Value.toScript s _ st : EStateM.Result _ _ Script) with
    | error stop st₁ => rw [bind_error made, bind_error made]
    | ok d st₁ =>
      rw [bind_ok made, bind_ok made]
      rw [Value.toScript_eq_make rfl] at made
      obtain ⟨i, set, rfl⟩ := Handle.eq_of_make made
      rw [setIndex_direct (by simp)]
  | _ => simp [Value.type, Ty.forwards, Chan.type, Pointer.type] at forwards

theorem index_ptr_alike (usable : State.Usable st s) (isOf : h.IsOf (.ptr p)) (direct : d.IsOf w)
    (cell : p.cell = some c) (held : st.cells.get? c = some w) (forwarded : w.Forwarded)
    {key : Script} (apart : ∀ m, w = .map m → key.content?.isSome = true → m.Apart st.fresh st) :
    Agree (Store.Alike st.fresh s) (Script.Renewed (Later st.fresh))
      ((Script.handle d).index s key st) ((Script.handle h).index s key st) := by
  rw [index_ptr isOf, Pointer.index_forwarded cell held forwarded direct]
  obtain ⟨kind, hkind⟩ := forwarded.exists_kind
  obtain ⟨i, set, st₁, made, -, alike⟩ := Value.exists_toScript_alike usable hkind
  rw [bind_ok made]
  cases forwarded with
  | map m =>
    obtain ⟨j, set', rfl⟩ := direct.exists_eq rfl
    exact m.index_alike alike key (apart m rfl)
  | slice w =>
    obtain ⟨j, set', rfl⟩ := direct.exists_eq rfl
    exact w.index_alike alike key
  | chan c =>
    obtain ⟨j, set', rfl⟩ := direct.exists_eq rfl
    exact c.index_alike alike key

theorem setIndex_ptr_alike (usable : State.Usable st s) (isOf : h.IsOf (.ptr p))
    (direct : d.IsOf w) (same : p.elem.same w.type = true) (cell : p.cell = some c)
    (held : st.cells.get? c = some w) (forwards : w.type.forwards = true) {key : Script}
    (value : Script) (apart : ∀ m, w = .map m → key.content?.isSome = true → m.Apart st.fresh st) :
    Agree (Store.Renewed (Later st.fresh)) (fun _ _ => True)
      ((Script.handle d).setIndex s key value st) ((Script.handle h).setIndex s key value st) := by
  have elem := Ty.forwards_of_same same forwards
  cases w with
  | map m =>
    obtain ⟨j, set', rfl⟩ := direct.exists_eq rfl
    rw [setIndex_direct (by simp), setIndex_forwarded isOf elem cell held (by simp) rfl]
    obtain ⟨i, set, st₁, made, -, alike⟩ := Value.exists_toScript_alike (w := .map m) usable rfl
    rw [bind_ok made]
    exact m.assign_alike alike key value (apart m rfl)
  | slice w =>
    obtain ⟨j, set', rfl⟩ := direct.exists_eq rfl
    rw [setIndex_direct (by simp), setIndex_forwarded isOf elem cell held (by simp) rfl]
    obtain ⟨i, set, st₁, made, -, alike⟩ := Value.exists_toScript_alike (w := .slice w) usable rfl
    rw [bind_ok made]
    exact w.assign_alike alike key value
  | _ => simp [Value.type, Ty.forwards, Chan.type, Pointer.type] at forwards

end Script

namespace StructTy

variable {t : StructTy} {vs us : List Value}

/-- The name is one of a method that takes a pointer, and no exported field hides it. -/
structure PointerMethod (t : StructTy) (name : String) (m : Method) : Prop where
  noField : t.exported? name = none
  method : t.method? name = some m
  receiver : m.receiver = .pointer

theorem index_via {key : Script} (other : ∀ name m, key = .string name → ¬t.PointerMethod name m)
    (s : Nat) (vs : List Value) (p : Pointer) :
    t.index s vs (some p) key = t.index s vs none key := by
  simp only [index]
  split
  · rename_i name text
    have named : key = .string name := by
      cases key <;> cases text
      rfl
    simp only [member]
    cases noField : t.exported? name with
    | some _ => rfl
    | none =>
      cases method : t.method? name with
      | none => rfl
      | some m =>
        cases receiver : m.receiver with
        | value => simp only [receiver]
        | pointer => exact absurd ⟨noField, method, receiver⟩ (other name m named)
  · rfl

theorem PointerMethod.index_some {name : String} {m : Method} (found : t.PointerMethod name m)
    (s : Nat) (vs : List Value) (p : Pointer) (st : Store) :
    t.index s vs (some p) (.string name) st =
      .ok (.function ⟨st.fresh, name, .method m.func (.ptr p)⟩) st.spent := by
  simp only [index, Script.asText?, member, found.noField, found.method, found.receiver]
  rfl

theorem PointerMethod.index_none {name : String} {m : Method} (found : t.PointerMethod name m)
    (s : Nat) (vs : List Value) : t.index s vs none (.string name) = pure .nil := by
  simp only [index, Script.asText?, member, found.noField, found.method, found.receiver]

theorem index_exported {name : String} {i : Nat} {f : Field} {v : Value}
    (exported : t.exported? name = some (i, f)) (stored : vs[i]? = some v) (s : Nat)
    (via : Option Pointer) : t.index s vs via (.string name) = v.toScript s := by
  simp only [index, Script.asText?, member, exported, stored, Option.getD_some]

theorem index_renewed {S : Store → Store → Prop} {N : Nat → Nat → Prop}
    (dispatches : Dispatches s S N) (alike : S st st') (t : StructTy) (vs : List Value)
    (via : Option Pointer) (key : Script) :
    Agree S (Script.Renewed N) (t.index s vs via key st) (t.index s vs via key st') := by
  simp only [index]
  cases key.asText? with
  | none => exact .ok (.same _) alike
  | some name =>
    simp only [member]
    cases t.exported? name with
    | some _ => exact Value.toScript_renewed dispatches _ alike
    | none =>
      cases t.method? name with
      | none => exact .ok (.same _) alike
      | some m =>
        simp only
        cases m.receiver with
        | value => exact Closure.make_renewed dispatches _ _ alike
        | pointer =>
          cases via with
          | none => exact .ok (.same _) alike
          | some p => exact Closure.make_renewed dispatches _ _ alike

end StructTy

namespace Pointer

variable {t : StructTy} {vs : List Value} {key value : Script}

structure Assigned (t : StructTy) (vs : List Value) (c s : Nat) (key value : Script)
    (st st' : Store) : Prop where
  field : ∃ name i f v st₁, key = .string name ∧ t.exported? name = some (i, f) ∧
    value.toHost f.type st = .ok v st₁ ∧ st.Grown st₁ ∧
    st' = { st₁ with cells := st₁.cells.set c (.struct t (vs.set i v)) } ∧
    ∀ {h : Handle} {q : Pointer}, h.IsOf (.ptr q) → q.cell = some c →
      (Script.handle h).index s key st' = v.toScript s st'
  copies : ∀ {g : Handle} {u : StructTy} {us : List Value}, g.IsOf (.struct u us) → ∀ key,
    Agree (Store.Abreast st.fresh s) (Script.Renewed (Later st.fresh))
      ((Script.handle g).index s key st) ((Script.handle g).index s key st')

theorem index_of_set (isOf : h.IsOf (.ptr p)) (cell : p.cell = some c)
    (held : st.cells.get? c = some (.struct t vs)) (length : vs.length = t.fields.length)
    {name : String} {i : Nat} {f : Field} (exported : t.exported? name = some (i, f)) (v : Value)
    (s : Nat) :
    let st' := { st with cells := st.cells.set c (.struct t (vs.set i v)) }
    (Script.handle h).index s (.string name) st' = v.toScript s st' := by
  have inside : i < vs.length := by
    obtain ⟨declared, _⟩ := StructTy.field_of_exported? exported
    exact length ▸ (List.getElem?_eq_some_iff.mp declared).1
  intro st'
  rw [Script.index_ptr isOf, index_struct cell (Heap.get?_set_self held _)]
  rw [StructTy.index_exported exported (List.getElem?_set_self inside)]

theorem assigned_of_ok (usable : State.Usable st s) (isOf : h.IsOf (.ptr p))
    (same : p.elem.same (.struct t) = true) (cell : p.cell = some c)
    (held : st.cells.get? c = some (.struct t vs)) (length : vs.length = t.fields.length)
    (done : (Script.handle h).setIndex s key value st = .ok () st') :
    Assigned t vs c s key value st st' := by
  rw [Script.setIndex_ptr isOf (Ty.not_forwards_of_same same)] at done
  obtain ⟨e, -, refused⟩ | ⟨name, i, f, named, exported, assigned⟩ := p.assign_struct t key value
  · rw [refused cell held] at done
    cases done
  rw [assigned cell held] at done
  cases converted : value.toHost f.type st with
  | error stop st₁ =>
    rw [converted] at done
    cases done
  | ok v st₁ =>
    rw [converted] at done
    dsimp only at done
    split at done
    · cases done
      have grown := (Script.mild_toHost f.type value).of_ok converted
      have held₁ : st₁.cells.get? c = some (.struct t vs) := grown.cells ▸ held
      refine ⟨⟨name, i, f, v, st₁, named, exported, converted, grown, rfl, ?_⟩, ?_⟩
      · intro h q isOf cell
        exact named ▸ index_of_set isOf cell held₁ length exported v s
      · intro g u us copy key
        obtain ⟨states, later⟩ := Script.keeps_toHost
          (Q := fun st₁ => st₁.states = st.states ∧ st.fresh ≤ st₁.fresh)
          (fun h => ⟨h.1, Nat.le_succ_of_le h.2⟩) (fun h => h) (fun h => h)
          ⟨rfl, Nat.le_refl _⟩ converted
        have abreast : Store.Abreast st.fresh s st
            { st₁ with cells := st₁.cells.set c (.struct t (vs.set i v)) } :=
          .of_states usable states later
        obtain ⟨j, set, rfl⟩ := copy.exists_eq rfl
        exact StructTy.index_renewed (Store.Abreast.dispatches st.fresh s) abreast u us none key
    · cases done

structure Delegates (p : Pointer) (w : Value) (c s : Nat) (st : Store) : Prop where
  index_made : w.Forwarded → ∀ {h : Handle}, h.IsOf (.ptr p) → ∀ key,
    (Script.handle h).index s key st = (do
      let d ← w.toScript s
      d.index s key : BridgeM Script) st
  setIndex_made : w.type.forwards = true → ∀ {h : Handle}, h.IsOf (.ptr p) → ∀ key value,
    (Script.handle h).setIndex s key value st = (do
      let d ← w.toScript s
      d.setIndex s key value : BridgeM Unit) st
  /-- Any handle of it reads alike, but for the numbers of what is made on the way. The address of a
  box that is made for the key is not to be among the keys of a map before. -/
  index : w.Forwarded → ∀ {h d : Handle}, h.IsOf (.ptr p) → d.IsOf w → ∀ {key : Script},
    (∀ m, w = .map m → key.content?.isSome = true → m.Apart st.fresh st) →
      Agree (Store.Alike st.fresh s) (Script.Renewed (Later st.fresh))
        ((Script.handle d).index s key st) ((Script.handle h).index s key st)
  setIndex : w.type.forwards = true → ∀ {h d : Handle}, h.IsOf (.ptr p) → d.IsOf w →
    ∀ {key : Script} (value : Script),
      (∀ m, w = .map m → key.content?.isSome = true → m.Apart st.fresh st) →
        Agree (Store.Renewed (Later st.fresh)) (fun _ _ => True)
          ((Script.handle d).setIndex s key value st) ((Script.handle h).setIndex s key value st)
  member : ∀ {t vs}, w = .struct t vs → ∀ {h d : Handle}, h.IsOf (.ptr p) → d.IsOf w →
    ∀ {key : Script}, (∀ name m, key = .string name → ¬t.PointerMethod name m) →
      (Script.handle h).index s key st = (Script.handle d).index s key st
  method : ∀ {t vs}, w = .struct t vs → ∀ {h d : Handle}, h.IsOf (.ptr p) → d.IsOf w →
    ∀ {name : String} {m : Method}, t.PointerMethod name m →
      (Script.handle h).index s (.string name) st =
          .ok (.function ⟨st.fresh, name, .method m.func (.ptr p)⟩) st.spent ∧
        (Script.handle d).index s (.string name) st = .ok .nil st
  assigned : ∀ {t vs}, w = .struct t vs → vs.length = t.fields.length → ∀ {h : Handle},
    h.IsOf (.ptr p) → ∀ {key value : Script} {st' : Store},
      (Script.handle h).setIndex s key value st = .ok () st' → Assigned t vs c s key value st st'

theorem delegates (usable : State.Usable st s) (cell : p.cell = some c)
    (held : st.cells.get? c = some w) (same : p.elem.same w.type = true) :
    p.Delegates w c s st where
  index_made forwarded _ isOf key := Script.index_ptr_made isOf cell held forwarded s key
  setIndex_made forwards _ isOf key value :=
    Script.setIndex_ptr_made isOf same cell held forwards s key value
  index forwarded _ _ isOf direct _ apart :=
    Script.index_ptr_alike usable isOf direct cell held forwarded apart
  setIndex forwards _ _ isOf direct _ value apart :=
    Script.setIndex_ptr_alike usable isOf direct same cell held forwards value apart
  member {t vs} eq h d isOf direct key other := by
    subst eq
    obtain ⟨i, set, rfl⟩ := direct.exists_eq rfl
    rw [Script.index_ptr isOf, index_struct cell held, StructTy.index_via other]
    rfl
  method {t vs} eq h d isOf direct name m found := by
    subst eq
    obtain ⟨i, set, rfl⟩ := direct.exists_eq rfl
    rw [Script.index_ptr isOf, index_struct cell held, found.index_some]
    refine ⟨rfl, ?_⟩
    change t.index s vs none (.string name) st = _
    rw [found.index_none]
    rfl
  assigned {t vs} eq length h isOf key value st' done := by
    subst eq
    exact assigned_of_ok usable isOf same cell held length done

theorem delegates_field :
    let t : StructTy := ⟨"T", [⟨"a", .bool, true⟩], []⟩
    let p : Pointer := ⟨.struct t, some 0⟩
    let st : Store := { cells := ⟨#[.struct t [.bool false]]⟩, states := ⟨#[{}]⟩ }
    p.Delegates (.struct t [.bool false]) 0 0 st ∧
      Assigned t [.bool false] 0 0 (.string "a") (.bool true) st
        { st with cells := ⟨#[.struct t [.bool true]]⟩ } := by
  intro t p st
  have delegates : p.Delegates (.struct t [.bool false]) 0 0 st :=
    Pointer.delegates trivial rfl rfl (by simp [p, Value.type])
  have isOf : Handle.IsOf ⟨0, .value (.ptr p), some ⟨0, .ptr⟩⟩ (.ptr p) := ⟨rfl, rfl⟩
  exact ⟨delegates, delegates.assigned rfl rfl isOf rfl⟩

end Pointer

end HostBridge
