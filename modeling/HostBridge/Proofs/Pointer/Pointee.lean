import HostBridge.Proofs.Conversion.Renewal
import HostBridge.Proofs.Assignment.Atomic

namespace HostBridge

variable {s c : Nat} {st st' : Store} {h d : Handle} {p : Pointer} {w : Value}

structure Handle.IsOf (h : Handle) (v : Value) : Prop where
  payload : h.payload = .value v
  kind : h.kind? = (Payload.value v).kind?

theorem Handle.IsOf.exists_eq {v : Value} {kind : HandleKind} (isOf : h.IsOf v)
    (hkind : (Payload.value v).kind? = some kind) :
    ∃ i set, h = ⟨i, .value v, some ⟨set, kind⟩⟩ := by
  obtain ⟨i, payload, table⟩ := h
  obtain ⟨rfl, same⟩ := isOf
  obtain ⟨⟨set, _⟩, rfl, rfl⟩ := Option.map_eq_some_iff.mp (same.trans hkind)
  exact ⟨i, set, rfl⟩

theorem Script.unknownField_of_fieldName {key : Script} {type : String} {e : BridgeError}
    (h : key.fieldName type = .error e) : ∃ type field, e = .unknownField type field := by
  simp only [fieldName] at h
  split at h
  · cases h
  · cases h
    exact ⟨_, _, rfl⟩

/-- The values that a pointer gives way to when it is read. -/
inductive Value.Forwarded : Value → Prop
  | map (m : Map) : Forwarded (.map m)
  | slice (w : Slice) : Forwarded (.slice w)
  | chan (c : Chan) : Forwarded (.chan c)

def Ty.forwards : Ty → Bool
  | .map .. | .slice _ => true
  | _ => false

namespace Pointer

theorem load_of_cell (cell : p.cell = some c) (held : st.cells.get? c = some w) :
    p.load st = .ok w := by
  simp only [load, cell, held, Option.getD_some]

theorem index_struct {t : StructTy} {vs : List Value} (cell : p.cell = some c)
    (held : st.cells.get? c = some (.struct t vs)) (s : Nat) (key : Script) :
    p.index s key st = t.index s vs (some p) key st := by
  simp only [index, isNil, cell, Option.isNone_some]
  rw [if_neg Bool.false_ne_true, get_bind, load_of_cell cell held]
  rfl

theorem index_forwarded (cell : p.cell = some c) (held : st.cells.get? c = some w)
    (forwarded : w.Forwarded) (direct : d.IsOf w) (s : Nat) (key : Script) :
    p.index s key st = (do
      let _ ← w.toScript s
      (Script.handle d).index s key : BridgeM Script) st := by
  cases forwarded <;> obtain ⟨i, set, rfl⟩ := direct.exists_eq rfl
  all_goals
    simp only [index, isNil, cell, Option.isNone_some]
    rw [if_neg Bool.false_ne_true, get_bind, load_of_cell cell held]
    rfl

theorem write_of_cell (cell : p.cell = some c) (v : Value) :
    p.write v st = .ok () { st with cells := st.cells.set c v } := by
  simp only [write, cell]
  rfl

theorem assign_exported {t : StructTy} {vs : List Value} {i : Nat} {f : Field}
    (declared : t.fields[i]? = some f) (cell : p.cell = some c) (value : Script) (st : Store) :
    (do
      let v ← value.toHost f.type
      p.write (.struct t (← (t.setAt vs i v : Except HostError _))) : BridgeM Unit) st =
        match value.toHost f.type st with
        | .ok v st₁ =>
          if f.type.accepts v then
            .ok () { st₁ with cells := st₁.cells.set c (.struct t (vs.set i v)) }
          else .error (.error (.typeMismatch f.type.text v.typeText)) st₁
        | .error stop st₁ => .error stop st₁ := by
  cases converted : value.toHost f.type st with
  | error stop st₁ => rw [bind_error converted]
  | ok v st₁ =>
    rw [bind_ok converted]
    simp only [StructTy.setAt, declared]
    split
    · exact host_ok (write_of_cell cell _)
    · rfl

theorem isNil_of_cell (cell : p.cell = some c) : p.isNil = false := by
  simp only [isNil, cell, Option.isNone_some]

theorem assign_field {declared t : StructTy} {vs : List Value} {name : String} {i : Nat} {f : Field}
    (elem : p.elem = .struct declared) (cell : p.cell = some c)
    (held : st.cells.get? c = some (.struct t vs)) (exported : t.exported? name = some (i, f))
    (value : Script) :
    p.assign (.string name) value st = match value.toHost f.type st with
      | .ok v st₁ =>
        if f.type.accepts v then
          .ok () { st₁ with cells := st₁.cells.set c (.struct t (vs.set i v)) }
        else .error (.error (.typeMismatch f.type.text v.typeText)) st₁
      | .error stop st₁ => .error stop st₁ := by
  simp only [assign, elem, isNil_of_cell cell, Script.fieldName]
  rw [if_neg Bool.false_ne_true, except_bind, get_bind, load_of_cell cell held, hostExcept_bind]
  simp only [exported]
  exact assign_exported (StructTy.field_of_exported? exported).1 cell value st

/-- Whether an assignment to a struct behind a pointer comes to a field, and which one that is, is a
matter of the types and of the key. -/
theorem assign_struct (p : Pointer) (t : StructTy) (key value : Script) :
    (∃ e, (∀ declared, p.elem = .struct declared → ∃ type field, e = .unknownField type field) ∧
        ∀ {c vs st}, p.cell = some c → st.cells.get? c = some (.struct t vs) →
          p.assign key value st = .error (.error e) st) ∨
      ∃ name i f, key = .string name ∧ t.exported? name = some (i, f) ∧
        ∀ {c vs st}, p.cell = some c → st.cells.get? c = some (.struct t vs) →
          p.assign key value st = match value.toHost f.type st with
            | .ok v st₁ =>
              if f.type.accepts v then
                .ok () { st₁ with cells := st₁.cells.set c (.struct t (vs.set i v)) }
              else .error (.error (.typeMismatch f.type.text v.typeText)) st₁
            | .error stop st₁ => .error stop st₁ := by
  cases elem : p.elem with
  | struct declared =>
    cases named : key.fieldName declared.name with
    | error e =>
      refine .inl ⟨e, fun _ _ => Script.unknownField_of_fieldName named, fun {c vs st} cell _ => ?_⟩
      simp only [assign, elem, isNil_of_cell cell, named]
      rfl
    | ok name =>
      cases found : t.exported? name with
      | none =>
        refine .inl ⟨.unknownField t.name name, fun _ _ => ⟨_, _, rfl⟩, ?_⟩
        intro c vs st cell held
        simp only [assign, elem, isNil_of_cell cell, named]
        rw [if_neg Bool.false_ne_true, except_bind, get_bind, load_of_cell cell held,
          hostExcept_bind]
        simp only [found]
        rfl
      | some field =>
        obtain ⟨i, f⟩ := field
        cases Script.eq_of_fieldName named
        refine .inr ⟨name, i, f, rfl, found, ?_⟩
        exact fun cell held => assign_field elem cell held found value
  | _ =>
    refine .inl ⟨p.badPointee, fun declared other => ?_, fun {c vs st} cell held => ?_⟩
    · cases other
    · simp only [assign, elem, isNil_of_cell cell]
      rfl

end Pointer

namespace Script

theorem index_ptr (isOf : h.IsOf (.ptr p)) (s : Nat) (key : Script) :
    (Script.handle h).index s key = p.index s key := by
  obtain ⟨i, set, rfl⟩ := isOf.exists_eq rfl
  rfl

theorem setIndex_ptr (isOf : h.IsOf (.ptr p)) (stays : p.elem.forwards = false) (s : Nat)
    (key value : Script) : (Script.handle h).setIndex s key value st = p.assign key value st := by
  obtain ⟨i, set, rfl⟩ := isOf.exists_eq rfl
  have itself : destination s (st.cells.size + 2) (.handle ⟨i, .value (.ptr p), some ⟨set, .ptr⟩⟩) =
      pure (.handle ⟨i, .value (.ptr p), some ⟨set, .ptr⟩⟩) := by
    cases elem : p.elem with
    | map _ _ | slice _ => simp [Ty.forwards, elem] at stays
    | _ => simp only [destination, elem]
  simp only [setIndex]
  rw [get_bind, itself]
  rfl

theorem setIndex_direct {v : Value} {i : Nat} {table : Option OperatorTable}
    (notPtr : ∀ q, v ≠ .ptr q) (s : Nat) (key value : Script) :
    (Script.handle ⟨i, .value v, table⟩).setIndex s key value =
      (Script.handle ⟨i, .value v, table⟩).assign key value := by
  funext st
  simp only [setIndex]
  rw [get_bind, destination_inner notPtr]
  rfl

theorem setIndex_forwarded {kind : HandleKind} (isOf : h.IsOf (.ptr p))
    (forwards : p.elem.forwards = true) (cell : p.cell = some c)
    (held : st.cells.get? c = some w) (notPtr : ∀ q, w ≠ .ptr q)
    (hkind : (Payload.value w).kind? = some kind) (s : Nat) (key value : Script) :
    (Script.handle h).setIndex s key value st = (do
      let inner ← w.toScript s
      inner.assign key value : BridgeM Unit) st := by
  obtain ⟨i, set, rfl⟩ := isOf.exists_eq rfl
  have follow : destination s (st.cells.size + 2) (.handle ⟨i, .value (.ptr p), some ⟨set, .ptr⟩⟩)
      st = (w.toScript s >>= destination s (st.cells.size + 1)) st := by
    cases elem : p.elem with
    | map _ _ | slice _ =>
      simp only [destination, elem, Pointer.isNil, cell, Option.isNone_some]
      rw [if_neg Bool.false_ne_true, get_bind, Pointer.load_of_cell cell held]
      rfl
    | _ => simp [Ty.forwards, elem] at forwards
  simp only [setIndex]
  rw [get_bind]
  cases made : w.toScript s st with
  | ok inner st₁ =>
    rw [Value.toScript_eq_make hkind] at made
    obtain ⟨j, set', rfl⟩ := Handle.eq_of_make made
    rw [← Value.toScript_eq_make hkind] at made
    have arrived := follow.trans (bind_ok made)
    rw [destination_inner notPtr] at arrived
    rw [bind_ok arrived, bind_ok made]
  | error stop st₁ => rw [bind_error (follow.trans (bind_error made)), bind_error made]

end Script

end HostBridge
