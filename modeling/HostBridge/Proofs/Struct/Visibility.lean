import HostBridge.Proofs.Conversion.Alike
import HostBridge.Proofs.Map.Access
import HostBridge.Proofs.Pointer.Pointee

namespace HostBridge

variable {t : StructTy} {vs ws : List Value} {s c : Nat} {st st' : Store} {h : Handle}
  {p : Pointer}

def StructTy.SameExported (t : StructTy) (vs ws : List Value) : Prop :=
  ∀ (i : Nat) (f : Field), t.fields[i]? = some f → f.exported = true → vs[i]? = ws[i]?

def StructTy.SameHidden (t : StructTy) (vs ws : List Value) : Prop :=
  ∀ (i : Nat) (f : Field), t.fields[i]? = some f → f.exported = false → vs[i]? = ws[i]?

def BridgeM.outcome {α : Type} (x : BridgeM α) (st : Store) : Except (Stop BridgeError) α :=
  match x st with
  | .ok a _ => .ok a
  | .error stop _ => .error stop

/-- What scripts get from either struct: the same script value, or the same method bound to each. -/
inductive StructTy.Unaware (t : StructTy) : Script → Script → Prop
  | same (x : Script) : Unaware t x x
  | method {name : String} {m : Method} {vs ws : List Value} {i : Nat} :
    t.method? name = some m → t.SameExported vs ws →
      Unaware t (.function ⟨i, name, .method m.func (.struct t vs)⟩)
        (.function ⟨i, name, .method m.func (.struct t ws)⟩)

inductive StructTy.Indistinct (t : StructTy) :
    Except (Stop BridgeError) Script → Except (Stop BridgeError) Script → Prop
  | ok {x y : Script} : t.Unaware x y → Indistinct t (.ok x) (.ok y)
  | error (stop : Stop BridgeError) : Indistinct t (.error stop) (.error stop)

theorem Agree.indistinct {S : Store → Store → Prop} {x y : BridgeM Script}
    (h : Agree S t.Unaware (x st) (y st')) :
    t.Indistinct (x.outcome st) (y.outcome st') ∧ S (x.after st) (y.after st') := by
  simp only [BridgeM.outcome, BridgeM.after]
  generalize x st = r, y st' = r' at h ⊢
  cases h with
  | ok unaware alike => exact ⟨.ok unaware, alike⟩
  | error alike => exact ⟨.error _, alike⟩

theorem Script.Renewed.eq {x y : Script} (h : x.Renewed Eq y) : x = y := by
  cases h with
  | same => rfl
  | handle i sets => cases i; cases sets.elim id id; rfl
  | inert i => cases i; rfl
  | function i => cases i; rfl

theorem Value.Renewed.eq {v u : Value} (h : v.Renewed Eq u) : v = u := by
  cases h with
  | same => rfl
  | boxed i => cases i; rfl

namespace StructTy

theorem SameExported.set (same : t.SameExported vs ws) {i : Nat} {f : Field}
    (declared : t.fields[i]? = some f) (exported : f.exported = true) (v : Value) :
    t.SameExported (vs.set i v) (ws.set i v) := by
  intro j g hg visible
  have known := same i f declared exported
  have other := same j g hg visible
  by_cases eq : i = j
  · subst eq
    rw [List.getElem?_set_self', List.getElem?_set_self', known]
  · rw [List.getElem?_set_ne eq, List.getElem?_set_ne eq, other]

theorem SameHidden.refl (t : StructTy) (vs : List Value) : t.SameHidden vs vs := fun _ _ _ _ => rfl

theorem SameHidden.trans {us : List Value} (h : t.SameHidden us vs) (h' : t.SameHidden vs ws) :
    t.SameHidden us ws :=
  fun i f declared hidden => (h i f declared hidden).trans (h' i f declared hidden)

theorem sameHidden_set {i : Nat} {f : Field} (declared : t.fields[i]? = some f)
    (exported : f.exported = true) (vs : List Value) (v : Value) :
    t.SameHidden vs (vs.set i v) := by
  intro j g hg hidden
  have ne : i ≠ j := by
    rintro rfl
    rw [declared] at hg
    cases hg
    rw [exported] at hidden
    cases hidden
  rw [List.getElem?_set_ne ne]

theorem index_unaware {S : Store → Store → Prop} (dispatches : Dispatches s S Eq)
    (same : t.SameExported vs ws) (alike : S st st') (via : Option Pointer) (key : Script) :
    Agree S t.Unaware (t.index s vs via key st) (t.index s ws via key st') := by
  have nothing : Agree S t.Unaware ((pure .nil : BridgeM Script) st)
      ((pure .nil : BridgeM Script) st') := .ok (.same _) alike
  simp only [index]
  cases key.asText? with
  | none => exact nothing
  | some name =>
    simp only [member]
    cases found : t.exported? name with
    | some field =>
      obtain ⟨i, f⟩ := field
      obtain ⟨declared, exported⟩ := field_of_exported? found
      simp only [same i f declared exported]
      refine (Value.toScript_renewed dispatches _ alike).imp ?_ fun _ _ alike => alike
      intro x y renewed
      cases renewed.eq
      exact .same x
    | none =>
      simp only
      cases found : t.method? name with
      | none => exact nothing
      | some m =>
        have fresh : st.fresh = st'.fresh := dispatches.fresh alike
        have spent := dispatches.spent alike
        obtain ⟨_, receiver, func⟩ := m
        cases receiver with
        | value =>
          refine .ok ?_ spent
          rw [← fresh]
          exact .method found same
        | pointer =>
          cases via with
          | none => exact nothing
          | some p =>
            refine .ok ?_ spent
            rw [← fresh]
            exact .same _

theorem mild_index (t : StructTy) (s : Nat) (vs : List Value) (via : Option Pointer)
    (key : Script) : Mild (t.index s vs via key) := by
  simp only [index, member]
  split
  · split
    · exact Value.mild_toScript _
    · split
      · exact Mild.pure _
      · split
        · exact Mild.lift Store.grown_freshId
        · exact Mild.lift Store.grown_freshId
        · exact Mild.pure _
  · exact Mild.pure _

theorem assign_eq_error (t : StructTy) (key : Script) :
    ∃ e, ∀ st, t.assign key st = .error (.error e) st := by
  simp only [assign]
  cases key.fieldName t.name with
  | error e => exact ⟨e, fun _ => rfl⟩
  | ok name =>
    cases found : t.exported? name with
    | some _ =>
      refine ⟨.notAddressable t.name name, fun st => ?_⟩
      rw [except_bind, found]
      rfl
    | none =>
      refine ⟨.unknownField t.name name, fun st => ?_⟩
      rw [except_bind, found]
      rfl

end StructTy

/-- The heaps differ in one struct, and there in fields that are not exported. -/
structure Heap.Masked (t : StructTy) (c : Nat) (cells cells' : Heap Value) : Prop where
  size : cells'.size = cells.size
  other : ∀ {i}, i ≠ c → cells'.get? i = cells.get? i
  pointee : ∃ vs ws, cells.get? c = some (.struct t vs) ∧ cells'.get? c = some (.struct t ws) ∧
    t.SameExported vs ws

def Store.Masked (t : StructTy) (c : Nat) (st st' : Store) : Prop :=
  ∃ cells, st' = { st with cells } ∧ st.cells.Masked t c cells

namespace Store.Masked

theorem allocates (t : StructTy) (c : Nat) : Allocates (Masked t c) Eq where
  fresh := by
    rintro st _ ⟨cells, rfl, _⟩
    rfl
  spent := by
    rintro st _ ⟨cells, rfl, masked⟩
    exact ⟨cells, rfl, masked⟩
  map := by
    rintro st _ ⟨cells, rfl, masked⟩
    exact ⟨rfl, cells, rfl, masked⟩
  backing := by
    rintro st _ ⟨cells, rfl, masked⟩
    exact ⟨rfl, cells, rfl, masked⟩

theorem dispatches (t : StructTy) (c s : Nat) : Dispatches s (Masked t c) Eq := by
  refine .of_states ?_ ?_ s
  · rintro st _ ⟨cells, rfl, _⟩
    exact ⟨rfl, rfl⟩
  · rintro st _ ⟨cells, rfl, masked⟩ states fresh
    exact ⟨cells, rfl, masked⟩

theorem set (masked : Masked t c st st') (same : t.SameExported vs ws) :
    Masked t c { st with cells := st.cells.set c (.struct t vs) }
      { st' with cells := st'.cells.set c (.struct t ws) } := by
  obtain ⟨cells, rfl, size, other, us, us', held, held', _⟩ := masked
  refine ⟨_, rfl, ?_, fun ne => ?_, vs, ws, ?_, ?_, same⟩
  · rw [Heap.size_set, Heap.size_set, size]
  · rw [Heap.get?_set_ne ne, Heap.get?_set_ne ne, other ne]
  · exact Heap.get?_set_self held _
  · exact Heap.get?_set_self held' _

end Store.Masked

namespace Pointer

theorem index_masked (masked : Store.Masked t c st st') (cell : p.cell = some c) (s : Nat)
    (key : Script) :
    Agree (Store.Masked t c) t.Unaware (p.index s key st) (p.index s key st') := by
  obtain ⟨cells, rfl, _, _, vs, ws, held, held', same⟩ := id masked
  rw [index_struct cell held, index_struct cell held']
  exact StructTy.index_unaware (Store.Masked.dispatches t c s) same masked (some p) key

theorem assign_masked (masked : Store.Masked t c st st') (cell : p.cell = some c)
    (key value : Script) :
    Agree (Store.Masked t c) (fun _ _ => True) (p.assign key value st)
      (p.assign key value st') := by
  obtain ⟨cells, rfl, _, _, vs, ws, held, held', same⟩ := id masked
  obtain ⟨e, -, refused⟩ | ⟨name, i, f, _, found, assigned⟩ := p.assign_struct t key value
  · rw [refused cell held, refused cell held']
    exact .error masked
  · obtain ⟨declared, exported⟩ := StructTy.field_of_exported? found
    rw [assigned cell held, assigned cell held']
    have converted := value.toHost_renewed (Store.Masked.allocates t c) f.type masked
    generalize value.toHost f.type st = r, value.toHost f.type { st with cells } = r'
      at converted ⊢
    cases converted with
    | error masked₁ => exact .error masked₁
    | @ok v _ st₁ st₁' renewed masked₁ =>
      cases renewed.eq
      by_cases accepted : f.type.accepts v = true
      · simp only [if_pos accepted]
        exact .ok trivial (masked₁.set (same.set declared exported v))
      · simp only [if_neg accepted]
        exact .error masked₁

end Pointer

theorem Script.setIndex_masked (masked : Store.Masked t c st st') (isOf : h.IsOf (.ptr p))
    (cell : p.cell = some c) (s : Nat) (key value : Script) :
    Agree (Store.Masked t c) (fun _ _ => True) ((Script.handle h).setIndex s key value st)
      ((Script.handle h).setIndex s key value st') := by
  cases forwards : p.elem.forwards with
  | false =>
    rw [setIndex_ptr isOf forwards, setIndex_ptr isOf forwards]
    exact Pointer.assign_masked masked cell key value
  | true =>
    obtain ⟨cells, rfl, _, _, vs, ws, held, held', same⟩ := id masked
    rw [setIndex_forwarded isOf forwards cell held (by simp) rfl,
      setIndex_forwarded isOf forwards cell held' (by simp) rfl]
    obtain ⟨e, refused⟩ := t.assign_eq_error key
    have made := Handle.make_alike (Store.Masked.dispatches t c s) .struct (.value (.struct t vs))
      (.value (.struct t ws)) masked
    refine made.bind ?_ fun _ _ alike => alike
    rintro _ _ st₁ st₁' ⟨_, _, _, _, _, _, rfl, rfl⟩ masked₁
    change Agree _ _ (t.assign key st₁) (t.assign key st₁')
    rw [refused, refused]
    exact .error masked₁

/-- There is a struct of the type in the cell, with these values in all fields that are not
exported. -/
def Store.Keeps (t : StructTy) (c : Nat) (vs : List Value) (st : Store) : Prop :=
  ∃ ws, st.cells.get? c = some (.struct t ws) ∧ ws.length = vs.length ∧ t.SameHidden vs ws

theorem Store.Keeps.of_grown (keeps : Keeps t c vs st) (grown : st.Grown st') :
    Keeps t c vs st' := by
  obtain ⟨ws, held, same⟩ := keeps
  exact ⟨ws, grown.cells ▸ held, same⟩

theorem Pointer.assign_keeps (keeps : Store.Keeps t c vs st) (cell : p.cell = some c)
    (key value : Script) : Store.Keeps t c vs ((p.assign key value).after st) := by
  obtain ⟨ws, held, length, same⟩ := id keeps
  obtain ⟨e, -, refused⟩ | ⟨name, i, f, _, found, assigned⟩ := p.assign_struct t key value
  · rw [BridgeM.after_of_error (refused cell held)]
    exact keeps
  · have assigned := assigned cell held
    cases converted : value.toHost f.type st with
    | error stop st₁ =>
      simp only [converted] at assigned
      rw [BridgeM.after_of_error assigned]
      exact keeps.of_grown ((Script.mild_toHost _ _).of_error converted)
    | ok v st₁ =>
      have grown := (Script.mild_toHost _ _).of_ok converted
      simp only [converted] at assigned
      split at assigned
      · obtain ⟨declared, exported⟩ := StructTy.field_of_exported? found
        have held₁ : st₁.cells.get? c = some (.struct t ws) := grown.cells ▸ held
        rw [BridgeM.after_of_ok assigned]
        exact ⟨ws.set i v, Heap.get?_set_self held₁ _, List.length_set.trans length,
          same.trans (StructTy.sameHidden_set declared exported ws v)⟩
      · rw [BridgeM.after_of_error assigned]
        exact keeps.of_grown grown

theorem Script.setIndex_keeps (keeps : Store.Keeps t c vs st) (isOf : h.IsOf (.ptr p))
    (cell : p.cell = some c) (s : Nat) (key value : Script) :
    Store.Keeps t c vs (((Script.handle h).setIndex s key value).after st) := by
  cases forwards : p.elem.forwards with
  | false =>
    have same : ((Script.handle h).setIndex s key value).after st =
        (p.assign key value).after st := by
      simp only [BridgeM.after, setIndex_ptr isOf forwards]
    rw [same]
    exact Pointer.assign_keeps keeps cell key value
  | true =>
    obtain ⟨ws, held, _⟩ := id keeps
    obtain ⟨e, refused⟩ := t.assign_eq_error key
    have eq := setIndex_forwarded isOf forwards cell held (by simp) rfl s key value
    cases made : (Value.struct t ws).toScript s st with
    | error stop st₁ =>
      rw [bind_error made] at eq
      rw [BridgeM.after_of_error eq]
      exact keeps.of_grown ((Value.mild_toScript _).of_error made)
    | ok inner st₁ =>
      obtain ⟨i, set, rfl⟩ := Handle.eq_of_make made
      rw [bind_ok made] at eq
      rw [BridgeM.after_of_error (eq.trans (refused st₁))]
      exact keeps.of_grown ((Value.mild_toScript _).of_ok made)

namespace Pointer

inductive Access
  | index (key : Script)
  | assign (key value : Script)

namespace Access

def run (s : Nat) (h : Handle) : Access → BridgeM Script
  | .index key => (Script.handle h).index s key
  | .assign key value => do
    (Script.handle h).setIndex s key value
    return .nil

def outcomes (s : Nat) : List (Handle × Access) → Store → List (Except (Stop BridgeError) Script)
  | [], _ => []
  | (h, a) :: rest, st => (a.run s h).outcome st :: outcomes s rest ((a.run s h).after st)

def last (s : Nat) : List (Handle × Access) → Store → Store
  | [], st => st
  | (h, a) :: rest, st => last s rest ((a.run s h).after st)

variable {a : Access}

theorem masked (masked : Store.Masked t c st st') (isOf : h.IsOf (.ptr p)) (cell : p.cell = some c)
    (s : Nat) (a : Access) :
    Agree (Store.Masked t c) t.Unaware (a.run s h st) (a.run s h st') := by
  cases a with
  | index key =>
    simp only [run, Script.index_ptr isOf]
    exact index_masked masked cell s key
  | assign key value =>
    have assigned := Script.setIndex_masked masked isOf cell s key value
    exact assigned.bind (fun _ _ _ _ _ alike => .ok (.same .nil) alike) fun _ _ alike => alike

theorem keeps (keeps : Store.Keeps t c vs st) (isOf : h.IsOf (.ptr p)) (cell : p.cell = some c)
    (s : Nat) (a : Access) : Store.Keeps t c vs ((a.run s h).after st) := by
  cases a with
  | index key =>
    obtain ⟨ws, held, _⟩ := id keeps
    have same : ((run s h (.index key))).after st = (t.index s ws (some p) key).after st := by
      simp only [run, Script.index_ptr isOf, BridgeM.after, index_struct cell held]
    rw [same]
    exact keeps.of_grown (t.mild_index s ws (some p) key st).after
  | assign key value =>
    have same : (run s h (.assign key value)).after st =
        ((Script.handle h).setIndex s key value).after st := by
      cases ran : (Script.handle h).setIndex s key value st with
      | ok _ st₁ => rw [run, BridgeM.after_bind_ok ran, BridgeM.after_of_ok ran]; rfl
      | error stop st₁ => rw [run, BridgeM.after_bind_error ran, BridgeM.after_of_error ran]
    rw [same]
    exact Script.setIndex_keeps keeps isOf cell s key value

def Through (c : Nat) (as : List (Handle × Access)) : Prop :=
  ∀ x ∈ as, ∃ p : Pointer, x.1.IsOf (.ptr p) ∧ p.cell = some c

theorem outcomes_masked {as : List (Handle × Access)} (through : Through c as)
    (masked : Store.Masked t c st st') (s : Nat) :
    List.Forall₂ t.Indistinct (outcomes s as st) (outcomes s as st') ∧
      Store.Masked t c (last s as st) (last s as st') := by
  induction as generalizing st st' with
  | nil => exact ⟨.nil, masked⟩
  | cons x as ih =>
    obtain ⟨h, a⟩ := x
    rw [Through, List.forall_mem_cons] at through
    obtain ⟨p, isOf, cell⟩ := through.1
    obtain ⟨ended, masked'⟩ := (Access.masked masked isOf cell s a).indistinct
    obtain ⟨rest, final⟩ := ih through.2 masked'
    exact ⟨.cons ended rest, final⟩

theorem last_keeps {as : List (Handle × Access)} (through : Through c as)
    (keeps : Store.Keeps t c vs st) (s : Nat) : Store.Keeps t c vs (last s as st) := by
  induction as generalizing st with
  | nil => exact keeps
  | cons x as ih =>
    obtain ⟨h, a⟩ := x
    rw [Through, List.forall_mem_cons] at through
    obtain ⟨p, isOf, cell⟩ := through.1
    exact ih through.2 (Access.keeps keeps isOf cell s a)

end Access

end Pointer

structure StructTy.Hides (t : StructTy) (s : Nat) : Prop where
  index : ∀ {h h' : Handle} {vs ws}, h.IsOf (.struct t vs) → h'.IsOf (.struct t ws) →
    t.SameExported vs ws → ∀ key st,
      Agree Eq t.Unaware ((Script.handle h).index s key st) ((Script.handle h').index s key st)
  assign : ∀ {h h' : Handle} {vs ws}, h.IsOf (.struct t vs) → h'.IsOf (.struct t ws) →
    ∀ key value, (Script.handle h).setIndex s key value = (Script.handle h').setIndex s key value
  pointers : ∀ {c as st st'}, Pointer.Access.Through c as → Store.Masked t c st st' →
    List.Forall₂ t.Indistinct (Pointer.Access.outcomes s as st) (Pointer.Access.outcomes s as st') ∧
      Store.Masked t c (Pointer.Access.last s as st) (Pointer.Access.last s as st')
  kept : ∀ {c as st vs}, Pointer.Access.Through c as → st.cells.get? c = some (.struct t vs) →
    Store.Keeps t c vs (Pointer.Access.last s as st)

/-- Visibility holds of every struct type, whatever the names of its fields and methods are. -/
theorem StructTy.hides (t : StructTy) (s : Nat) : t.Hides s where
  index {h h' vs ws} isOf isOf' same key st := by
    obtain ⟨i, set, rfl⟩ := isOf.exists_eq rfl
    obtain ⟨j, set', rfl⟩ := isOf'.exists_eq rfl
    exact index_unaware (Dispatches.eq s) same rfl none key
  assign {h h' vs ws} isOf isOf' key value := by
    obtain ⟨i, set, rfl⟩ := isOf.exists_eq rfl
    obtain ⟨j, set', rfl⟩ := isOf'.exists_eq rfl
    rw [Script.setIndex_direct (by simp), Script.setIndex_direct (by simp)]
    rfl
  pointers through masked := Pointer.Access.outcomes_masked through masked s
  kept through held := Pointer.Access.last_keeps through ⟨_, held, rfl, .refl t _⟩ s

example : (StructTy.mk "T" [⟨"a", .bool, false⟩, ⟨"a", .string, true⟩] []).exported? "a" = none :=
  rfl

end HostBridge
