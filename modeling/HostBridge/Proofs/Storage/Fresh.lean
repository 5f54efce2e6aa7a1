import HostBridge.Proofs.Assignment.Frame
import HostBridge.Proofs.Storage.Reach

namespace HostBridge

structure Store.Wider (st st' : Store) : Prop where
  has : ∀ {r : Ref}, st.Has r → st'.Has r
  same : ∀ {r : Ref}, st.Has r → st.SameAt st' r

structure Store.Gains (st st' : Store) (rs : List Ref) : Prop extends Wider st st' where
  nodup : rs.Nodup
  new : ∀ r ∈ rs, ¬st.Has r ∧ st'.Has r
  states : st'.states = st.states

namespace Heap

variable {α : Type} {h : Heap α} {i : Nat}

theorem lt_size_of_get? {a : α} (held : h.get? i = some a) : i < h.size :=
  (Array.getElem?_eq_some_iff.mp held).1

theorem get?_push_self (h : Heap α) (a : α) : (h.push a).get? h.size = some a :=
  (get?_push ..).trans (if_pos rfl)

theorem size_lt_push (h : Heap α) (a : α) : h.size < (h.push a).size := by
  rw [size_push]
  omega

theorem lt_size_push (lt : i < h.size) (a : α) : i < (h.push a).size :=
  Nat.lt_trans lt (size_lt_push h a)

theorem get?_push_of_lt (lt : i < h.size) (a : α) : (h.push a).get? i = h.get? i :=
  (get?_push ..).trans (if_neg (Nat.ne_of_lt lt))

end Heap

namespace Store

variable {st st' st'' : Store} {rs rs' : List Ref}

theorem SameAt.refl (st : Store) (r : Ref) : st.SameAt st r := by
  cases r <;> rfl

namespace Wider

theorem trans (h : st.Wider st') (h' : st'.Wider st'') : st.Wider st'' where
  has there := h'.has (h.has there)
  same there := (h.same there).trans (h'.same (h.has there))

theorem maps (wider : st.Wider st') {i : Nat} {es : List Entry}
    (held : st.maps.get? i = some es) : st'.maps.get? i = some es :=
  have there : st.Has (.map i) := Heap.lt_size_of_get? held
  Eq.trans (wider.same there) held

theorem backings (wider : st.Wider st') {i : Nat} {items : Array Value}
    (held : st.backings.get? i = some items) : st'.backings.get? i = some items :=
  have there : st.Has (.backing i) := Heap.lt_size_of_get? held
  Eq.trans (wider.same there) held

theorem cells (wider : st.Wider st') {i : Nat} {v : Value} (held : st.cells.get? i = some v) :
    st'.cells.get? i = some v :=
  have there : st.Has (.cell i) := Heap.lt_size_of_get? held
  Eq.trans (wider.same there) held

theorem channels (wider : st.Wider st') {i : Nat} {c : Channel Value}
    (held : st.channels.get? i = some c) : st'.channels.get? i = some c :=
  have there : st.Has (.channel i) := Heap.lt_size_of_get? held
  Eq.trans (wider.same there) held

theorem of_grown (grown : st.Grown st') : st.Wider st' where
  has {r} there := by
    cases r with
    | map i => exact Heap.lt_size_of_get? (grown.maps (Array.getElem?_eq_getElem there))
    | backing i => exact Heap.lt_size_of_get? (grown.backings (Array.getElem?_eq_getElem there))
    | cell i => exact Nat.lt_of_lt_of_eq there (congrArg Heap.size grown.cells.symm)
    | channel i => exact Nat.lt_of_lt_of_eq there (congrArg Heap.size grown.channels.symm)
    | table i => exact Nat.lt_of_lt_of_eq there (congrArg Heap.size grown.tables.symm)
  same {r} there := by
    cases r with
    | map i =>
      have here := Array.getElem?_eq_getElem there
      exact (grown.maps here).trans here.symm
    | backing i =>
      have here := Array.getElem?_eq_getElem there
      exact (grown.backings here).trans here.symm
    | cell i => exact congrArg (·.get? i) grown.cells
    | channel i => exact congrArg (·.get? i) grown.channels
    | table i => exact congrArg (·.get? i) grown.tables

end Wider

namespace Gains

theorem refl (st : Store) : st.Gains st [] where
  has there := there
  same _ := .refl st _
  nodup := .nil
  new := by simp
  states := rfl

theorem append (h : st.Gains st' rs) (h' : st'.Gains st'' rs') : st.Gains st'' (rs ++ rs') where
  toWider := h.toWider.trans h'.toWider
  nodup := by
    refine List.nodup_append.mpr ⟨h.nodup, h'.nodup, ?_⟩
    rintro r hr _ hr' rfl
    exact (h'.new r hr').1 (h.new r hr).2
  new := by
    intro r hr
    rcases List.mem_append.mp hr with old | new
    · exact ⟨(h.new r old).1, h'.has (h.new r old).2⟩
    · exact ⟨fun there => (h'.new r new).1 (h.has there), (h'.new r new).2⟩
  states := h'.states.trans h.states

theorem perm (h : st.Gains st' rs) (eq : rs.Perm rs') : st.Gains st' rs' where
  toWider := h.toWider
  nodup := eq.nodup_iff.mp h.nodup
  new r hr := h.new r (eq.mem_iff.mpr hr)
  states := h.states

theorem around (h : st.Gains st' rs) {r : Ref} (h' : st'.Gains st'' [r]) :
    st.Gains st'' (r :: rs) := (h.append h').perm (List.perm_append_singleton r rs)

theorem single {r : Ref} (new : ¬st.Has r ∧ st'.Has r)
    (others : ∀ r, st.Has r → st'.Has r ∧ st.SameAt st' r) (states : st'.states = st.states) :
    st.Gains st' [r] where
  has there := (others _ there).1
  same there := (others _ there).2
  nodup := List.pairwise_singleton ..
  new := List.forall_mem_singleton.mpr new
  states := states

end Gains

theorem gains_newMap (es : List Entry) (st : Store) :
    st.Gains (newMap es st).2 [.map st.maps.size] := by
  refine .single ⟨Nat.lt_irrefl _, Heap.size_lt_push ..⟩ (fun r there => ?_) rfl
  cases r with
  | map i => exact ⟨Heap.lt_size_push there es, Heap.get?_push_of_lt there es⟩
  | _ => exact ⟨there, rfl⟩

theorem gains_newBacking (items : Array Value) (st : Store) :
    st.Gains (newBacking items st).2 [.backing st.backings.size] := by
  refine .single ⟨Nat.lt_irrefl _, Heap.size_lt_push ..⟩ (fun r there => ?_) rfl
  cases r with
  | backing i => exact ⟨Heap.lt_size_push there items, Heap.get?_push_of_lt there items⟩
  | _ => exact ⟨there, rfl⟩

theorem gains_newCell (v : Value) (st : Store) :
    st.Gains (newCell v st).2 [.cell st.cells.size] := by
  refine .single ⟨Nat.lt_irrefl _, Heap.size_lt_push ..⟩ (fun r there => ?_) rfl
  cases r with
  | cell i => exact ⟨Heap.lt_size_push there v, Heap.get?_push_of_lt there v⟩
  | _ => exact ⟨there, rfl⟩

theorem gains_newChannel (c : Channel Value) (st : Store) :
    st.Gains (newChannel c st).2 [.channel st.channels.size] := by
  refine .single ⟨Nat.lt_irrefl _, Heap.size_lt_push ..⟩ (fun r there => ?_) rfl
  cases r with
  | channel i => exact ⟨Heap.lt_size_push there c, Heap.get?_push_of_lt there c⟩
  | _ => exact ⟨there, rfl⟩

end Store

mutual

def Value.refs : Value → List Ref
  | .struct _ vs => refsAll vs
  | v => (Item.value v).ref?.toList

def Value.refsAll : List Value → List Ref
  | [] => []
  | v :: vs => v.refs ++ refsAll vs

end

mutual

/-- The value is the zero value of the type; maps and slices in it are empty. -/
def Ty.IsZero (st : Store) : Ty → Value → Prop
  | .bool, v => v = .bool false
  | .int w, v => v = .int w 0
  | .uint w, v => v = .uint w 0
  | .float w, v => v = .float w .zero
  | .complex w, v => v = .complex w .zero .zero
  | .string, v => v = .string ""
  | .func _, v | .chan .., v | .any, v | .address, v => v = .nil
  | .map k e, v => ∃ i, v = .map ⟨k, e, i⟩ ∧ st.maps.get? i = some []
  | .slice e, v => ∃ i, v = .slice ⟨e, i, 0, 0, 0⟩ ∧ st.backings.get? i = some #[]
  | .struct t, v => t.IsZero st v
  | .ptr e, v => v = .ptr ⟨e, none⟩

def StructTy.IsZero (st : Store) : StructTy → Value → Prop
  | ⟨name, fields, methods⟩, v =>
    ∃ vs, v = .struct ⟨name, fields, methods⟩ vs ∧ Field.AreZero st fields vs

def Field.AreZero (st : Store) : List Field → List Value → Prop
  | [], vs => vs = []
  | ⟨_, t, _⟩ :: fs, vs => ∃ v ws, vs = v :: ws ∧ t.IsZero st v ∧ Field.AreZero st fs ws

end

section

variable {st st' : Store}

mutual

theorem Ty.IsZero.mono (wider : st.Wider st') {t : Ty} {v : Value} (h : t.IsZero st v) :
    t.IsZero st' v := by
  cases t with
  | map k e =>
    obtain ⟨i, rfl, empty⟩ := h
    exact ⟨i, rfl, wider.maps empty⟩
  | slice e =>
    obtain ⟨i, rfl, empty⟩ := h
    exact ⟨i, rfl, wider.backings empty⟩
  | struct t => exact StructTy.IsZero.mono wider h
  | _ => exact h

theorem StructTy.IsZero.mono (wider : st.Wider st') {t : StructTy} {v : Value} (h : t.IsZero st v) :
    t.IsZero st' v := by
  obtain ⟨name, fields, methods⟩ := t
  obtain ⟨vs, rfl, zeros⟩ := h
  exact ⟨vs, rfl, Field.AreZero.mono wider zeros⟩

theorem Field.AreZero.mono (wider : st.Wider st') {fs : List Field} {vs : List Value}
    (h : Field.AreZero st fs vs) : Field.AreZero st' fs vs := by
  match fs with
  | [] => exact h
  | ⟨_, t, _⟩ :: fs =>
    obtain ⟨v, ws, rfl, zero, zeros⟩ := h
    exact ⟨v, ws, rfl, Ty.IsZero.mono wider zero, Field.AreZero.mono wider zeros⟩

end

mutual

theorem Ty.zero_gains (t : Ty) (st : Store) :
    t.IsZero (t.zero st).2 (t.zero st).1 ∧ st.Gains (t.zero st).2 (t.zero st).1.refs := by
  cases t with
  | map k e => exact ⟨⟨_, rfl, Heap.get?_push_self ..⟩, Store.gains_newMap [] st⟩
  | slice e => exact ⟨⟨_, rfl, Heap.get?_push_self ..⟩, Store.gains_newBacking #[] st⟩
  | struct t => exact StructTy.zero_gains t st
  | _ => exact ⟨rfl, .refl st⟩

theorem StructTy.zero_gains (t : StructTy) (st : Store) :
    t.IsZero (t.zero st).2 (t.zero st).1 ∧ st.Gains (t.zero st).2 (t.zero st).1.refs := by
  obtain ⟨name, fields, methods⟩ := t
  obtain ⟨zeros, gains⟩ := Field.zeros_gains fields st
  exact ⟨⟨_, rfl, zeros⟩, gains⟩

theorem Field.zeros_gains (fs : List Field) (st : Store) :
    Field.AreZero (Field.zeros fs st).2 fs (Field.zeros fs st).1 ∧
      st.Gains (Field.zeros fs st).2 (Value.refsAll (Field.zeros fs st).1) := by
  match fs with
  | [] => exact ⟨rfl, .refl st⟩
  | ⟨_, t, _⟩ :: fs =>
    obtain ⟨zero, first⟩ := Ty.zero_gains t st
    obtain ⟨zeros, rest⟩ := Field.zeros_gains fs (t.zero st).2
    exact ⟨⟨_, _, rfl, zero.mono rest.toWider, zeros⟩, first.append rest⟩

end

theorem Ty.zeros_gains (t : Ty) (n : Nat) (st : Store) :
    (t.zeros n st).1.length = n ∧ (∀ v ∈ (t.zeros n st).1, t.IsZero (t.zeros n st).2 v) ∧
      st.Gains (t.zeros n st).2 (Value.refsAll (t.zeros n st).1) := by
  induction n generalizing st with
  | zero => exact ⟨rfl, List.forall_mem_nil _, .refl st⟩
  | succ n ih =>
    obtain ⟨zero, first⟩ := Ty.zero_gains t st
    obtain ⟨length, zeros, rest⟩ := ih (t.zero st).2
    refine ⟨congrArg Nat.succ length, ?_, first.append rest⟩
    exact List.forall_mem_cons.mpr ⟨zero.mono rest.toWider, zeros⟩

mutual

theorem Ty.IsZero.contents {t : Ty} {v : Value} (h : t.IsZero st v) :
    ∀ r ∈ v.refs, st.contents r = [] := by
  cases t with
  | map k e =>
    obtain ⟨i, rfl, empty⟩ := h
    simp [Value.refs, Item.ref?, Store.contents, empty]
  | slice e =>
    obtain ⟨i, rfl, empty⟩ := h
    simp [Value.refs, Item.ref?, Store.contents, empty]
  | struct t => exact StructTy.IsZero.contents h
  | _ =>
    cases h
    simp [Value.refs, Item.ref?]

theorem StructTy.IsZero.contents {t : StructTy} {v : Value} (h : t.IsZero st v) :
    ∀ r ∈ v.refs, st.contents r = [] := by
  obtain ⟨name, fields, methods⟩ := t
  obtain ⟨vs, rfl, zeros⟩ := h
  exact Field.AreZero.contents zeros

theorem Field.AreZero.contents {fs : List Field} {vs : List Value} (h : Field.AreZero st fs vs) :
    ∀ r ∈ Value.refsAll vs, st.contents r = [] := by
  match fs with
  | [] =>
    cases h
    simp [Value.refsAll]
  | ⟨_, t, _⟩ :: fs =>
    obtain ⟨v, ws, rfl, zero, zeros⟩ := h
    simp only [Value.refsAll, List.mem_append]
    rintro r (first | rest)
    · exact Ty.IsZero.contents zero r first
    · exact Field.AreZero.contents zeros r rest

end

end

end HostBridge
