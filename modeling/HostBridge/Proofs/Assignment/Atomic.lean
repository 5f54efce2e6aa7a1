import HostBridge.Proofs.Assignment.Frame
import HostBridge.Proofs.Slice.Position
import HostBridge.Proofs.Typing.Session

namespace HostBridge

variable {α β : Type}

structure Heap.Changed (i : Nat) (R : α → α → Prop) (h h' : Heap α) : Prop where
  size : h'.size = h.size
  other : ∀ {j : Nat}, j ≠ i → h'.get? j = h.get? j
  rel : ∀ {a a' : α}, h.get? i = some a → h'.get? i = some a' → R a a'

theorem Heap.changed_set {h : Heap α} {i : Nat} {a : α} {R : α → α → Prop}
    (hr : ∀ b, h.get? i = some b → R b a) : h.Changed i R (h.set i a) where
  size := size_set h i a
  other ne := (get?_set ..).trans (if_neg fun both => ne both.1.symm)
  rel := by
    intro b b' hb hb'
    obtain ⟨inside, _⟩ := Array.getElem?_eq_some_iff.mp hb
    rw [get?_set, if_pos ⟨rfl, inside⟩] at hb'
    cases hb'
    exact hr b hb

def Spliced (old new : Option α) (xs ys : List α) : Prop :=
  ∃ l r, xs = l ++ old.toList ++ r ∧ ys = l ++ new.toList ++ r

theorem Spliced.cons {old new : Option α} {xs ys : List α} (x : α) (h : Spliced old new xs ys) :
    Spliced old new (x :: xs) (x :: ys) := by
  obtain ⟨l, r, rfl, rfl⟩ := h
  exact ⟨x :: l, r, rfl, rfl⟩

def Table.Assigned (key value : Script) (es es' : List (Script × Script)) : Prop :=
  ∃ old new, Spliced old new es es' ∧ new.isNone = value.isNil ∧
    (∀ e ∈ old, e.1.rawSame key = true) ∧
    (∀ e ∈ new, (e.1 = key ∨ e.1.rawSame key = true) ∧ e.2 = value) ∧
    (old = none → ∀ e ∈ es, e.1.rawSame key = false)

def Map.Assigned (e : Entry) (es es' : List Entry) : Prop :=
  ∃ old, Spliced old (some e) es es' ∧ (∀ x ∈ old, x.index = e.index) ∧
    (old = none → ∀ x ∈ es, x.index ≠ e.index)

inductive Write
  | entry (table : Nat) (key value : Script)
  | element (map : Nat) (e : Entry)
  | slot (backing i : Nat) (v : Value)
  | field (cell i : Nat) (v : Value)

def Write.Effect (st st' : Store) : Write → Prop
  | .entry i key value => ∃ tables, st' = { st with tables } ∧
    st.tables.Changed i (Table.Assigned key value) tables
  | .element i e => ∃ maps, st' = { st with maps } ∧ st.maps.Changed i (Map.Assigned e) maps
  | .slot i j v => ∃ backings, st' = { st with backings } ∧
    st.backings.Changed i (fun items items' => j < items.size ∧ items' = items.setIfInBounds j v)
      backings
  | .field i j v => ∃ cells, st' = { st with cells } ∧
    st.cells.Changed i (fun u u' => ∃ t vs, u = .struct t vs ∧ u' = .struct t (vs.set j v)) cells

inductive Script.Denotes (st : Store) : Script → Value → Prop
  | held {h : Handle} {v : Value} : h.payload = .value v → Denotes st (.handle h) v
  | pointee {h : Handle} {p : Pointer} {c : Nat} {v : Value} : h.payload = .value (.ptr p) →
    p.cell = some c → st.cells.get? c = some v → Denotes st (.handle h) v

def Script.Converts (st : Store) (t : Ty) (x : Script) (v : Value) : Prop :=
  t.accepts v = true ∧ ∃ st₁ st₂, st.Grown st₁ ∧ x.toHost t st₁ = .ok v st₂

/-- The write that an assignment of `value` to `target` under `key` means. A slice has its items
under the numbers from one on; no memory has room for as many as the bound. -/
inductive Write.Meant (st : Store) (target key value : Script) : Write → Prop
  | entry {i : Nat} : target = .table i → Meant st target key value (.entry i key value)
  | element {m : Map} {index : Key} {k v : Value} : target.Denotes st (.map m) →
    key.Converts st m.key k → m.keyOf k = .ok index → value.Converts st m.elem v →
      Meant st target key value (.element m.id ⟨index, k, v⟩)
  | slot {w : Slice} {i : Nat} {v : Value} : target.Denotes st (.slice w) → i < w.len →
    (w.len < 2 ^ 63 - 1 → key.IsNumber (i + 1 : Nat)) → value.Converts st w.elem v →
      Meant st target key value (.slot w.backing (w.offset + i) v)
  | field {h : Handle} {p : Pointer} {c i : Nat} {t : StructTy} {vs : List Value} {name : String}
      {f : Field} {v : Value} : target = .handle h → h.payload = .value (.ptr p) →
    p.cell = some c → st.cells.get? c = some (.struct t vs) → key = .string name →
    t.fields[i]? = some f → f.name = name → f.exported = true →
    (∀ j < i, ∀ g, t.fields[j]? = some g → g.name ≠ name) → value.Converts st f.type v →
      Meant st target key value (.field c i v)

theorem Write.Meant.slot_of_held {st : Store} {h : Handle} {key value : Script} {write : Write}
    {w : Slice} (meant : Meant st (.handle h) key value write)
    (held : h.payload = .value (.slice w)) :
    ∃ i v, i < w.len ∧ (w.len < 2 ^ 63 - 1 → key.IsNumber (i + 1 : Nat)) ∧
      value.Converts st w.elem v ∧ write = .slot w.backing (w.offset + i) v := by
  cases meant with
  | entry eq => cases eq
  | element denotes => cases denotes with
    | held eq | pointee eq => cases held.symm.trans eq
  | slot denotes inside number converts => cases denotes with
    | pointee eq => cases held.symm.trans eq
    | held eq =>
      cases held.symm.trans eq
      exact ⟨_, _, inside, number, converts, rfl⟩
  | field eq pointer =>
    cases eq
    cases held.symm.trans pointer

/-- The computation makes one write with the property, after nothing else has changed, or fails
and changes nothing. -/
def Assigns {ε : Type} (st : Store) (x : EStateM (Stop ε) Store α) (M : Write → Prop) : Prop :=
  match x st with
  | .ok _ st' => ∃ w st₀, M w ∧ st.Grown st₀ ∧ w.Effect st₀ st'
  | .error stop st' => st.Grown st' ∧ ∃ e, stop = .error e

namespace Assigns

variable {ε : Type} {st : Store} {M : Write → Prop}

theorem imp {M' : Write → Prop} {x : EStateM (Stop ε) Store α} (hx : Assigns st x M)
    (h : ∀ w, M w → M' w) : Assigns st x M' := by
  simp only [Assigns] at hx ⊢
  split at hx
  · obtain ⟨w, st₀, hm, rest⟩ := hx
    exact ⟨w, st₀, h w hm, rest⟩
  · exact hx

theorem fail {e : ε} : Assigns st (throw (.error e) : EStateM (Stop ε) Store α) M :=
  ⟨.refl st, e, rfl⟩

theorem bind {x : EStateM (Stop ε) Store α} {f : α → EStateM (Stop ε) Store β} {Q : α → Prop}
    (hx : Yields st x Q)
    (hf : ∀ a st', x st = .ok a st' → Q a → st.Grown st' → Assigns st' (f a) M) :
    Assigns st (x >>= f) M := by
  simp only [Yields] at hx
  simp only [Assigns]
  split at hx
  · rename_i a st' eq
    have second := hf a st' eq hx.2 hx.1
    rw [bind_ok eq]
    simp only [Assigns] at second
    split at second
    · obtain ⟨w, st₀, hm, grown, effect⟩ := second
      exact ⟨w, st₀, hm, hx.1.trans grown, effect⟩
    · exact ⟨hx.1.trans second.1, second.2⟩
  · rename_i eq
    rw [bind_error eq]
    exact hx

theorem host {x : HostM α} (hx : Assigns st x M) : Assigns st (liftM x : BridgeM α) M := by
  simp only [Assigns] at hx ⊢
  split at hx
  · rename_i eq
    rw [host_ok eq]
    exact hx
  · rename_i eq
    rw [host_error eq]
    obtain ⟨grown, e, rfl⟩ := hx
    exact ⟨grown, .ofHost e, rfl⟩

theorem modify {f : Store → Store} {w : Write} (hm : M w) (effect : w.Effect st (f st)) :
    Assigns st (modify f : EStateM (Stop ε) Store PUnit) M := ⟨w, st, hm, .refl st, effect⟩

theorem except_bind {x : Except ε α} {f : α → EStateM (Stop ε) Store β}
    (h : ∀ a, x = .ok a → Assigns st (f a) M) : Assigns st (liftM x >>= f) M := by
  cases x with
  | ok a => exact h a rfl
  | error e => exact fail

theorem hostExcept_bind {x : Except HostError α} {f : α → BridgeM β}
    (h : ∀ a, x = .ok a → Assigns st (f a) M) : Assigns st (liftM x >>= f) M := by
  cases x with
  | ok a => exact h a rfl
  | error e => exact ⟨.refl st, .ofHost e, rfl⟩

theorem get_bind {f : Store → EStateM (Stop ε) Store β} (h : Assigns st (f st) M) :
    Assigns st (get >>= f) M := h

theorem guard {c : Prop} [Decidable c] {e : BridgeError} {f : Unit → BridgeM β}
    (h : ¬c → Assigns st (f ()) M) :
    Assigns st (if c then BridgeM.fail e >>= f else f ()) M := by
  split
  · exact fail
  · rename_i passed
    exact h passed

theorem check_bind {t : Ty} {v : Value} {f : Unit → HostM β}
    (h : t.accepts v = true → Assigns st (f ()) M) :
    Assigns st (HostM.check t v >>= f) M := by
  simp only [HostM.check]
  split
  · rename_i accepted
    exact h accepted
  · exact fail

end Assigns

theorem Table.assigned_update (key value : Script) (es : List (Script × Script)) :
    Table.Assigned key value es (Table.update key value es) := by
  simp only [Table.update]
  split
  · rename_i i found isNil
    obtain ⟨hi, same, _⟩ := List.findIdx?_eq_some_iff_getElem.mp found
    refine ⟨some es[i], none, ⟨es.take i, es.drop (i + 1), ?_, ?_⟩, by simp [isNil], ?_, by simp,
      by simp⟩
    · simp
    · simp [List.eraseIdx_eq_take_drop_succ]
    · simpa using same
  · rename_i i found notNil
    obtain ⟨hi, same, _⟩ := List.findIdx?_eq_some_iff_getElem.mp found
    refine ⟨some es[i], some (es[i].1, value), ⟨es.take i, es.drop (i + 1), ?_, ?_⟩,
      by simp [notNil], ?_, ?_, by simp⟩
    · simp
    · rw [List.modify_eq_take_cons_drop hi]
      simp
    · simpa using same
    · simpa using .inr same
  · rename_i absent isNil
    refine ⟨none, none, ⟨es, [], by simp, by simp⟩, by simp [isNil], by simp, by simp, ?_⟩
    simpa using List.findIdx?_eq_none_iff.mp absent
  · rename_i absent notNil
    refine ⟨none, some (key, value), ⟨es, [], by simp, by simp⟩, by simp [notNil], by simp,
      by simp, ?_⟩
    simpa using List.findIdx?_eq_none_iff.mp absent

theorem Map.assigned_put (e : Entry) (es : List Entry) : Map.Assigned e es (Entry.put e es) := by
  induction es with
  | nil => exact ⟨none, ⟨[], [], rfl, rfl⟩, by simp, by simp⟩
  | cons x xs ih =>
    simp only [Entry.put]
    split
    · rename_i same
      exact ⟨some x, ⟨[], xs, rfl, rfl⟩, by simpa using same, by simp⟩
    · rename_i other
      obtain ⟨old, spliced, hold, absent⟩ := ih
      refine ⟨old, spliced.cons x, hold, fun eq => ?_⟩
      rw [List.forall_mem_cons]
      exact ⟨other, absent eq⟩

section

variable {st : Store} {key value : Script}

theorem Store.Grown.converts {st' : Store} (grown : st.Grown st') {t : Ty} {x : Script} {v : Value}
    (h : x.Converts st' t v) : x.Converts st t v := by
  obtain ⟨accepted, st₁, st₂, grown', eq⟩ := h
  exact ⟨accepted, st₁, st₂, grown.trans grown', eq⟩

theorem Table.set_assigns {i : Nat} :
    Assigns st (Table.set i key value) (· = .entry i key value) := by
  simp only [Table.set]
  split
  · exact Assigns.fail
  · refine Assigns.modify rfl ⟨_, rfl, Heap.changed_set fun es hes => ?_⟩
    have eq : Table.entries st i = es := by simp [Table.entries, hes]
    rw [eq]
    exact Table.assigned_update key value es

theorem Map.insert_assigns {m : Map} {k v : Value} :
    Assigns st (m.insert k v) fun w => ∃ index, m.keyOf k = .ok index ∧
      m.elem.accepts v = true ∧ w = .element m.id ⟨index, k, v⟩ := by
  apply Assigns.except_bind
  intro index keyed
  apply Assigns.check_bind
  intro accepted
  refine Assigns.modify ⟨index, keyed, accepted, rfl⟩ ⟨_, rfl, Heap.changed_set fun es hes => ?_⟩
  have eq : m.entries st = es := by simp [Map.entries, hes]
  rw [eq]
  exact Map.assigned_put _ es

theorem Map.assign_assigns {m : Map} :
    Assigns st (m.assign key value) fun w => ∃ index k v, key.Converts st m.key k ∧
      m.keyOf k = .ok index ∧ value.Converts st m.elem v ∧ w = .element m.id ⟨index, k, v⟩ := by
  apply Assigns.bind (Script.mild_toHost _ _ _)
  intro k st₁ hk _ grown₁
  apply Assigns.bind (Script.mild_toHost _ _ _)
  intro v st₂ hv _ grown₂
  apply (Assigns.host Map.insert_assigns).imp
  rintro w ⟨index, keyed, accepted, rfl⟩
  exact ⟨index, k, v, ⟨accepts_of_keyOf keyed, st, st₁, .refl st, hk⟩, keyed,
    ⟨accepted, st₁, st₂, grown₁, hv⟩, rfl⟩

def Slice.Inside (st : Store) (w : Slice) : Prop :=
  ∃ items, st.backings.get? w.backing = some items ∧ w.offset + w.len ≤ items.size

theorem Slice.Inside.mono {st' : Store} (grown : st.Grown st') {w : Slice} (h : w.Inside st) :
    w.Inside st' := by
  obtain ⟨items, hitems, bound⟩ := h
  exact ⟨items, grown.backings hitems, bound⟩

theorem Slice.written_eq_set {items : Array Value} {j : Nat} {v : Value} (h : j < items.size) :
    items.extract 0 j ++ [v].toArray ++ items.extract (j + 1) items.size =
      items.setIfInBounds j v := by
  apply Array.toList_inj.mp
  simp only [Array.toList_append, Array.toList_extract, Array.toList_setIfInBounds]
  rw [List.set_eq_take_append_cons_drop, if_pos (by simpa using h)]
  simp [List.extract_eq_take_drop, List.take_of_length_le]

theorem Slice.set_assigns {w : Slice} (inside : w.Inside st) {i : Nat} {v : Value} :
    Assigns st (w.set i v) fun wr => w.elem.accepts v = true ∧
      wr = .slot w.backing (w.offset + i) v := by
  obtain ⟨items, hitems, bound⟩ := inside
  have eq : w.items st = items := by simp [Slice.items, hitems]
  simp only [Slice.set]
  split
  · rename_i small
    apply Assigns.check_bind
    intro accepted
    apply Assigns.get_bind
    have room : w.offset + i + [v].length ≤ (w.items st).size := by
      simp only [eq, List.length_singleton]
      omega
    rw [if_pos room]
    refine Assigns.modify ⟨accepted, rfl⟩ ⟨_, rfl, Heap.changed_set fun items' hitems' => ?_⟩
    rw [hitems] at hitems'
    cases hitems'
    simp only [eq, List.length_singleton] at room ⊢
    exact ⟨room, written_eq_set room⟩
  · exact Assigns.fail

theorem Slice.assign_assigns {w : Slice} (inside : w.Inside st) :
    Assigns st (w.assign key value) fun wr => ∃ i v, key.position w.len = .ok i ∧
      value.Converts st w.elem v ∧ wr = .slot w.backing (w.offset + i) v := by
  apply Assigns.except_bind
  intro i hi
  apply Assigns.bind (Script.mild_toHost _ _ _)
  intro v st₁ hv _ grown
  apply (Assigns.host (Slice.set_assigns (inside.mono grown))).imp
  rintro wr ⟨accepted, rfl⟩
  exact ⟨i, v, hi, ⟨accepted, st, st₁, .refl st, hv⟩, rfl⟩

theorem StructTy.assign_assigns {t : StructTy} {M : Write → Prop} :
    Assigns st (t.assign key) M := by
  apply Assigns.except_bind
  intro name _
  split
  · exact Assigns.fail
  · exact Assigns.fail

theorem Script.eq_of_fieldName {type name : String} (h : key.fieldName type = .ok name) :
    key = .string name := by
  simp only [fieldName] at h
  split at h
  · cases h
    rfl
  · cases h

theorem StructTy.declared_of_field? {t : StructTy} {name : String} {i : Nat} {f : Field}
    (h : t.field? name = some (i, f)) : t.fields[i]? = some f := by
  simp only [field?, Option.bind_eq_some_iff, Option.map_eq_some_iff, Prod.mk.injEq] at h
  obtain ⟨_, -, _, declared, rfl, rfl⟩ := h
  exact declared

theorem StructTy.named_of_field? {t : StructTy} {name : String} {i : Nat} {f : Field}
    (h : t.field? name = some (i, f)) :
    f.name = name ∧ ∀ j < i, ∀ g, t.fields[j]? = some g → g.name ≠ name := by
  simp only [field?, Option.bind_eq_some_iff, Option.map_eq_some_iff, Prod.mk.injEq] at h
  obtain ⟨k, found, _, declared, rfl, rfl⟩ := h
  obtain ⟨inside, named, before⟩ := List.findIdx?_eq_some_iff_getElem.mp found
  obtain ⟨_, rfl⟩ := List.getElem?_eq_some_iff.mp declared
  refine ⟨by simpa using named, fun j hj g hg => ?_⟩
  obtain ⟨_, rfl⟩ := List.getElem?_eq_some_iff.mp hg
  simpa using before j hj

theorem StructTy.field_of_exported? {t : StructTy} {name : String} {i : Nat} {f : Field}
    (h : t.exported? name = some (i, f)) : t.fields[i]? = some f ∧ f.exported = true := by
  obtain ⟨found, exported⟩ := Option.filter_eq_some_iff.mp h
  exact ⟨declared_of_field? found, exported⟩

theorem StructTy.setAt_of_exported? {t : StructTy} {name : String} {i : Nat} {f : Field}
    (h : t.exported? name = some (i, f)) {vs vs' : List Value} {v : Value}
    (changed : t.setAt vs i v = .ok vs') : f.type.accepts v = true ∧ vs' = vs.set i v := by
  obtain ⟨declared, -⟩ := field_of_exported? h
  simp only [setAt, declared] at changed
  split at changed
  · rename_i accepted
    cases changed
    exact ⟨accepted, rfl⟩
  · cases changed

theorem Pointer.load_eq_struct {p : Pointer} {t : StructTy} {vs : List Value}
    (h : p.load st = .ok (.struct t vs)) :
    ∃ c, p.cell = some c ∧ st.cells.get? c = some (.struct t vs) := by
  simp only [load] at h
  split at h
  · rename_i c hc
    refine ⟨c, hc, ?_⟩
    cases hv : st.cells.get? c with
    | none => simp [hv] at h
    | some v => simpa [hv] using h
  · cases h

theorem Pointer.write_assigns {p : Pointer} {c i : Nat} {t : StructTy} {vs : List Value}
    {v : Value} (hc : p.cell = some c) (held : st.cells.get? c = some (.struct t vs)) :
    Assigns st (p.write (.struct t (vs.set i v))) (· = .field c i v) := by
  simp only [write, hc]
  refine Assigns.modify rfl ⟨_, rfl, Heap.changed_set fun u hu => ?_⟩
  rw [held] at hu
  cases hu
  exact ⟨t, vs, rfl, rfl⟩

theorem Pointer.assign_assigns {p : Pointer} :
    Assigns st (p.assign key value) fun wr => ∃ c t vs name i f v, p.cell = some c ∧
      st.cells.get? c = some (.struct t vs) ∧ key = .string name ∧
      t.exported? name = some (i, f) ∧ value.Converts st f.type v ∧ wr = .field c i v := by
  simp only [Pointer.assign]
  apply Assigns.guard
  intro _
  split
  · apply Assigns.except_bind
    intro name named
    apply Assigns.get_bind
    apply Assigns.hostExcept_bind
    intro v loaded
    split
    · rename_i t vs
      split
      · exact Assigns.fail
      · rename_i i f exported
        obtain ⟨c, hc, held⟩ := load_eq_struct loaded
        apply Assigns.bind (Script.mild_toHost _ _ _)
        intro v st₁ hv _ grown
        apply Assigns.hostExcept_bind
        intro vs' changed
        obtain ⟨accepted, rfl⟩ := StructTy.setAt_of_exported? exported changed
        have held' : st₁.cells.get? c = some (.struct t vs) := by rw [grown.cells, held]
        apply (Assigns.host (write_assigns hc held')).imp
        rintro wr rfl
        exact ⟨c, t, vs, name, i, f, v, hc, held, Script.eq_of_fieldName named, exported,
          ⟨accepted, st, st₁, .refl st, hv⟩, rfl⟩
    · exact Assigns.fail
  · exact Assigns.fail

end

inductive Script.Leads (st : Store) (target : Script) : Script → Prop
  | self : Leads st target target
  | nothing : Leads st target .nil
  | pointee {h : Handle} {p : Pointer} {c id : Nat} {v : Value} {t : Option OperatorTable} :
    target = .handle h → h.payload = .value (.ptr p) → p.cell = some c →
    st.cells.get? c = some v → (∀ q, v ≠ .ptr q) → Leads st target (.handle ⟨id, .value v, t⟩)

section

variable {W : World} {st : Store} {s : Nat} {target x key value : Script}

theorem Handle.eq_of_make {kind : HandleKind} {payload : Payload} {st' : Store}
    (h : make s kind payload st = .ok x st') :
    ∃ id set, x = .handle ⟨id, payload, some ⟨set, kind⟩⟩ := by
  simp only [make] at h
  cases built : State.operators s st with
  | ok set st₁ =>
    rw [bind_ok built] at h
    cases h
    exact ⟨st₁.fresh, set, rfl⟩
  | error stop st₁ =>
    rw [bind_error built] at h
    cases h

theorem Ty.map_of_accepts {k e : Ty} {v : Value} (h : (Ty.map k e).accepts v = true) :
    v = .nil ∨ ∃ m, v = .map m := by
  cases v with
  | nil => exact .inl rfl
  | map m => exact .inr ⟨m, rfl⟩
  | func f =>
    obtain ⟨⟨_, _, _⟩, _⟩ := f
    simp [accepts, Value.type, ident, Signature.ident] at h
  | _ => simp [accepts, Value.type, ident, Chan.type, Slice.type, Pointer.type] at h

theorem Ty.slice_of_accepts {e : Ty} {v : Value} (h : (Ty.slice e).accepts v = true) :
    v = .nil ∨ ∃ w, v = .slice w := by
  cases v with
  | nil => exact .inl rfl
  | slice w => exact .inr ⟨w, rfl⟩
  | func f =>
    obtain ⟨⟨_, _, _⟩, _⟩ := f
    simp [accepts, Value.type, ident, Signature.ident] at h
  | _ => simp [accepts, Value.type, ident, Chan.type, Map.type, Pointer.type] at h

theorem Script.destination_inner {fuel id : Nat} {v : Value} {t : Option OperatorTable}
    (h : ∀ q, v ≠ .ptr q) :
    destination s (fuel + 1) (.handle ⟨id, .value v, t⟩) = pure (.handle ⟨id, .value v, t⟩) := by
  unfold destination
  split
  · contradiction
  · rename_i p _ _ eq
    cases eq
    exact absurd rfl (h p)
  · rfl

theorem Script.yields_inner {fuel : Nat} {v : Value}
    (h : v = .nil ∨ (∃ m, v = .map m) ∨ ∃ w, v = .slice w) :
    Yields st (do
      let inner ← v.toScript s
      destination s (fuel + 1) inner) fun x => x = .nil ∨ (∀ q, v ≠ .ptr q) ∧
        ∃ id t, x = .handle ⟨id, .value v, t⟩ := by
  apply (v.mild_toScript st).bind
  intro x st' eq _
  obtain rfl | ⟨m, rfl⟩ | ⟨w, rfl⟩ := h
  · cases eq
    exact Yields.pure (.inl rfl)
  · obtain ⟨id, set, rfl⟩ := Handle.eq_of_make eq
    rw [destination_inner (by simp)]
    exact Yields.pure (.inr ⟨by simp, id, _, rfl⟩)
  · obtain ⟨id, set, rfl⟩ := Handle.eq_of_make eq
    rw [destination_inner (by simp)]
    exact Yields.pure (.inr ⟨by simp, id, _, rfl⟩)

theorem Script.destination_yields (ht : Store.Typed W st) (htarget : target.Typed W)
    (fuel : Nat) : Yields st (destination s (fuel + 2) target) (Leads st target) := by
  unfold destination
  split
  · contradiction
  · rename_i i p set eq
    cases eq
    have hp := (typed_handle.mp htarget).2
    have follow : (∀ v, p.elem.accepts v = true →
          v = .nil ∨ (∃ m, v = .map m) ∨ ∃ w, v = .slice w) → Yields st (do
        if p.isNil then BridgeM.fail .nilDereference
        let v ← (p.load (← get) : Except HostError Value)
        let inner ← v.toScript s
        destination s (fuel + 1) inner : BridgeM Script)
        (Leads st (.handle ⟨i, .value (.ptr p), some ⟨set, .ptr⟩⟩)) := by
      intro kind
      apply Yields.guard
      intro _
      apply (Mild.get st).bind
      rintro _ _ ⟨⟩ _
      apply Yields.hostExcept_bind
      intro v loaded
      obtain ⟨c, hc, held⟩ := Pointer.load_eq ht hp loaded
      apply (yields_inner (kind v (Pointer.fits_of_load ht hp loaded).accepts)).imp
      rintro x (rfl | ⟨inner, id, t, rfl⟩)
      · exact .nothing
      · exact .pointee rfl rfl hc held inner
    split
    · rename_i elem
      apply follow
      intro v hv
      rw [elem] at hv
      exact (Ty.map_of_accepts hv).imp id .inl
    · rename_i elem
      apply follow
      intro v hv
      rw [elem] at hv
      exact (Ty.slice_of_accepts hv).imp id .inr
    · exact Yields.pure .self
  · exact Yields.pure .self

theorem Value.Typed.inside {w : Slice} (ht : Store.Typed W st) (hw : (Value.slice w).Typed W) :
    w.Inside st := by
  obtain ⟨n, hn, bounds⟩ := Value.typed_slice.mp hw
  obtain ⟨items, hitems, size, _⟩ := ht.backings.get hn
  exact ⟨items, hitems, by dsimp only at size; omega⟩

theorem Script.Leads.inside {w : Slice} (leads : Leads st target x) (ht : Store.Typed W st)
    (htarget : target.Typed W) {h : Handle} (hx : x = .handle h)
    (hw : h.payload = .value (.slice w)) : w.Inside st := by
  cases leads with
  | self =>
    subst hx
    exact ((typed_handle.mp htarget).2.value hw).inside ht
  | nothing => cases hx
  | pointee eq hp hc held _ =>
    subst eq
    cases hx
    cases hw
    have pointer := (typed_handle.mp htarget).2.value hp
    exact (ht.cells.rel (Value.typed_ptr.mp pointer _ hc) held).typed.inside ht

theorem Script.Leads.denotes {v : Value} (leads : Leads st target x) {h : Handle}
    (hx : x = .handle h) (hv : h.payload = .value v) : target.Denotes st v := by
  cases leads with
  | self =>
    subst hx
    exact .held hv
  | nothing => cases hx
  | pointee ht hp hc held _ =>
    subst ht
    cases hx
    cases hv
    exact .pointee hp hc held

theorem Script.Leads.eq_of_pointer {p : Pointer} (leads : Leads st target x) {h : Handle}
    (hx : x = .handle h) (hp : h.payload = .value (.ptr p)) : target = .handle h := by
  cases leads with
  | self => exact hx
  | nothing => cases hx
  | pointee _ _ _ _ other =>
    cases hx
    cases hp
    exact absurd rfl (other p)

theorem Script.assign_assigns {st' : Store} (leads : Leads st target x) (grown : st.Grown st')
    (inside : ∀ {h w}, x = .handle h → h.payload = .value (.slice w) → w.Inside st') :
    Assigns st' (x.assign key value) (Write.Meant st target key value) := by
  simp only [assign]
  split
  · apply Table.set_assigns.imp
    rintro w rfl
    cases leads
    exact .entry rfl
  · rename_i h
    split
    · rename_i m _ eq
      apply Map.assign_assigns.imp
      rintro w ⟨index, k, v, hk, keyed, hv, rfl⟩
      exact .element (leads.denotes rfl eq) (grown.converts hk) keyed (grown.converts hv)
    · rename_i w _ eq
      apply (Slice.assign_assigns (inside rfl eq)).imp
      rintro wr ⟨i, v, hi, hv, rfl⟩
      exact .slot (leads.denotes rfl eq) (position_lt hi)
        (fun small => ((position_eq_ok small).mp hi).1) (grown.converts hv)
    · exact StructTy.assign_assigns
    · rename_i p _ eq
      apply Pointer.assign_assigns.imp
      rintro wr ⟨c, t, vs, name, i, f, v, hc, held, hkey, exported, hv, rfl⟩
      rw [grown.cells] at held
      obtain ⟨found, -⟩ := Option.filter_eq_some_iff.mp exported
      obtain ⟨declared, visible⟩ := StructTy.field_of_exported? exported
      obtain ⟨named, first⟩ := StructTy.named_of_field? found
      exact .field (leads.eq_of_pointer rfl eq) eq hc held hkey declared named visible first
        (grown.converts hv)
    · exact Assigns.fail
  · exact Assigns.fail

theorem Script.setIndex_assigns (ht : Store.Typed W st) (htarget : target.Typed W) :
    Assigns st (target.setIndex s key value) (Write.Meant st target key value) := by
  apply Assigns.get_bind
  apply Assigns.bind (destination_yields ht htarget st.cells.size)
  intro x st' _ leads grown
  exact assign_assigns leads grown fun hx hw => (leads.inside ht htarget hx hw).mono grown

end

namespace Session

/-- Assignment is atomic and changes one place. After any run, it fails with an error and all is
as it was, or it succeeds and the one change is the write that it means. -/
theorem Run.setIndex_atomic {host : Host} (hhost : ∀ n, (host n).Checked []) {as : List Action}
    {S : Session} (run : Run { host } as S) {target : Script} (occurs : S.Occurs (.script target))
    (s : Nat) (key value : Script) :
    Assigns S.store (target.setIndex s key value) (Write.Meant S.store target key value) := by
  obtain ⟨W, -, fits⟩ := run.exists_fits hhost
  exact Script.setIndex_assigns fits.store (fits.occurs occurs)

theorem setIndex_slot :
    let w : Slice := ⟨.string, 0, 0, 2, 2⟩
    let S := ((({ host := fun _ => Body.arguments } : Session).perform (.newState {})).perform
      (.host (.withCapacity .string 2 2))).perform (.convert 0 (.slice w))
    let target := Script.handle ⟨1, .value (.slice w), some ⟨0, .slice⟩⟩
    let two := Script.number (.ofInt 2)
    Assigns S.store (target.setIndex 0 two (.string "a"))
        (Write.Meant S.store target two (.string "a")) ∧
      (∀ write, Write.Meant S.store target two (.string "a") write →
        write = .slot 0 1 (.string "a")) ∧
      ∃ st', target.setIndex 0 two (.string "a") S.store = .ok () st' ∧
        w.get? st' 0 = some (.string "") ∧ w.get? st' 1 = some (.string "a") := by
  intro w S target two
  refine ⟨Run.setIndex_atomic (fun _ => Body.checked_arguments)
    (.act (.act (.act (.start _) ?_) ?_) ?_) (.held ?_) 0 two (.string "a"), ?_, _, rfl, rfl, rfl⟩
  · exact ⟨List.nil_subset _, by simp [Action.state?]⟩
  · exact ⟨List.nil_subset _, by simp [Action.state?]⟩
  · exact ⟨List.Subset.refl _, by simp [Action.state?]; decide⟩
  · exact List.mem_cons_of_mem _ (List.mem_singleton_self _)
  · intro write meant
    obtain ⟨i, v, -, number, ⟨-, _, _, -, converted⟩, rfl⟩ := meant.slot_of_held rfl
    cases converted
    have second := (number (by decide)).unique (Script.isNumber_ofInt (by decide))
    obtain rfl : i = 1 := by omega
    rfl

end Session

end HostBridge
