import HostBridge.Proofs.Map.History

namespace HostBridge

def BridgeM.after {α : Type} (x : BridgeM α) (st : Store) : Store :=
  match x st with
  | .ok _ st' | .error _ st' => st'

namespace BridgeM

variable {α β : Type} {x : BridgeM α} {f : α → BridgeM β} {st st' : Store}

theorem after_of_ok {a : α} (h : x st = .ok a st') : x.after st = st' := by
  simp only [after, h]

theorem after_of_error {stop : Stop BridgeError} (h : x st = .error stop st') :
    x.after st = st' := by
  simp only [after, h]

theorem after_bind_ok {a : α} (h : x st = .ok a st') : (x >>= f).after st = (f a).after st' := by
  simp only [after, bind_ok h]

theorem after_bind_error {stop : Stop BridgeError} (h : x st = .error stop st') :
    (x >>= f).after st = st' := by
  simp only [after, bind_error h]

end BridgeM

theorem Yields.after {α : Type} {x : BridgeM α} {st : Store} {Q : α → Prop} (hx : Yields st x Q) :
    st.Grown (x.after st) := by
  simp only [Yields] at hx
  simp only [BridgeM.after]
  split at hx
  · rename_i eq
    rw [eq]
    exact hx.1
  · rename_i eq
    rw [eq]
    exact hx.1

inductive Handle.Points (h : Handle) (m : Map) (st : Store) : Prop
  | mk {p : Pointer} {c : Nat} : h.payload = .value (.ptr p) → h.kind? = some .ptr →
    p.cell = some c → st.cells.get? c = some (.map m) → Points h m st

namespace Map

variable {m : Map} {st st' : Store}

def Access.Reaches (m : Map) (st : Store) : Access → Prop
  | .index _ h _ | .assign _ h _ _ => h.Opens m ∨ h.Points m st
  | _ => True

inductive Life (m : Map) : Store → Prop
  | start {st : Store} : st.maps.get? m.id = some [] → Life m st
  | elsewhere {st st' : Store} : Life m st → st'.maps.get? m.id = st.maps.get? m.id → Life m st'
  | access {st : Store} {a : Access} : Life m st → a.Reaches m st → Life m ((a.run m).after st)

/-- Each entry is under the index of its key, and no other entry is. -/
structure Indexed (m : Map) (st : Store) : Prop where
  present : (st.maps.get? m.id).isSome = true
  distinct : Entry.Distinct (m.entries st)
  keyed : ∀ e ∈ m.entries st, m.keyOf e.key = .ok e.index

namespace Indexed

theorem start (h : st.maps.get? m.id = some []) : Indexed m st := by
  have empty : m.entries st = [] := by simp [entries, h]
  exact ⟨by simp [h], empty ▸ Entry.distinct_nil, by simp [empty]⟩

theorem of_eq (indexed : Indexed m st) (h : st'.maps.get? m.id = st.maps.get? m.id) :
    Indexed m st' := by
  have same : m.entries st' = m.entries st := by simp only [entries, h]
  exact ⟨h ▸ indexed.present, same ▸ indexed.distinct, same ▸ indexed.keyed⟩

theorem of_grown (indexed : Indexed m st) (grown : st.Grown st') : Indexed m st' := by
  obtain ⟨es, h⟩ := Option.isSome_iff_exists.mp indexed.present
  exact indexed.of_eq ((grown.maps h).trans h.symm)

theorem write (indexed : Indexed m st) {es : List Entry} (distinct : Entry.Distinct es)
    (keyed : ∀ e ∈ es, m.keyOf e.key = .ok e.index) :
    Indexed m { st with maps := st.maps.set m.id es } := by
  have written := entries_set indexed.present es
  refine ⟨?_, by rwa [written], by rwa [written]⟩
  rw [Heap.isSome_get?_set]
  exact indexed.present

theorem insert (indexed : Indexed m st) {key value : Value}
    (h : m.insert key value st = .ok () st') : Indexed m st' := by
  rw [insert_eq] at h
  cases keyed : m.keyOf key with
  | error e => simp [keyed] at h
  | ok k =>
    simp only [keyed] at h
    split at h
    · cases h
      refine indexed.write (Entry.distinct_put _ indexed.distinct) fun e he => ?_
      obtain rfl | old := Entry.mem_put he
      · exact keyed
      · exact indexed.keyed e old
    · cases h

theorem remove (indexed : Indexed m st) {key : Value} {r : Option Value}
    (h : m.remove key st = .ok r st') : Indexed m st' := by
  rw [remove_eq] at h
  cases keyed : m.keyOf key with
  | error e => simp [keyed] at h
  | ok k =>
    simp only [keyed] at h
    cases h
    exact indexed.write (Entry.distinct_erase _ indexed.distinct)
      fun e he => indexed.keyed e (Entry.mem_erase he)

end Indexed

inductive Access.Effect (m : Map) (st st' : Store) : Prop
  | none : st.Grown st' → Effect m st st'
  | insert {st₁ : Store} {key value : Value} : st.Grown st₁ → m.insert key value st₁ = .ok () st' →
    Effect m st st'
  | remove {key : Value} {r : Option Value} : m.remove key st = .ok r st' → Effect m st st'

theorem effect_insert {st₁ : Store} (grown : st.Grown st₁) (key value : Value) :
    Access.Effect m st (BridgeM.after (m.insert key value) st₁) := by
  cases done : m.insert key value st₁ with
  | ok u st' =>
    rw [BridgeM.after_of_ok (host_ok done)]
    exact .insert grown done
  | error stop st' =>
    rw [BridgeM.after_of_error (host_error done)]
    rw [insert_eq] at done
    split at done
    · cases done
      exact .none grown
    · split at done <;> cases done
      exact .none grown

theorem effect_assign {st₁ : Store} (grown : st.Grown st₁) (key value : Script) :
    Access.Effect m st ((m.assign key value).after st₁) := by
  rw [Map.assign]
  cases hk : key.toHost m.key st₁ with
  | error stop st₂ =>
    rw [BridgeM.after_bind_error hk]
    exact .none (grown.trans ((Script.mild_toHost _ _).of_error hk))
  | ok k st₂ =>
    have grown₂ := grown.trans ((Script.mild_toHost _ _).of_ok hk)
    rw [BridgeM.after_bind_ok hk]
    cases hv : value.toHost m.elem st₂ with
    | error stop st₃ =>
      rw [BridgeM.after_bind_error hv]
      exact .none (grown₂.trans ((Script.mild_toHost _ _).of_error hv))
    | ok v st₃ =>
      rw [BridgeM.after_bind_ok hv]
      exact effect_insert (grown₂.trans ((Script.mild_toHost _ _).of_ok hv)) k v

section

variable {s : Nat} {h : Handle} {p : Pointer} {c : Nat}

theorem load_pointee (cell : p.cell = some c) (held : st.cells.get? c = some (.map m)) :
    p.load st = .ok (.map m) := by
  simp only [Pointer.load, cell, held, Option.getD_some]

theorem yields_index_pointee (cell : p.cell = some c) (held : st.cells.get? c = some (.map m))
    (key : Script) : Yields st (p.index s key) fun _ => True := by
  have read : (get : BridgeM Store) st = .ok st st := rfl
  have loaded : p.index s key st = (do
      let _ ← (Value.map m).toScript s
      m.index s key : BridgeM Script) st := by
    simp only [Pointer.index, Pointer.isNil, cell, Option.isNone_some]
    rw [if_neg Bool.false_ne_true, bind_ok read, load_pointee cell held]
    rfl
  rw [Yields, loaded, ← Yields]
  exact (Value.mild_toScript _).bind (fun _ => mild_index m s key) st

theorem yields_index_of_points (points : h.Points m st) (key : Script) :
    Yields st ((Script.handle h).index s key) fun _ => True := by
  obtain ⟨id, payload, table⟩ := h
  obtain ⟨rfl, kind, cell, held⟩ := points
  obtain ⟨⟨set, _⟩, rfl, rfl⟩ := Option.map_eq_some_iff.mp kind
  exact yields_index_pointee cell held key

theorem assign_pointee (cell : p.cell = some c) (held : st.cells.get? c = some (.map m))
    (key value : Script) : ∃ stop, p.assign key value st = .error stop st := by
  have read : (get : BridgeM Store) st = .ok st st := rfl
  simp only [Pointer.assign, Pointer.isNil, cell, Option.isNone_some]
  rw [if_neg Bool.false_ne_true]
  cases p.elem with
  | struct declared =>
    simp only
    cases key.fieldName declared.name with
    | error e => exact ⟨_, rfl⟩
    | ok name =>
      refine ⟨.error p.badPointee, ?_⟩
      have named : (liftM (Except.ok name : Except BridgeError String) : BridgeM String) st =
        .ok name st := rfl
      rw [bind_ok named, bind_ok read, load_pointee cell held]
      rfl
  | _ => exact ⟨_, rfl⟩

theorem destination_pointee (cell : p.cell = some c) (held : st.cells.get? c = some (.map m))
    (id set fuel : Nat) :
    let target : Script := .handle ⟨id, .value (.ptr p), some ⟨set, .ptr⟩⟩
    Script.destination s (fuel + 1) target st =
        ((Value.map m).toScript s >>= Script.destination s fuel) st ∨
      Script.destination s (fuel + 1) target st = .ok target st := by
  intro target
  have read : (get : BridgeM Store) st = .ok st st := rfl
  cases elem : p.elem with
  | map _ _ | slice _ =>
    left
    simp only [target, Script.destination, elem, Pointer.isNil, cell, Option.isNone_some]
    rw [if_neg Bool.false_ne_true, bind_ok read, load_pointee cell held]
    rfl
  | _ =>
    right
    simp only [target, Script.destination, elem]
    rfl

theorem effect_assign_pointee (cell : p.cell = some c) (held : st.cells.get? c = some (.map m))
    (id set : Nat) (key value : Script) :
    let target : Script := .handle ⟨id, .value (.ptr p), some ⟨set, .ptr⟩⟩
    Access.Effect m st ((target.setIndex s key value).after st) := by
  intro target
  have read : (get : BridgeM Store) st = .ok st st := rfl
  rw [Script.setIndex, BridgeM.after_bind_ok read]
  obtain follow | stays := destination_pointee (s := s) cell held id set (st.cells.size + 1)
  · cases made : (Value.map m).toScript s st with
    | error stop st₁ =>
      rw [BridgeM.after_bind_error (follow.trans (bind_error made))]
      exact .none ((Value.mild_toScript _).of_error made)
    | ok inner st₁ =>
      obtain ⟨i, set, rfl⟩ := Handle.eq_of_make made
      rw [BridgeM.after_bind_ok (follow.trans (bind_ok made))]
      exact effect_assign ((Value.mild_toScript _).of_ok made) key value
  · obtain ⟨stop, refused⟩ := assign_pointee cell held key value
    rw [BridgeM.after_bind_ok stays]
    change Access.Effect m st ((p.assign key value).after st)
    rw [BridgeM.after_of_error refused]
    exact .none (.refl st)

end

theorem Access.effect {a : Access} (reaches : a.Reaches m st) :
    Effect m st ((a.run m).after st) := by
  cases a with
  | insert key value => exact effect_insert (.refl st) key value
  | find key => exact .none (mild_find m key st).after
  | index s h key =>
    obtain opens | points := reaches
    · exact .none (mild_index opens st).after
    · have yields := yields_index_of_points (s := s) points key
      exact .none (yields.bind (R := fun _ => True) fun _ _ _ _ => Yields.pure trivial).after
  | remove key =>
    cases done : m.remove key st with
    | ok r st' =>
      rw [run, BridgeM.after_bind_ok (host_ok done)]
      exact .remove done
    | error stop st' =>
      rw [run, BridgeM.after_bind_error (host_error done)]
      rw [remove_eq] at done
      split at done <;> cases done
      exact .none (.refl st)
  | assign s h key value =>
    obtain opens | points := reaches
    · have ran : (run m (.assign s h key value)).after st = (m.assign key value).after st := by
        simp only [BridgeM.after, run, setIndex_of_opens opens]
      rw [ran]
      exact effect_assign (.refl st) key value
    · obtain ⟨id, payload, table⟩ := h
      obtain ⟨rfl, kind, cell, held⟩ := points
      obtain ⟨⟨set, _⟩, rfl, rfl⟩ := Option.map_eq_some_iff.mp kind
      exact effect_assign_pointee cell held id set key value

namespace Access.Effect

variable (effect : Effect m st st')

include effect

theorem indexed (indexed : Indexed m st) : Indexed m st' := by
  cases effect with
  | none grown => exact indexed.of_grown grown
  | insert grown done => exact (indexed.of_grown grown).insert done
  | remove done => exact indexed.remove done

theorem cursors : st'.cursors = st.cursors := by
  cases effect with
  | none grown => exact grown.cursors
  | insert grown done =>
    rw [insert_eq] at done
    split at done
    · cases done
    · split at done <;> cases done
      exact grown.cursors
  | remove done =>
    rw [remove_eq] at done
    split at done <;> cases done
    rfl

end Access.Effect

theorem Life.indexed (life : Life m st) : Indexed m st := by
  induction life with
  | start h => exact .start h
  | elsewhere _ h ih => exact ih.of_eq h
  | @access st a _ reaches ih => exact (Access.effect reaches).indexed ih

end Map

end HostBridge
