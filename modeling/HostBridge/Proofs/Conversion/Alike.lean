import HostBridge.Proofs.Assignment.Atomic
import HostBridge.Proofs.Conversion.Renewal

/-! Stores with the same storage, where one has given out more numbers than the other, and may have
built the operator tables of a state already. Work of this state ends alike in both of them. -/

namespace HostBridge

variable {n s : Nat} {st st' : Store}

def Later (n i j : Nat) : Prop := n ≤ i ∧ n ≤ j

def Store.bare (st : Store) : Store := { st with states := {}, fresh := 0 }

structure Store.Abreast (n s : Nat) (st st' : Store) : Prop where
  low : n ≤ st.fresh
  low' : n ≤ st'.fresh
  config : (st.state s).config = (st'.state s).config
  usable : State.Usable st s
  usable' : State.Usable st' s
  tables : (∀ set, State.HasTables st s set ↔ State.HasTables st' s set) ∨
    (∀ set, State.HasTables st s set → n ≤ set) ∧ ∀ set, State.HasTables st' s set → n ≤ set

structure Store.Alike (n s : Nat) (st st' : Store) : Prop extends Store.Abreast n s st st' where
  storage : st.bare = st'.bare

namespace State

theorem HasTables.unique {set set' : Nat} (h : HasTables st s set) (h' : HasTables st s set') :
    set = set' := by
  have same := Option.some.inj (Eq.trans (Eq.symm h) h')
  cases same
  rfl

def built (st : Store) (s : Nat) : Store :=
  (setSlot s (st.state s).config.registryKey (.operators st.fresh) st.spent).2

theorem config_built (st : Store) (s : Nat) :
    ((built st s).state s).config = (st.state s).config := config_setSlot st.spent s _ _

theorem usable_built (st : Store) (s : Nat) : Usable (built st s) s := usable_setSlot st.spent s _

theorem fresh_of_built {set : Nat} (h : HasTables (built st s) s set) : set = st.fresh := by
  rw [HasTables, config_built] at h
  have slot := slot?_setSlot st.spent s (st.state s).config.registryKey (.operators st.fresh)
  have eq := h.symm.trans slot
  split at eq <;> cases eq
  rfl

theorem operators_cases (usable : Usable st s) :
    (∃ set, HasTables st s set ∧ operators s st = .ok set st) ∨
      (∀ set, ¬HasTables st s set) ∧ operators s st = .ok st.fresh (built st s) := by
  cases found : slot? st s (st.state s).config.registryKey with
  | none =>
    refine .inr ⟨fun set tables => ?_, ?_⟩
    · cases found.symm.trans tables
    · simp only [operators]
      rw [get_bind]
      simp only [found]
      rfl
  | some slot =>
    cases slot with
    | operators set => exact .inl ⟨set, found, operators_eq found⟩
    | foreign _ _ _ => simp [Usable, found] at usable

end State

namespace Store

namespace Abreast

theorem of_states (usable : State.Usable st s) (states : st'.states = st.states)
    (later : st.fresh ≤ st'.fresh) : Abreast st.fresh s st st' := by
  have state : st'.state s = st.state s := by simp only [Store.state, states]
  have slots : State.slot? st' s = State.slot? st s := by
    funext key
    simp only [State.slot?, state]
  refine ⟨Nat.le_refl _, later, by rw [state], usable, ?_, .inl fun set => ?_⟩
  · rw [State.Usable, slots, state]
    exact usable
  · rw [State.HasTables, State.HasTables, slots, state]

theorem refl (usable : State.Usable st s) : Abreast st.fresh s st st :=
  of_states usable rfl (Nat.le_refl _)

theorem symm (h : Abreast n s st st') : Abreast n s st' st where
  low := h.low'
  low' := h.low
  config := h.config.symm
  usable := h.usable'
  usable' := h.usable
  tables := h.tables.imp (fun same set => (same set).symm) And.symm

theorem spent_right (h : Abreast n s st st') : Abreast n s st st'.spent :=
  { h with low' := Nat.le_succ_of_le h.low' }

theorem spent (h : Abreast n s st st') : Abreast n s st.spent st'.spent :=
  h.symm.spent_right.symm.spent_right

theorem built_right (h : Abreast n s st st') (none : ∀ set, ¬State.HasTables st' s set) :
    Abreast n s st (State.built st' s) where
  low := h.low
  low' := Nat.le_succ_of_le h.low'
  config := h.config.trans (State.config_built st' s).symm
  usable := h.usable
  usable' := State.usable_built st' s
  tables := by
    refine .inr ⟨fun set tables => ?_, fun set tables => State.fresh_of_built tables ▸ h.low'⟩
    obtain same | new := h.tables
    · exact (none set ((same set).mp tables)).elim
    · exact new.1 set tables

theorem built_left (h : Abreast n s st st') (none : ∀ set, ¬State.HasTables st s set) :
    Abreast n s (State.built st s) st' := (h.symm.built_right none).symm

theorem operators (h : Abreast n s st st') : ∃ set set' st₁ st₁',
    State.operators s st = .ok set st₁ ∧ State.operators s st' = .ok set' st₁' ∧
      (set = set' ∨ Later n set set') ∧ Abreast n s st₁ st₁' ∧ st₁.bare = st.bare ∧
        st₁'.bare = st'.bare := by
  obtain ⟨set, has, eq⟩ | ⟨none, eq⟩ := State.operators_cases h.usable <;>
    obtain ⟨set', has', eq'⟩ | ⟨none', eq'⟩ := State.operators_cases h.usable'
  · refine ⟨set, set', st, st', eq, eq', ?_, h, rfl, rfl⟩
    obtain same | new := h.tables
    · exact .inl (((same set).mp has).unique has')
    · exact .inr ⟨new.1 set has, new.2 set' has'⟩
  · refine ⟨set, st'.fresh, st, _, eq, eq', .inr ⟨?_, h.low'⟩, h.built_right none', rfl, rfl⟩
    obtain same | new := h.tables
    · exact (none' set ((same set).mp has)).elim
    · exact new.1 set has
  · refine ⟨st.fresh, set', _, st', eq, eq', .inr ⟨h.low, ?_⟩, h.built_left none, rfl, rfl⟩
    obtain same | new := h.tables
    · exact (none set' ((same set').mpr has')).elim
    · exact new.2 set' has'
  · have left := h.built_left none
    exact ⟨st.fresh, st'.fresh, _, _, eq, eq', .inr ⟨h.low, h.low'⟩, left.built_right none', rfl,
      rfl⟩

theorem dispatches (n s : Nat) : Dispatches s (Abreast n s) (Later n) where
  fresh h := ⟨h.low, h.low'⟩
  spent h := h.spent
  operators h := by
    obtain ⟨set, set', st₁, st₁', eq, eq', sets, h₁, _⟩ := h.operators
    rw [eq, eq']
    exact .ok sets h₁
  policy h := congrArg Config.unsupported h.config

end Abreast

namespace Alike

theorem dispatches (n s : Nat) : Dispatches s (Alike n s) (Later n) where
  fresh h := ⟨h.low, h.low'⟩
  spent h := ⟨h.toAbreast.spent, h.storage⟩
  operators h := by
    obtain ⟨set, set', st₁, st₁', eq, eq', sets, h₁, bare, bare'⟩ := h.toAbreast.operators
    rw [eq, eq']
    exact .ok sets ⟨h₁, bare.trans (h.storage.trans bare'.symm)⟩
  policy h := congrArg Config.unsupported h.config

theorem maps (h : Alike n s st st') : st.maps = st'.maps := by
  have same : st.bare.maps = st'.bare.maps := by rw [h.storage]
  exact same

theorem backings (h : Alike n s st st') : st.backings = st'.backings := by
  have same : st.bare.backings = st'.bare.backings := by rw [h.storage]
  exact same

theorem allocates (n s : Nat) : Allocates (Alike n s) (Later n) where
  fresh h := ⟨h.low, h.low'⟩
  spent h := ⟨h.toAbreast.spent, h.storage⟩
  map {st st'} h := by
    have same : st.maps.size = st'.maps.size := congrArg Heap.size h.maps
    have storage : (Store.newMap [] st).2.bare = (Store.newMap [] st').2.bare :=
      congrArg (fun bare : Store => { bare with maps := bare.maps.push [] }) h.storage
    exact ⟨same, ⟨⟨h.low, h.low', h.config, h.usable, h.usable', h.tables⟩, storage⟩⟩
  backing {st st'} h := by
    have same : st.backings.size = st'.backings.size := congrArg Heap.size h.backings
    have storage : (Store.newBacking #[] st).2.bare = (Store.newBacking #[] st').2.bare :=
      congrArg (fun bare : Store => { bare with backings := bare.backings.push #[] }) h.storage
    exact ⟨same, ⟨⟨h.low, h.low', h.config, h.usable, h.usable', h.tables⟩, storage⟩⟩

end Alike

theorem exists_make_alike (usable : State.Usable st s) (kind : HandleKind) (payload : Payload) :
    ∃ i set st', Handle.make s kind payload st = .ok (.handle ⟨i, payload, some ⟨set, kind⟩⟩) st' ∧
      st.fresh ≤ i ∧ Alike st.fresh s st st' := by
  obtain ⟨set, has, eq⟩ | ⟨none, eq⟩ := State.operators_cases usable
  · refine ⟨st.fresh, set, st.spent, ?_, Nat.le_refl _, (Abreast.refl usable).spent_right, rfl⟩
    simp only [Handle.make]
    rw [bind_ok eq]
    rfl
  · have built := (Abreast.refl usable).built_right none
    refine ⟨(State.built st s).fresh, st.fresh, (State.built st s).spent, ?_, built.low',
      built.spent_right, rfl⟩
    simp only [Handle.make]
    rw [bind_ok eq]
    rfl

end Store

end HostBridge
