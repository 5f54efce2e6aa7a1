import HostBridge.Proofs.Conversion.Alike
import HostBridge.Proofs.Map.Entries
import HostBridge.Proofs.Map.Key
import Mathlib.Data.List.Forall2

namespace HostBridge

variable {n s : Nat} {st st' : Store} {N : Nat → Nat → Prop}

theorem Chan.index_eq (c : Chan) (key : Script) :
    (∃ name code, c.index key = Closure.make name code) ∨ c.index key = pure .nil := by
  simp only [index]
  split
  · exact .inl ⟨_, _, rfl⟩
  · exact .inl ⟨_, _, rfl⟩
  · exact .inl ⟨_, _, rfl⟩
  · exact .inr rfl

theorem Chan.index_alike (alike : Store.Alike n s st st') (c : Chan) (key : Script) :
    Agree (Store.Alike n s) (Script.Renewed (Later n)) (c.index key st) (c.index key st') := by
  obtain ⟨name, code, eq⟩ | eq := c.index_eq key
  · rw [eq]
    exact Closure.make_renewed (Store.Alike.dispatches n s) name code alike
  · rw [eq]
    exact .ok (.same .nil) alike

namespace Map

/-- No entry is under the address of a box that is still to be made. -/
def Apart (n : Nat) (m : Map) (st : Store) : Prop :=
  ∀ e ∈ m.entries st, ∀ i, n ≤ i → e.index ≠ .ref (Object.box i).address

theorem entries_alike (alike : Store.Alike n s st st') (m : Map) :
    m.entries st = m.entries st' := by
  simp only [entries, alike.maps]

theorem keyOf_boxed (m : Map) (b b' : Box) :
    (∃ e, m.keyOf (.boxed b) = .error e ∧ m.keyOf (.boxed b') = .error e) ∨
      m.keyOf (.boxed b) = .ok (.ref b.address) ∧ m.keyOf (.boxed b') = .ok (.ref b'.address) := by
  have same : m.key.accepts (.boxed b) = m.key.accepts (.boxed b') := by
    cases m.key <;> rfl
  simp only [keyOf, ← same]
  split
  · exact .inr ⟨rfl, rfl⟩
  · exact .inl ⟨_, rfl, rfl⟩

theorem find_new {i j : Nat} {content : Content} (alike : Store.Alike n s st st') {m : Map}
    (apart : m.Apart n st) (hi : n ≤ i) (hj : n ≤ j) :
    m.find st (.boxed ⟨i, content⟩) = m.find st' (.boxed ⟨j, content⟩) := by
  simp only [find]
  obtain ⟨e, refused, refused'⟩ | ⟨keyed, keyed'⟩ := m.keyOf_boxed ⟨i, content⟩ ⟨j, content⟩
  · rw [refused, refused']
    rfl
  · have missing {i : Nat} (hi : n ≤ i) :
        Entry.lookup (.ref (Box.mk i content).address) (m.entries st) = none :=
      Entry.lookup_eq_none fun e member => apart e member i hi
    rw [keyed, keyed', ← entries_alike alike]
    simp only [Except.map, missing hi, missing hj]

theorem index_found (alike : Store.Alike n s st st') {m : Map} {k k' : Value}
    (same : m.find st k = m.find st' k') :
    Agree (Store.Alike n s) (Script.Renewed (Later n))
      ((do
        match ← (m.find (← get) k : Except HostError _) with
        | some v => v.toScript s
        | none => return .nil : BridgeM Script) st)
      ((do
        match ← (m.find (← get) k' : Except HostError _) with
        | some v => v.toScript s
        | none => return .nil : BridgeM Script) st') := by
  rw [get_bind, get_bind, ← same]
  cases m.find st k with
  | error e => exact .error alike
  | ok found =>
    cases found with
    | none => exact .ok (.same .nil) alike
    | some v => exact v.toScript_renewed (Store.Alike.dispatches n s) alike

theorem index_alike (alike : Store.Alike n s st st') (m : Map) (key : Script)
    (apart : key.content?.isSome = true → m.Apart n st) :
    Agree (Store.Alike n s) (Script.Renewed (Later n)) (m.index s key st) (m.index s key st') := by
  simp only [index]
  cases boxes : key.content? with
  | none =>
    have converted := Script.toHost_alike (Store.Alike.allocates n s) boxes m.key alike
    refine converted.bind ?_ fun _ _ alike => alike
    rintro k _ st₁ st₁' rfl alike₁
    refine index_found alike₁ ?_
    simp only [find, entries_alike alike₁]
  | some content =>
    rw [bind_ok (Script.toHost_of_content boxes m.key st),
      bind_ok (Script.toHost_of_content boxes m.key st')]
    have alike₁ := (Store.Alike.allocates n s).spent alike
    exact index_found alike₁ (find_new alike₁ (apart (by simp [boxes])) alike.low alike.low')

end Map

namespace Slice

theorem index_alike (alike : Store.Alike n s st st') (w : Slice) (key : Script) :
    Agree (Store.Alike n s) (Script.Renewed (Later n)) (w.index s key st) (w.index s key st') := by
  have make (name : String) (code : Code) := Closure.make_renewed (Store.Alike.dispatches n s)
    name code alike
  cases text : key.asText? with
  | some name =>
    obtain ⟨name, code, eq⟩ | eq : (∃ name code, w.index s key = Closure.make name code) ∨
        w.index s key = pure .nil := by
      simp only [index, text]
      split
      · exact .inl ⟨_, _, rfl⟩
      · exact .inl ⟨_, _, rfl⟩
      · exact .inr rfl
      · contradiction
    · rw [eq]
      exact make name code
    · rw [eq]
      exact .ok (.same .nil) alike
  | none =>
    simp only [index, text]
    cases key.position w.len with
    | error e => exact .error alike
    | ok i =>
      have same : w.get? st' i = w.get? st i := by
        simp only [get?, items, alike.backings]
      rw [except_bind, except_bind, get_bind, get_bind, same]
      cases w.get? st i with
      | some v => exact v.toScript_renewed (Store.Alike.dispatches n s) alike
      | none => exact .error alike

theorem set_eq (w : Slice) (i : Nat) (v : Value) (st : Store) : w.set i v st =
    if i < w.len then
      if w.elem.accepts v then
        if w.offset + i < (w.items st).size then
          .ok () { st with backings :=
            st.backings.set w.backing ((w.items st).setIfInBounds (w.offset + i) v) }
        else .error (.panic (some "index out of bounds")) st
      else .error (.error (.typeMismatch w.elem.text v.typeText)) st
    else .error (.error (.indexOutOfRange i w.len)) st := by
  simp only [set, HostM.check]
  split
  · split
    · have checked : (pure () : HostM Unit) st = .ok () st := rfl
      rw [bind_ok checked]
      simp only [write, List.length_singleton]
      rw [get_bind]
      split
      · rename_i room
        rw [if_pos (Nat.lt_of_succ_le room), ← written_eq_set (Nat.lt_of_succ_le room)]
        rfl
      · rename_i full
        rw [if_neg fun room => full (Nat.succ_le_of_lt room)]
        rfl
    · rfl
  · rfl

end Slice

def Heap.Related {α : Type} (R : α → α → Prop) (h h' : Heap α) : Prop :=
  ∀ i, Option.Rel R (h.get? i) (h'.get? i)

theorem Heap.Related.refl {α : Type} {R : α → α → Prop} (refl : ∀ a, R a a) (h : Heap α) :
    h.Related R h := by
  intro i
  cases h.get? i with
  | none => exact .none
  | some a => exact .some (refl a)

theorem Heap.Related.set {α : Type} {R : α → α → Prop} (refl : ∀ a, R a a) (h : Heap α) (i : Nat)
    {a a' : α} (related : R a a') : (h.set i a).Related R (h.set i a') := by
  intro j
  rw [get?_set, get?_set]
  split
  · exact .some related
  · exact Related.refl refl h j

inductive Entry.Renewed (N : Nat → Nat → Prop) : Entry → Entry → Prop
  | same {index : Key} {key v v' : Value} : v.Renewed N v' →
    Renewed N ⟨index, key, v⟩ ⟨index, key, v'⟩
  | boxed {i j : Nat} {content : Content} {v v' : Value} : N i j → v.Renewed N v' →
    Renewed N ⟨.ref (Box.mk i content).address, .boxed ⟨i, content⟩, v⟩
      ⟨.ref (Box.mk j content).address, .boxed ⟨j, content⟩, v'⟩

def Entry.AllRenewed (N : Nat → Nat → Prop) : List Entry → List Entry → Prop :=
  List.Forall₂ (Entry.Renewed N)

def Value.AllRenewed (N : Nat → Nat → Prop) (items items' : Array Value) : Prop :=
  List.Forall₂ (Value.Renewed N) items.toList items'.toList

structure Store.Renewed (N : Nat → Nat → Prop) (st st' : Store) : Prop where
  maps : st.maps.Related (Entry.AllRenewed N) st'.maps
  backings : st.backings.Related (Value.AllRenewed N) st'.backings
  rest : { st.bare with maps := {}, backings := {} } = { st'.bare with maps := {}, backings := {} }

theorem Value.Renewed.accepts {v v' : Value} (h : v.Renewed N v') (t : Ty) :
    t.accepts v = t.accepts v' := by
  cases h with
  | same => rfl
  | boxed _ => cases t <;> rfl

theorem Value.Renewed.typeText {v v' : Value} (h : v.Renewed N v') : v.typeText = v'.typeText := by
  cases h <;> rfl

theorem Value.AllRenewed.refl (items : Array Value) : Value.AllRenewed N items items :=
  List.forall₂_same.mpr fun v _ => .same v

theorem Value.AllRenewed.set {v v' : Value} (h : v.Renewed N v') (items : Array Value) (i : Nat) :
    Value.AllRenewed N (items.setIfInBounds i v) (items.setIfInBounds i v') := by
  simp only [AllRenewed, Array.toList_setIfInBounds]
  generalize items.toList = l
  induction l generalizing i with
  | nil => exact .nil
  | cons x xs ih =>
    cases i with
    | zero => exact .cons h (List.forall₂_same.mpr fun v _ => .same v)
    | succ i => exact .cons (.same x) (ih i)

namespace Entry

theorem AllRenewed.refl (es : List Entry) : AllRenewed N es es :=
  List.forall₂_same.mpr fun e _ => .same (.same e.value)

theorem put_renewed {v v' : Value} (h : v.Renewed N v') (index : Key) (key : Value)
    (es : List Entry) : AllRenewed N (put ⟨index, key, v⟩ es) (put ⟨index, key, v'⟩ es) := by
  induction es with
  | nil => exact .cons (.same h) .nil
  | cons x xs ih =>
    simp only [put]
    split
    · exact .cons (.same h) (AllRenewed.refl xs)
    · exact .cons (.same (.same x.value)) ih

theorem put_new {e : Entry} {es : List Entry} (h : ∀ x ∈ es, x.index ≠ e.index) :
    put e es = es ++ [e] := by
  induction es with
  | nil => rfl
  | cons x xs ih =>
    rw [List.forall_mem_cons] at h
    simp only [put, if_neg h.1, ih h.2, List.cons_append]

end Entry

theorem Store.Alike.renewed (alike : Store.Alike n s st st') : Store.Renewed N st st' where
  maps := alike.maps ▸ Heap.Related.refl Entry.AllRenewed.refl st.maps
  backings := alike.backings ▸ Heap.Related.refl Value.AllRenewed.refl st.backings
  rest := congrArg (fun bare : Store => { bare with maps := {}, backings := {} }) alike.storage

namespace Map

def KeyedAlike (N : Nat → Nat → Prop) (m : Map) (st : Store) (k k' : Value) : Prop :=
  (∃ e, m.keyOf k = .error e ∧ m.keyOf k' = .error e) ∨
    ∃ x x', m.keyOf k = .ok x ∧ m.keyOf k' = .ok x' ∧ ∀ {v v' : Value}, v.Renewed N v' →
      Entry.AllRenewed N (Entry.put ⟨x, k, v⟩ (m.entries st))
        (Entry.put ⟨x', k', v'⟩ (m.entries st))

theorem keyedAlike_refl (m : Map) (st : Store) (k : Value) : m.KeyedAlike N st k k := by
  cases keyed : m.keyOf k with
  | error e => exact .inl ⟨e, keyed, keyed⟩
  | ok x => exact .inr ⟨x, x, keyed, keyed, fun h => Entry.put_renewed h x k _⟩

theorem keyedAlike_new {i j : Nat} {content : Content} {m : Map} (apart : m.Apart n st)
    (hi : n ≤ i) (hj : n ≤ j) :
    m.KeyedAlike (Later n) st (.boxed ⟨i, content⟩) (.boxed ⟨j, content⟩) := by
  refine (m.keyOf_boxed ⟨i, content⟩ ⟨j, content⟩).imp_right ?_
  rintro ⟨keyed, keyed'⟩
  refine ⟨_, _, keyed, keyed', fun {v v'} h => ?_⟩
  have last {i : Nat} (hi : n ≤ i) (v : Value) : Entry.put
      ⟨.ref (Box.mk i content).address, .boxed ⟨i, content⟩, v⟩ (m.entries st) = _ :=
    Entry.put_new fun e member => apart e member i hi
  rw [last hi, last hj]
  exact List.rel_append (Entry.AllRenewed.refl _) (.cons (.boxed ⟨hi, hj⟩ h) .nil)

theorem insert_alike (alike : Store.Alike n s st st') {m : Map} {k k' v v' : Value}
    (keyed : m.KeyedAlike N st k k') (renewed : v.Renewed N v') :
    Agree (Store.Renewed N) (fun _ _ => True) (m.insert k v st) (m.insert k' v' st') := by
  rw [insert_eq, insert_eq]
  obtain ⟨e, refused, refused'⟩ | ⟨x, x', accepted, accepted', entries⟩ := keyed
  · rw [refused, refused']
    exact .error alike.renewed
  · rw [accepted, accepted', ← renewed.accepts, ← renewed.typeText, ← entries_alike alike]
    dsimp only
    split
    · have before : Store.Renewed N st st' := alike.renewed
      refine .ok trivial ⟨?_, before.backings, before.rest⟩
      change (st.maps.set _ _).Related _ (st'.maps.set _ _)
      rw [← alike.maps]
      exact Heap.Related.set Entry.AllRenewed.refl st.maps m.id (entries renewed)
    · exact .error alike.renewed

theorem Apart.newMap {m : Map} (apart : m.Apart n st) : m.Apart n (Store.newMap [] st).2 := by
  intro e member
  have pushed : m.entries (Store.newMap [] st).2 = [] ∨
      m.entries (Store.newMap [] st).2 = m.entries st := by
    simp only [entries]
    change (((st.maps.push []).get? m.id).getD []) = _ ∨ (((st.maps.push []).get? m.id).getD []) = _
    rw [Heap.get?_push]
    split
    · exact .inl rfl
    · exact .inr rfl
  obtain empty | same := pushed
  · rw [empty] at member
    cases member
  · rw [same] at member
    exact apart e member

theorem assign_alike (alike : Store.Alike n s st st') (m : Map) (key value : Script)
    (apart : key.content?.isSome = true → m.Apart n st) :
    Agree (Store.Renewed (Later n)) (fun _ _ => True) (m.assign key value st)
      (m.assign key value st') := by
  have allocates := (Store.Alike.allocates n s).carry
    (Q := fun st => key.content?.isSome = true → m.Apart n st) (fun h => h)
    (fun h boxed => (h boxed).newMap) (fun h => h)
  -- once both runs have a key, they convert the value and put it in
  have rest {k k' : Value} {st₁ st₁' : Store} (alike₁ : Store.Alike n s st₁ st₁')
      (apart₁ : key.content?.isSome = true → m.Apart n st₁)
      (keyed : ∀ {st₂}, (key.content?.isSome = true → m.Apart n st₂) →
        m.KeyedAlike (Later n) st₂ k k') :
      Agree (Store.Renewed (Later n)) (fun _ _ => True)
        ((do let v ← value.toHost m.elem; m.insert k v : BridgeM Unit) st₁)
        ((do let v ← value.toHost m.elem; m.insert k' v : BridgeM Unit) st₁') := by
    refine (value.toHost_renewed allocates m.elem ⟨alike₁, apart₁⟩).bind ?_ fun _ _ h => h.1.renewed
    intro v v' st₂ st₂' renewed alike₂
    exact (insert_alike alike₂.1 (keyed alike₂.2) renewed).host
  simp only [assign]
  cases boxes : key.content? with
  | none =>
    have converted := Script.toHost_alike allocates boxes m.key ⟨alike, apart⟩
    refine converted.bind ?_ fun _ _ h => h.1.renewed
    rintro k _ st₁ st₁' rfl ⟨alike₁, apart₁⟩
    exact rest alike₁ apart₁ fun _ => m.keyedAlike_refl _ k
  | some content =>
    rw [bind_ok (Script.toHost_of_content boxes m.key st),
      bind_ok (Script.toHost_of_content boxes m.key st')]
    have alike₁ := (Store.Alike.allocates n s).spent alike
    exact rest alike₁ apart fun apart₂ => keyedAlike_new (apart₂ (by simp [boxes])) alike.low
      alike.low'

end Map

theorem Slice.assign_alike (alike : Store.Alike n s st st') (w : Slice) (key value : Script) :
    Agree (Store.Renewed (Later n)) (fun _ _ => True) (w.assign key value st)
      (w.assign key value st') := by
  simp only [assign]
  cases key.position w.len with
  | error e => exact .error alike.renewed
  | ok i =>
    rw [except_bind, except_bind]
    have converted := value.toHost_renewed (Store.Alike.allocates n s) w.elem alike
    refine converted.bind ?_ fun _ _ alike => alike.renewed
    intro v v' st₁ st₁' renewed alike₁
    refine Agree.host ?_
    have before : Store.Renewed (Later n) st₁ st₁' := alike₁.renewed
    have items : w.items st₁' = w.items st₁ := by simp only [Slice.items, alike₁.backings]
    rw [set_eq, set_eq, items, ← renewed.accepts, ← renewed.typeText]
    split
    · split
      · split
        · refine .ok trivial ⟨before.maps, ?_, before.rest⟩
          change (st₁.backings.set _ _).Related _ (st₁'.backings.set _ _)
          rw [← alike₁.backings]
          exact Heap.Related.set Value.AllRenewed.refl st₁.backings w.backing
            (Value.AllRenewed.set renewed _ _)
        · exact .error before
      · exact .error before
    · exact .error before

end HostBridge
