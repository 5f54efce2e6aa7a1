import HostBridge.Proofs.Assignment.Atomic
import HostBridge.Proofs.Map.Keyable

namespace HostBridge

structure Handle.Opens (h : Handle) (m : Map) : Prop where
  payload : h.payload = .value (.map m)
  kind : h.kind? = some .map

namespace Map

variable {D : String → StructTy} {m : Map} {st st' : Store}

inductive Event
  | insert (key value : Value)
  | remove (key : Value)

def Event.key : Event → Value
  | .insert k _ | .remove k => k

/-- The value that came last under an equal key, unless the key has been removed since. The latest
event is the first. -/
def current (key : Value) : List Event → Option Value
  | [] => none
  | .insert k v :: es => if k.same key then some v else current key es
  | .remove k :: es => if k.same key then none else current key es

/-- Work on a map, by host code that has the reference or by scripts that have a handle of it. All
who have a reference have the same one. -/
inductive Access
  | insert (key value : Value)
  | find (key : Value)
  | remove (key : Value)
  | index (s : Nat) (h : Handle) (key : Script)
  | assign (s : Nat) (h : Handle) (key value : Script)

namespace Access

def run (m : Map) : Access → BridgeM Unit
  | .insert key value => m.insert key value
  | .find key => do let _ ← (m.find (← get) key : Except HostError _)
  | .remove key => do let _ ← m.remove key
  | .index s h key => do let _ ← (Script.handle h).index s key
  | .assign s h key value => (Script.handle h).setIndex s key value

def events (m : Map) (st : Store) : Access → List Event
  | .insert key value => [.insert key value]
  | .remove key => [.remove key]
  | .assign _ _ key value =>
    match (do return (← key.toHost m.key, ← value.toHost m.elem) : BridgeM (Value × Value)) st with
    | .ok (k, v) _ => [.insert k v]
    | .error .. => []
  | .find _ | .index .. => []

def Admissible (D : String → StructTy) (m : Map) (st : Store) : Access → Prop
  | .insert key _ | .find key | .remove key => key.Admissible D
  | .index _ h key | .assign _ h key _ =>
    h.Opens m ∧ ∀ k st', key.toHost m.key st = .ok k st' → k.Admissible D

end Access

/-- The stores a map gets to from when it was made, with its events. Anything else may happen in
between that leaves its entries alone. -/
inductive Run (D : String → StructTy) (m : Map) : List Event → Store → Prop
  | start {st : Store} : st.maps.get? m.id = some [] → Run D m [] st
  | elsewhere {es : List Event} {st st' : Store} : Run D m es st →
    st'.maps.get? m.id = st.maps.get? m.id → Run D m es st'
  | done {es : List Event} {st st' : Store} {a : Access} : Run D m es st →
    a.Admissible D m st → a.run m st = .ok () st' → Run D m (a.events m st ++ es) st'
  | refused {es : List Event} {st st' : Store} {a : Access} {stop : Stop BridgeError} :
    Run D m es st → a.Admissible D m st → a.run m st = .error stop st' → Run D m es st'

structure Represents (D : String → StructTy) (m : Map) (es : List Event) (st : Store) : Prop where
  present : (st.maps.get? m.id).isSome = true
  distinct : Entry.Distinct (m.entries st)
  keyed : ∀ e ∈ m.entries st, e.key.Admissible D ∧ m.keyOf e.key = .ok e.index
  lookup : ∀ {key : Value} {k : Key}, key.Admissible D → m.keyOf key = .ok k →
    Entry.lookup k (m.entries st) = current key es

theorem keyOf_eq_iff {a b : Value} (keyable : m.key.Keyable D) (da : a.Admissible D)
    (db : b.Admissible D) {k l : Key} (ka : m.keyOf a = .ok k) (kb : m.keyOf b = .ok l) :
    a.same b = true ↔ k = l :=
  Ty.same_iff_key keyable (accepts_of_keyOf ka) (accepts_of_keyOf kb) da db (ofValue_of_keyOf ka)
    (ofValue_of_keyOf kb)

namespace Represents

variable {es : List Event}

theorem start (h : st.maps.get? m.id = some []) : Represents D m [] st := by
  have empty : m.entries st = [] := by simp [entries, h]
  refine ⟨by simp [h], empty ▸ Entry.distinct_nil, by simp [empty], fun _ _ => ?_⟩
  rw [empty]
  rfl

theorem of_eq (rep : Represents D m es st) (h : st'.maps.get? m.id = st.maps.get? m.id) :
    Represents D m es st' := by
  have same : m.entries st' = m.entries st := by simp only [entries, h]
  exact ⟨h ▸ rep.present, same ▸ rep.distinct, same ▸ rep.keyed, same ▸ rep.lookup⟩

theorem of_grown (rep : Represents D m es st) (grown : st.Grown st') : Represents D m es st' := by
  obtain ⟨entries, h⟩ := Option.isSome_iff_exists.mp rep.present
  exact rep.of_eq ((grown.maps h).trans h.symm)

theorem write (rep : Represents D m es st) {entries : List Entry} {es' : List Event}
    (distinct : Entry.Distinct entries)
    (keyed : ∀ e ∈ entries, e.key.Admissible D ∧ m.keyOf e.key = .ok e.index)
    (lookup : ∀ {key k}, key.Admissible D → m.keyOf key = .ok k →
      Entry.lookup k entries = current key es') :
    Represents D m es' { st with maps := st.maps.set m.id entries } := by
  have written := entries_set rep.present entries
  refine ⟨?_, by rwa [written], by rwa [written], fun ha hk => ?_⟩
  · rw [Heap.isSome_get?_set]
    exact rep.present
  · rw [written, lookup ha hk]

theorem insert (rep : Represents D m es st) (keyable : m.key.Keyable D) {key value : Value}
    (admissible : key.Admissible D) (h : m.insert key value st = .ok () st') :
    Represents D m (.insert key value :: es) st' := by
  rw [insert_eq] at h
  cases keyed : m.keyOf key with
  | error e => simp [keyed] at h
  | ok k =>
    simp only [keyed] at h
    split at h
    · cases h
      refine rep.write (Entry.distinct_put _ rep.distinct) (fun e he => ?_) ?_
      · obtain rfl | old := Entry.mem_put he
        · exact ⟨admissible, keyed⟩
        · exact rep.keyed e old
      · intro other l hother hl
        rw [Entry.lookup_put, rep.lookup hother hl, current]
        simp only [keyOf_eq_iff keyable admissible hother keyed hl]
    · cases h

theorem remove (rep : Represents D m es st) (keyable : m.key.Keyable D) {key : Value}
    (admissible : key.Admissible D) {r : Option Value} (h : m.remove key st = .ok r st') :
    Represents D m (.remove key :: es) st' := by
  rw [remove_eq] at h
  cases keyed : m.keyOf key with
  | error e => simp [keyed] at h
  | ok k =>
    simp only [keyed] at h
    cases h
    refine rep.write (Entry.distinct_erase _ rep.distinct)
      (fun e he => rep.keyed e (Entry.mem_erase he)) ?_
    intro other l hother hl
    rw [current]
    by_cases same : key.same other = true
    · have eq := (keyOf_eq_iff keyable admissible hother keyed hl).mp same
      rw [if_pos same, ← eq, Entry.lookup_erase_self k rep.distinct]
    · have ne : k ≠ l := fun eq =>
        same ((keyOf_eq_iff keyable admissible hother keyed hl).mpr eq)
      rw [if_neg same, Entry.lookup_erase_of_ne ne, rep.lookup hother hl]

end Represents

section

variable {s : Nat} {h : Handle} {key value : Script}

theorem eq_of_opens (opens : h.Opens m) :
    ∃ id set, h = ⟨id, .value (.map m), some ⟨set, .map⟩⟩ := by
  obtain ⟨id, payload, table⟩ := h
  obtain ⟨rfl, kind⟩ := opens
  obtain ⟨⟨set, _⟩, rfl, rfl⟩ := Option.map_eq_some_iff.mp kind
  exact ⟨id, set, rfl⟩

theorem index_of_opens (opens : h.Opens m) : (Script.handle h).index s key = m.index s key := by
  obtain ⟨id, set, rfl⟩ := eq_of_opens opens
  rfl

theorem setIndex_of_opens (opens : h.Opens m) :
    (Script.handle h).setIndex s key value st = m.assign key value st := by
  obtain ⟨id, set, rfl⟩ := eq_of_opens opens
  have read : (get : BridgeM Store) st = .ok st st := rfl
  rw [Script.setIndex, bind_ok read, Script.destination_inner (by simp)]
  rfl

theorem mild_index (m : Map) (s : Nat) (key : Script) : Mild (m.index s key) := by
  apply (Script.mild_toHost _ _).bind
  intro k
  apply Mild.get.bind
  intro st st₁
  apply Yields.hostExcept_bind
  intro v _
  split
  · exact Value.mild_toScript _ _
  · exact Yields.pure trivial

end

theorem Access.mild_find (m : Map) (key : Value) : Mild (run m (.find key)) := by
  apply Mild.get.bind
  intro st st₁
  exact Yields.hostExcept_bind fun _ _ => Yields.pure trivial

theorem Access.mild_index {s : Nat} {h : Handle} {key : Script} (opens : h.Opens m) :
    Mild (run m (.index s h key)) := by
  simp only [run, index_of_opens opens]
  exact (Map.mild_index m s key).bind fun _ => Mild.pure ()

theorem Access.grown_of_refused {a : Access} (admissible : a.Admissible D m st)
    {stop : Stop BridgeError} (h : a.run m st = .error stop st') : st.Grown st' := by
  cases a with
  | insert key value =>
    have assigns := Assigns.host (@insert_assigns st m key value)
    rw [run] at h
    rw [Assigns, h] at assigns
    exact assigns.1
  | find key => exact (mild_find m key).of_error h
  | remove key =>
    have removed := remove_eq m key st
    cases keyed : m.keyOf key with
    | error e =>
      rw [keyed] at removed
      rw [run, bind_error (host_error removed)] at h
      cases h
      exact .refl st
    | ok k =>
      rw [keyed] at removed
      rw [run, bind_ok (host_ok removed)] at h
      cases h
  | index s handle key => exact (mild_index admissible.1).of_error h
  | assign s handle key value =>
    have assigns := @assign_assigns st key value m
    rw [run, setIndex_of_opens admissible.1] at h
    rw [Assigns, h] at assigns
    exact assigns.1

namespace Represents

variable {es : List Event}

theorem done (rep : Represents D m es st) (keyable : m.key.Keyable D) {a : Access}
    (admissible : a.Admissible D m st) (h : a.run m st = .ok () st') :
    Represents D m (a.events m st ++ es) st' := by
  cases a with
  | insert key value => exact rep.insert keyable admissible (ok_of_host h)
  | find key => exact rep.of_grown ((Access.mild_find m key).of_ok h)
  | remove key =>
    obtain ⟨r, st₁, removed, rest⟩ := ok_of_bind h
    cases rest
    exact rep.remove keyable admissible (ok_of_host removed)
  | index s handle key => exact rep.of_grown ((Access.mild_index admissible.1).of_ok h)
  | assign s handle key value =>
    rw [Access.run, setIndex_of_opens admissible.1, assign] at h
    obtain ⟨k, st₁, hk, h⟩ := ok_of_bind h
    obtain ⟨v, st₂, hv, h⟩ := ok_of_bind h
    have events : (Access.assign s handle key value).events m st = [.insert k v] := by
      simp only [Access.events]
      rw [bind_ok hk, bind_ok hv]
      rfl
    have before := (rep.of_grown ((Script.mild_toHost _ _).of_ok hk)).of_grown
      ((Script.mild_toHost _ _).of_ok hv)
    rw [events]
    exact before.insert keyable (admissible.2 k st₁ hk) (ok_of_host h)

theorem refused (rep : Represents D m es st) {a : Access} (admissible : a.Admissible D m st)
    {stop : Stop BridgeError} (h : a.run m st = .error stop st') : Represents D m es st' :=
  rep.of_grown (Access.grown_of_refused admissible h)

theorem entries_of_grown (rep : Represents D m es st) (grown : st.Grown st') :
    m.entries st' = m.entries st := by
  obtain ⟨entries, h⟩ := Option.isSome_iff_exists.mp rep.present
  rw [Map.entries, Map.entries, grown.maps h, h]

end Represents

theorem Run.represents {es : List Event} (run : Run D m es st) (keyable : m.key.Keyable D) :
    Represents D m es st := by
  induction run with
  | start h => exact .start h
  | elsewhere _ h ih => exact ih.of_eq h
  | done _ admissible h ih => exact ih.done keyable admissible h
  | refused _ admissible h ih => exact ih.refused admissible h

def answer (s : Nat) : Option Value → BridgeM Script
  | some v => v.toScript s
  | none => return .nil

structure Refines (D : String → StructTy) (m : Map) (es : List Event) (st : Store) : Prop where
  find : ∀ {key : Value}, key.Admissible D →
    m.find st key = (m.keyOf key).map fun _ => current key es
  keys : ∀ {key : Value} {k : Key}, key.Admissible D → m.keyOf key = .ok k →
    ((∃ l ∈ m.keys st, l.same key = true) ↔ (current key es).isSome = true)
  listed : ∀ l ∈ m.keys st, l.Admissible D ∧ (current l es).isSome = true
  distinct : (m.keys st).Pairwise fun l l' => l.same l' = false
  size : m.size st = (m.keys st).length
  len : ∀ {h : Handle}, h.Opens m →
    (Script.handle h).len st = .ok (.number (.ofInt (m.keys st).length)) st
  index : ∀ {s : Nat} {h : Handle} {key : Script}, h.Opens m →
    (∀ k st', key.toHost m.key st = .ok k st' → k.Admissible D) →
    (Script.handle h).index s key st = (do
      let k ← key.toHost m.key
      let found ← ((m.keyOf k).map fun _ => current k es : Except HostError (Option Value))
      answer s found : BridgeM Script) st
  assign : ∀ {s : Nat} {h : Handle} {key value : Script}, h.Opens m →
    (Script.handle h).setIndex s key value st = (do
      let k ← key.toHost m.key
      let v ← value.toHost m.elem
      m.insert k v : BridgeM Unit) st
  assignNil : ∀ {s : Nat} {h : Handle} {key : Script}, h.Opens m →
    (Script.handle h).setIndex s key .nil st = (do
      let k ← key.toHost m.key
      let v ← m.elem.zero
      m.insert k v : BridgeM Unit) st
  insert : ∀ {key value : Value}, (∃ st', m.insert key value st = .ok () st') ↔
    (∃ k, m.keyOf key = .ok k) ∧ m.elem.accepts value = true
  remove : ∀ {key : Value}, key.Admissible D → ∀ {r : Option Value},
    (∃ st', m.remove key st = .ok r st') ↔ (∃ k, m.keyOf key = .ok k) ∧ r = current key es
  refused : ∀ {a : Access} {stop : Stop BridgeError} {st' : Store}, a.Admissible D m st →
    a.run m st = .error stop st' → m.entries st' = m.entries st
  other : ∀ {a : Access} {st' : Store}, a.Admissible D m st → a.run m st = .ok () st' →
    ∀ {key : Value}, key.Admissible D → (∀ e ∈ a.events m st, e.key.same key = false) →
      m.find st' key = m.find st key
  kept : ∀ {a : Access} {st' : Store}, a.Admissible D m st → a.run m st = .ok () st' →
    (∀ k, a ≠ .remove k) → ∀ l ∈ m.keys st, ∃ l' ∈ m.keys st', l'.same l = true

namespace Represents

variable {es : List Event}

theorem find_eq (rep : Represents D m es st) {key : Value} (admissible : key.Admissible D) :
    m.find st key = (m.keyOf key).map fun _ => current key es := by
  rw [Map.find]
  cases keyed : m.keyOf key with
  | error e => rfl
  | ok k => rw [Except.map, Except.map, rep.lookup admissible keyed]

theorem mem_keys_iff (rep : Represents D m es st) (keyable : m.key.Keyable D) {key : Value}
    {k : Key} (admissible : key.Admissible D) (hk : m.keyOf key = .ok k) :
    (∃ l ∈ m.keys st, l.same key = true) ↔ (current key es).isSome = true := by
  rw [← rep.lookup admissible hk, Entry.lookup_isSome]
  simp only [Map.keys, List.mem_map, exists_exists_and_eq_and]
  refine exists_congr fun e => and_congr_right fun he => ?_
  obtain ⟨admissible', keyed⟩ := rep.keyed e he
  exact keyOf_eq_iff keyable admissible' admissible keyed hk

theorem current_listed (rep : Represents D m es st) (keyable : m.key.Keyable D) {l : Value}
    (h : l ∈ m.keys st) :
    l.Admissible D ∧ (current l es).isSome = true ∧ ∃ k, m.keyOf l = .ok k := by
  obtain ⟨e, he, rfl⟩ := List.mem_map.mp h
  obtain ⟨admissible, keyed⟩ := rep.keyed e he
  have itself := (keyOf_eq_iff keyable admissible admissible keyed keyed).mpr rfl
  exact ⟨admissible, (rep.mem_keys_iff keyable admissible keyed).mp ⟨e.key, h, itself⟩, _, keyed⟩

theorem keys_distinct (rep : Represents D m es st) (keyable : m.key.Keyable D) :
    (m.keys st).Pairwise fun l l' => l.same l' = false := by
  refine List.pairwise_map.mpr (rep.distinct.imp_of_mem fun {e f} he hf ne => ?_)
  obtain ⟨admissibleE, keyedE⟩ := rep.keyed e he
  obtain ⟨admissibleF, keyedF⟩ := rep.keyed f hf
  rw [← Bool.not_eq_true, keyOf_eq_iff keyable admissibleE admissibleF keyedE keyedF]
  exact ne

theorem remove_iff (rep : Represents D m es st) {key : Value} (admissible : key.Admissible D)
    {r : Option Value} :
    (∃ st', m.remove key st = .ok r st') ↔ (∃ k, m.keyOf key = .ok k) ∧ r = current key es := by
  rw [remove_eq]
  cases keyed : m.keyOf key with
  | error e => simp
  | ok k => simp [rep.lookup admissible keyed, eq_comm]

theorem index_eq (rep : Represents D m es st) {s : Nat} {h : Handle} {key : Script}
    (opens : h.Opens m)
    (admissible : ∀ k st', key.toHost m.key st = .ok k st' → k.Admissible D) :
    (Script.handle h).index s key st = (do
      let k ← key.toHost m.key
      let found ← ((m.keyOf k).map fun _ => current k es : Except HostError (Option Value))
      answer s found : BridgeM Script) st := by
  rw [index_of_opens opens, Map.index]
  cases converted : key.toHost m.key st with
  | error stop st₁ => rw [bind_error converted, bind_error converted]
  | ok k st₁ =>
    have found := (rep.of_grown ((Script.mild_toHost _ _).of_ok converted)).find_eq
      (admissible k st₁ converted)
    have read : (get : BridgeM Store) st₁ = .ok st₁ st₁ := rfl
    rw [bind_ok converted, bind_ok converted, bind_ok read, found]
    rfl

end Represents

theorem insert_iff (m : Map) (key value : Value) (st : Store) :
    (∃ st', m.insert key value st = .ok () st') ↔
      (∃ k, m.keyOf key = .ok k) ∧ m.elem.accepts value = true := by
  rw [insert_eq]
  cases m.keyOf key with
  | error e => simp
  | ok k => by_cases h : m.elem.accepts value = true <;> simp [h]

theorem current_append_of_other {es es' : List Event} {key : Value}
    (h : ∀ e ∈ es', e.key.same key = false) : current key (es' ++ es) = current key es := by
  induction es' with
  | nil => rfl
  | cons e es' ih =>
    rw [List.forall_mem_cons] at h
    obtain ⟨other, rest⟩ := h
    cases e <;> simp_all [current, Event.key]

theorem current_kept {es : List Event} {a : Access} (notRemove : ∀ k, a ≠ .remove k) {key : Value}
    (h : (current key es).isSome = true) : (current key (a.events m st ++ es)).isSome = true := by
  have put (k v : Value) : (current key (.insert k v :: es)).isSome = true := by
    rw [current]
    split
    · rfl
    · exact h
  cases a with
  | insert k v => exact put k v
  | remove k => exact absurd rfl (notRemove k)
  | find _ | index _ _ _ => exact h
  | assign _ _ _ _ =>
    simp only [Access.events]
    split
    · exact put _ _
    · exact h

namespace Represents

variable {es : List Event} {a : Access}

theorem find_of_other (rep : Represents D m es st) (keyable : m.key.Keyable D)
    (admissible : a.Admissible D m st) (h : a.run m st = .ok () st') {key : Value}
    (hkey : key.Admissible D) (other : ∀ e ∈ a.events m st, e.key.same key = false) :
    m.find st' key = m.find st key := by
  rw [(rep.done keyable admissible h).find_eq hkey, rep.find_eq hkey,
    current_append_of_other other]

theorem mem_keys_of_done (rep : Represents D m es st) (keyable : m.key.Keyable D)
    (admissible : a.Admissible D m st) (h : a.run m st = .ok () st')
    (notRemove : ∀ k, a ≠ .remove k) {l : Value} (hl : l ∈ m.keys st) :
    ∃ l' ∈ m.keys st', l'.same l = true := by
  obtain ⟨hl, present, k, keyed⟩ := rep.current_listed keyable hl
  have rep' := rep.done keyable admissible h
  exact (rep'.mem_keys_iff keyable hl keyed).mpr (current_kept notRemove present)

end Represents

/-- A map of a key type without interfaces is a finite map. Reading gives what came last under an
equal key, the keys are those that are there, each once, and scripts read and write as host code
does with the host forms of their values. -/
theorem Run.refines {es : List Event} (run : Run D m es st) (keyable : m.key.Keyable D) :
    Refines D m es st := by
  have rep := run.represents keyable
  exact {
    find := rep.find_eq
    keys := rep.mem_keys_iff keyable
    listed := fun _ h => ⟨(rep.current_listed keyable h).1, (rep.current_listed keyable h).2.1⟩
    distinct := rep.keys_distinct keyable
    size := by simp only [size, keys, List.length_map]
    len := fun opens => by
      obtain ⟨id, set, rfl⟩ := eq_of_opens opens
      simp only [keys, List.length_map]
      rfl
    index := rep.index_eq
    assign := setIndex_of_opens
    assignNil := setIndex_of_opens
    insert := insert_iff m _ _ st
    remove := rep.remove_iff
    refused := fun admissible h => rep.entries_of_grown (Access.grown_of_refused admissible h)
    other := rep.find_of_other keyable
    kept := fun admissible h notRemove _ => rep.mem_keys_of_done keyable admissible h notRemove }

theorem refines_zeros :
    let point : StructTy := ⟨"point", [⟨"x", .float .w64, true⟩], []⟩
    let plus : Value := .struct point [.float .w64 .zero]
    let minus : Value := .struct point [.float .w64 ⟨0x8000000000000000⟩]
    let m : Map := ⟨.struct point, .int .word, 0⟩
    ∃ st₁ st, Refines (fun _ => point) m [.insert plus (.int .word 7)] st₁ ∧
      (∃ st₂, m.remove minus st₁ = .ok (some (.int .word 7)) st₂) ∧
        Refines (fun _ => point) m
          [.insert minus (.int .word 0), .remove minus, .insert plus (.int .word 7)] st := by
  intro point plus minus m
  have admissible (x : Double) (h : x.isNaN = false) :
      (Value.struct point [.float .w64 x]).Admissible fun _ => point :=
    ⟨by simp [Value.nanFree, Value.nanFreeAll, h], rfl, Field.accept_cons rfl Field.accept_nil,
      trivial, trivial⟩
  have keyable : m.key.Keyable fun _ => point := ⟨rfl, trivial, trivial⟩
  let key : Handle := ⟨1, .value minus, some ⟨0, .struct⟩⟩
  have put := @Run.done _ m _ _ _ (.insert plus (.int .word 7))
    (@Run.start (fun _ => point) m { maps := ⟨#[[]]⟩ } rfl) (admissible _ (by decide)) rfl
  have taken := put.done (a := .remove minus) (admissible _ (by decide)) rfl
  have again := taken.done (a := .assign 0 ⟨0, .value (.map m), some ⟨0, .map⟩⟩ (.handle key) .nil)
    ⟨⟨rfl, rfl⟩, fun k st' h => by cases h; exact admissible _ (by decide)⟩ rfl
  have first := Run.refines put keyable
  exact ⟨_, _, first, (first.remove (admissible _ (by decide))).mpr ⟨⟨_, rfl⟩, rfl⟩,
    Run.refines again keyable⟩

end Map

end HostBridge
