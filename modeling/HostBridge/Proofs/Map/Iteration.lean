import HostBridge.Function.Stock
import HostBridge.Proofs.Conversion.Form
import HostBridge.Proofs.Map.Access

namespace HostBridge

def Store.advanced (st : Store) (cursor : Nat) : Store :=
  { st with cursors := st.cursors.set cursor ((st.cursors.get? cursor).getD 0 + 1) }

namespace Map

variable {m : Map} {st st' : Store}
variable {s cursor i n : Nat} {keys : List Value} {key : Value}

theorem answer_eq (s : Nat) (found : Option Value) :
    (found.getD .nil).toScript s = answer s found := by
  cases found with
  | none =>
    simp only [Option.getD_none, Value.toScript]
    rfl
  | some v => rfl

def visited (s : Nat) (m : Map) (key : Value) : BridgeM (List Script) := do
  let found ← (m.find (← get) key : Except HostError _)
  return [← key.toScript s, ← answer s found]

theorem next_eq (m : Map) (s : Nat) (keys : List Value) (cursor : Nat) (st : Store) :
    m.next s keys cursor st =
      (match keys[(st.cursors.get? cursor).getD 0]? with
        | none => pure []
        | some key => visited s m key : BridgeM (List Script)) (st.advanced cursor) := by
  have read : (get : BridgeM Store) st = .ok st st := rfl
  simp only [next, visited, ← answer_eq]
  rw [bind_ok read]
  rfl

theorem mild_answer (s : Nat) (found : Option Value) : Mild (answer s found) := by
  rw [← answer_eq]
  exact Value.mild_toScript _

theorem mild_visited (s : Nat) (m : Map) (key : Value) : Mild (visited s m key) := by
  apply Mild.get.bind
  intro st st₁
  apply Yields.hostExcept_bind
  intro found _
  apply (Value.mild_toScript key).bind
  intro x
  exact (mild_answer s found).bind fun _ => Mild.pure _

theorem grown_next (m : Map) (s : Nat) (keys : List Value) (cursor : Nat) (st : Store) :
    (st.advanced cursor).Grown ((m.next s keys cursor).after st) := by
  rw [BridgeM.after, next_eq, ← BridgeM.after]
  cases keys[(st.cursors.get? cursor).getD 0]? with
  | none => exact (Mild.pure [] _).after
  | some key => exact (mild_visited s m key _).after

theorem visited_of_find {found : Option Value} (hf : m.find st key = .ok found) :
    visited s m key st = (do
      return [← key.toScript s, ← answer s found] : BridgeM (List Script)) st := by
  have read : (get : BridgeM Store) st = .ok st st := rfl
  simp only [visited]
  rw [bind_ok read, hf]
  rfl

theorem exists_visited {found : Option Value} (hf : m.find st key = .ok found)
    (hk : key.HasForm st s) (hv : (found.getD .nil).HasForm st s) :
    ∃ x y st₁ st₂, visited s m key st = .ok [x, y] st₂ ∧ key.toScript s st = .ok x st₁ ∧
      answer s found st₁ = .ok y st₂ := by
  obtain ⟨x, st₁, hx, kept⟩ := Value.exists_toScript hk
  obtain ⟨y, st₂, hy, -⟩ := Value.exists_toScript (kept hv)
  rw [answer_eq] at hy
  refine ⟨x, y, st₁, st₂, ?_, hx, hy⟩
  rw [visited_of_find hf, bind_ok hx, bind_ok hy]
  rfl

end Map

def Closure.cursor? (f : Closure) : Option Nat :=
  match f.code with
  | .next _ _ cursor => some cursor
  | _ => none

theorem Closure.exists_next {f : Closure} {cursor : Nat} (h : f.cursor? = some cursor) :
    ∃ m keys, f.code = .next m keys cursor := by
  simp only [cursor?] at h
  split at h
  · rename_i m keys c code
    cases h
    exact ⟨m, keys, code⟩
  · cases h

namespace Map

variable {m : Map} {st st' st₀ : Store} {s cursor n : Nat} {f : Closure} {host : Host}

theorem call_next {keys : List Value} (code : f.code = .next m keys cursor) (host : Host) (s : Nat)
    (args : List Script) : (Script.function f).call host s args = m.next s keys cursor := by
  obtain ⟨id, name, _⟩ := f
  cases code
  cases args <;> rfl

theorem call_of_opens {h : Handle} (opens : h.Opens m) (host : Host) (s : Nat)
    (args : List Script) (st : Store) :
    (Script.handle h).call host s args st = .ok
      [.function ⟨st.fresh, "map iterator", .next m (m.keys st) st.cursors.size⟩]
      { st with cursors := st.cursors.push 0, fresh := st.fresh + 1 } := by
  obtain ⟨id, set, rfl⟩ := eq_of_opens opens
  cases args <;> rfl

/-- What may happen between two calls of an iterator over a map: work on the map, new iterators and
calls of others, and whatever leaves the entries of the map and the cursor alone. -/
inductive Between (host : Host) (m : Map) (f : Closure) (st : Store) : Store → Prop
  | access {a : Access} : a.Reaches m st → Between host m f st ((a.run m).after st)
  | make {m' : Map} {h : Handle} {s : Nat} {args : List Script} : h.Opens m' →
    Between host m f st (((Script.handle h).call host s args).after st)
  | other {g : Closure} {s cursor : Nat} {args : List Script} : g.cursor? = some cursor →
    f.cursor? ≠ some cursor → Between host m f st (((Script.function g).call host s args).after st)
  | elsewhere {st' : Store} : st'.maps.get? m.id = st.maps.get? m.id →
    (∀ cursor ∈ f.cursor?, st'.cursors.get? cursor = st.cursors.get? cursor) →
      Between host m f st st'

structure Visit where
  state : Nat
  args : List Script
  store : Store

def Visit.run (host : Host) (f : Closure) (v : Visit) : BridgeM (List Script) :=
  (Script.function f).call host v.state v.args

inductive Iteration (host : Host) (m : Map) (st₀ : Store) (f : Closure) :
    List Visit → Store → Prop
  | start {h : Handle} {s : Nat} {args : List Script} {st : Store} : Life m st₀ → h.Opens m →
    (Script.handle h).call host s args st₀ = .ok [.function f] st → Iteration host m st₀ f [] st
  | between {log : List Visit} {st st' : Store} : Iteration host m st₀ f log st →
    Between host m f st st' → Iteration host m st₀ f log st'
  | visit {log : List Visit} {v : Visit} : Iteration host m st₀ f log v.store →
    Iteration host m st₀ f (log ++ [v]) ((v.run host f).after v.store)

structure Counts (m : Map) (cursor n : Nat) (st : Store) : Prop where
  indexed : Indexed m st
  count : st.cursors.get? cursor = some n

namespace Counts

theorem lt_size (counts : Counts m cursor n st) : cursor < st.cursors.size := by
  obtain ⟨inside, _⟩ := Array.getElem?_eq_some_iff.mp counts.count
  exact inside

theorem of_grown (counts : Counts m cursor n st) (grown : st.Grown st') : Counts m cursor n st' :=
  ⟨counts.indexed.of_grown grown, grown.cursors ▸ counts.count⟩

theorem advanced_self (counts : Counts m cursor n st) :
    Counts m cursor (n + 1) (st.advanced cursor) := by
  refine ⟨counts.indexed.of_eq rfl, ?_⟩
  rw [Store.advanced, Heap.get?_set, if_pos ⟨rfl, counts.lt_size⟩, counts.count]
  rfl

theorem advanced_of_ne (counts : Counts m cursor n st) {other : Nat} (ne : cursor ≠ other) :
    Counts m cursor n (st.advanced other) := by
  refine ⟨counts.indexed.of_eq rfl, ?_⟩
  rw [Store.advanced, Heap.get?_set, if_neg fun both => ne both.1.symm]
  exact counts.count

theorem between (counts : Counts m cursor n st) (own : f.cursor? = some cursor)
    (step : Between host m f st st') : Counts m cursor n st' := by
  cases step with
  | access reaches =>
    have effect := Access.effect reaches
    exact ⟨effect.indexed counts.indexed, effect.cursors ▸ counts.count⟩
  | make opens =>
    rw [BridgeM.after_of_ok (call_of_opens opens _ _ _ _)]
    refine ⟨counts.indexed.of_eq rfl, ?_⟩
    rw [Heap.get?_push, if_neg (Nat.ne_of_lt counts.lt_size)]
    exact counts.count
  | other code ne =>
    obtain ⟨m', keys, code⟩ := Closure.exists_next code
    rw [call_next code]
    rw [own] at ne
    exact (counts.advanced_of_ne fun eq => ne (congrArg some eq)).of_grown (grown_next _ _ _ _ _)
  | elsewhere maps cursors =>
    exact ⟨counts.indexed.of_eq maps, (cursors cursor own).trans counts.count⟩

end Counts

namespace Iteration

variable {log : List Visit}

theorem code (iteration : Iteration host m st₀ f log st) :
    f.code = .next m (m.keys st₀) st₀.cursors.size := by
  induction iteration with
  | start _ opens made =>
    rw [call_of_opens opens] at made
    cases made
    rfl
  | between _ _ ih => exact ih
  | visit _ ih => exact ih

theorem cursor_eq (iteration : Iteration host m st₀ f log st) :
    f.cursor? = some st₀.cursors.size := by
  simp only [Closure.cursor?, iteration.code]

theorem indexed (iteration : Iteration host m st₀ f log st) : Indexed m st₀ := by
  induction iteration with
  | start life _ _ => exact life.indexed
  | between _ _ ih => exact ih
  | visit _ ih => exact ih

theorem counts (iteration : Iteration host m st₀ f log st) :
    Counts m st₀.cursors.size log.length st := by
  -- other iterators have cursors of their own, so this one counts the calls of `f` alone
  induction iteration with
  | start life opens made =>
    rw [call_of_opens opens] at made
    cases made
    refine ⟨life.indexed.of_eq rfl, ?_⟩
    rw [Heap.get?_push, if_pos rfl]
    rfl
  | between before step ih => exact ih.between before.cursor_eq step
  | visit before ih =>
    rw [Visit.run, call_next before.code, List.length_append, List.length_singleton]
    exact ih.advanced_self.of_grown (grown_next _ _ _ _ _)

theorem counts_visit (iteration : Iteration host m st₀ f log st) {i : Nat} {v : Visit}
    (hv : log[i]? = some v) : Counts m st₀.cursors.size i v.store := by
  induction iteration with
  | start _ _ _ => cases hv
  | between _ _ ih => exact ih hv
  | @visit log w before ih =>
    obtain earlier | rfl | later := Nat.lt_trichotomy i log.length
    · rw [List.getElem?_append_left earlier] at hv
      exact ih hv
    · rw [List.getElem?_concat_length] at hv
      cases hv
      exact before.counts
    · have beyond : (log ++ [w]).length ≤ i := by
        simp only [List.length_append, List.length_singleton]
        omega
      rw [List.getElem?_eq_none beyond] at hv
      cases hv

end Iteration

theorem Indexed.keyOf_of_mem (indexed : Indexed m st) {key : Value} (h : key ∈ m.keys st) :
    ∃ k, m.keyOf key = .ok k ∧ (Entry.lookup k (m.entries st)).isSome = true := by
  obtain ⟨e, he, rfl⟩ := List.mem_map.mp h
  exact ⟨e.index, indexed.keyed e he, Entry.lookup_isSome.mpr ⟨e, he, rfl⟩⟩

theorem find_of_keyOf {key : Value} {k : Key} (h : m.keyOf key = .ok k) (st : Store) :
    m.find st key = .ok (Entry.lookup k (m.entries st)) := by
  rw [find, h]
  rfl

theorem Indexed.mem_keys_iff (indexed : Indexed m st) {key : Value} :
    (∃ v, m.find st key = .ok (some v)) ↔
      ∃ l ∈ m.keys st, ∃ k, m.keyOf l = .ok k ∧ m.keyOf key = .ok k := by
  constructor
  · rintro ⟨v, found⟩
    cases hk : m.keyOf key with
    | error e => simp [find, hk, Except.map] at found
    | ok k =>
      rw [find_of_keyOf hk] at found
      obtain ⟨e, he, rfl⟩ := Entry.lookup_isSome.mp (Option.isSome_iff_exists.mpr
        ⟨v, Except.ok.inj found⟩)
      exact ⟨e.key, List.mem_map_of_mem he, e.index, indexed.keyed e he, rfl⟩
  · rintro ⟨l, hl, k, keyed, hk⟩
    obtain ⟨k', keyed', present⟩ := indexed.keyOf_of_mem hl
    cases keyed.symm.trans keyed'
    obtain ⟨v, hv⟩ := Option.isSome_iff_exists.mp present
    exact ⟨v, (find_of_keyOf hk st).trans (congrArg Except.ok hv)⟩

theorem Indexed.keys_distinct (indexed : Indexed m st) :
    (m.keys st).Pairwise fun k l => m.keyOf k ≠ m.keyOf l := by
  refine List.pairwise_map.mpr (indexed.distinct.imp_of_mem fun {e e'} he he' ne => ?_)
  rw [indexed.keyed e he, indexed.keyed e' he']
  exact fun eq => ne (Except.ok.inj eq)

theorem Indexed.eq_of_keyOf (indexed : Indexed m st) {i j : Nat} {k l : Value}
    (hk : (m.keys st)[i]? = some k) (hl : (m.keys st)[j]? = some l) (same : m.keyOf k = m.keyOf l) :
    i = j := by
  obtain ⟨hi, rfl⟩ := List.getElem?_eq_some_iff.mp hk
  obtain ⟨hj, rfl⟩ := List.getElem?_eq_some_iff.mp hl
  have distinct := List.pairwise_iff_getElem.mp indexed.keys_distinct
  obtain before | rfl | after := Nat.lt_trichotomy i j
  · exact absurd same (distinct i j hi hj before)
  · rfl
  · exact absurd same.symm (distinct j i hj hi after)

/-- What a map has under a key: the value of the entry whose key is the same, if there is one. -/
structure Stored (m : Map) (st : Store) (key : Value) (found : Option Value) : Prop where
  find : m.find st key = .ok found
  present : ∀ e ∈ m.entries st, m.keyOf e.key = m.keyOf key → found = some e.value
  absent : (∀ e ∈ m.entries st, m.keyOf e.key ≠ m.keyOf key) → found = none

theorem Indexed.stored (indexed : Indexed m st) {key : Value} {k : Key}
    (keyed : m.keyOf key = .ok k) :
    Stored m st key (Entry.lookup k (m.entries st)) where
  find := find_of_keyOf keyed st
  present e he same := by
    have index : e.index = k := by
      rw [indexed.keyed e he, keyed] at same
      exact Except.ok.inj same
    rw [← index, Entry.lookup_of_mem indexed.distinct he]
  absent other := by
    refine Entry.lookup_eq_none fun e he same => other e he ?_
    rw [indexed.keyed e he, keyed, same]

/-- What the calls of an iterator give. The keys are those that the map had when the iterator was
made, call `i` is for key `i`, and a call after the last gives nothing. -/
structure Snapshot (host : Host) (m : Map) (st₀ : Store) (f : Closure) (log : List Visit)
    (st : Store) : Prop where
  keys : ∀ {key : Value}, (∃ v, m.find st₀ key = .ok (some v)) ↔
    ∃ l ∈ m.keys st₀, ∃ k, m.keyOf l = .ok k ∧ m.keyOf key = .ok k
  distinct : (m.keys st₀).Pairwise fun k l => m.keyOf k ≠ m.keyOf l
  visit : ∀ {i : Nat} {v : Visit} {key : Value}, log[i]? = some v → (m.keys st₀)[i]? = some key →
    ∃ found, Stored m v.store key found ∧
      (key.HasForm v.store v.state → (found.getD .nil).HasForm v.store v.state →
        ∃ x y st₁ st₂, v.run host f v.store = .ok [x, y] st₂ ∧
          key.toScript v.state (v.store.advanced st₀.cursors.size) = .ok x st₁ ∧
          answer v.state found st₁ = .ok y st₂)
  once : (m.keys st₀).length ≤ log.length → ∀ key ∈ m.keys st₀,
    ∃ i v, log[i]? = some v ∧ (m.keys st₀)[i]? = some key ∧
      ∀ {j : Nat} {l : Value}, (m.keys st₀)[j]? = some l → m.keyOf l = m.keyOf key → j = i
  exhausted : ∀ {i : Nat} {v : Visit}, log[i]? = some v → (m.keys st₀).length ≤ i →
    v.run host f v.store = .ok [] (v.store.advanced st₀.cursors.size)
  unchanged : ∀ {v : Visit}, v ∈ log → ∀ {i : Nat} {es : List Entry},
    v.store.maps.get? i = some es → ((v.run host f).after v.store).maps.get? i = some es
  apart : ∀ {m' : Map} {h : Handle} {s : Nat} {args : List Script} {g : Closure} {st' : Store},
    h.Opens m' → (Script.handle h).call host s args st = .ok [.function g] st' →
      g.cursor? ≠ f.cursor?

namespace Iteration

variable {log : List Visit} {i : Nat} {v : Visit}

theorem exists_found (iteration : Iteration host m st₀ f log st) (hv : log[i]? = some v)
    {key : Value} (hk : (m.keys st₀)[i]? = some key) :
    ∃ found, Stored m v.store key found ∧
      (key.HasForm v.store v.state → (found.getD .nil).HasForm v.store v.state →
        ∃ x y st₁ st₂, v.run host f v.store = .ok [x, y] st₂ ∧
          key.toScript v.state (v.store.advanced st₀.cursors.size) = .ok x st₁ ∧
          answer v.state found st₁ = .ok y st₂) := by
  obtain ⟨k, keyed, -⟩ := iteration.indexed.keyOf_of_mem (List.mem_of_getElem? hk)
  have counts := iteration.counts_visit hv
  refine ⟨_, counts.indexed.stored keyed, fun formKey formValue => ?_⟩
  rw [Visit.run, call_next iteration.code, next_eq, counts.count, Option.getD_some, hk]
  obtain ⟨x, y, st₁, st₂, ran, hx, hy⟩ := exists_visited
    (find_of_keyOf keyed (v.store.advanced st₀.cursors.size))
    (formKey.of_config rfl fun usable => usable) (formValue.of_config rfl fun usable => usable)
  exact ⟨x, y, st₁, st₂, ran, hx, hy⟩

theorem exists_visit (iteration : Iteration host m st₀ f log st)
    (round : (m.keys st₀).length ≤ log.length) {key : Value} (hkey : key ∈ m.keys st₀) :
    ∃ i v, log[i]? = some v ∧ (m.keys st₀)[i]? = some key ∧
      ∀ {j : Nat} {l : Value}, (m.keys st₀)[j]? = some l → m.keyOf l = m.keyOf key → j = i := by
  obtain ⟨i, hi⟩ := List.mem_iff_getElem?.mp hkey
  obtain ⟨inside, _⟩ := List.getElem?_eq_some_iff.mp hi
  have called : i < log.length := Nat.lt_of_lt_of_le inside round
  exact ⟨i, log[i], List.getElem?_eq_getElem called, hi,
    fun hl same => iteration.indexed.eq_of_keyOf hl hi same⟩

theorem run_exhausted (iteration : Iteration host m st₀ f log st) (hv : log[i]? = some v)
    (spent : (m.keys st₀).length ≤ i) :
    v.run host f v.store = .ok [] (v.store.advanced st₀.cursors.size) := by
  have counts := iteration.counts_visit hv
  rw [Visit.run, call_next iteration.code, next_eq, counts.count, Option.getD_some,
    List.getElem?_eq_none spent]
  rfl

theorem maps_after (iteration : Iteration host m st₀ f log st) {i : Nat} {es : List Entry}
    (h : v.store.maps.get? i = some es) :
    ((v.run host f).after v.store).maps.get? i = some es := by
  rw [Visit.run, call_next iteration.code]
  exact (grown_next _ _ _ _ _).maps h

theorem cursor_ne (iteration : Iteration host m st₀ f log st) {m' : Map} {h : Handle} {s : Nat}
    {args : List Script} {g : Closure} {st' : Store} (opens : h.Opens m')
    (made : (Script.handle h).call host s args st = .ok [.function g] st') :
    g.cursor? ≠ f.cursor? := by
  rw [call_of_opens opens] at made
  cases made
  rw [iteration.cursor_eq]
  exact fun eq => Nat.ne_of_gt iteration.counts.lt_size (Option.some.inj eq)

/-- An iterator goes over a snapshot of the keys, whatever happens between its calls. -/
theorem snapshot (iteration : Iteration host m st₀ f log st) : Snapshot host m st₀ f log st where
  keys := iteration.indexed.mem_keys_iff
  distinct := iteration.indexed.keys_distinct
  visit := fun hv hk => iteration.exists_found hv hk
  once := fun round _ hkey => iteration.exists_visit round hkey
  exhausted := iteration.run_exhausted
  unchanged := fun _ _ _ h => iteration.maps_after h
  apart := iteration.cursor_ne

end Iteration

theorem Iteration.snapshot_overwritten :
    let m : Map := ⟨.string, .bool, 0⟩
    let entry (k : String) : Entry := ⟨.string k, .string k, .bool true⟩
    let st : Store := { maps := ⟨#[[entry "a", entry "b"]]⟩, states := ⟨#[{}]⟩ }
    let f : Closure := ⟨0, "map iterator", .next m [.string "a", .string "b"] 0⟩
    ∃ v w u st', Snapshot (fun _ => Body.arguments) m st f [v, w, u] st' ∧
      Stored m v.store (.string "a") (some (.bool false)) ∧
      (∃ st₁, v.run (fun _ => Body.arguments) f v.store =
        .ok [.string "a", .bool false] st₁) ∧
      (∃ st₁, w.run (fun _ => Body.arguments) f w.store = .ok [.string "b", .nil] st₁) ∧
        ∃ st₂, u.run (fun _ => Body.arguments) f u.store = .ok [] st₂ := by
  intro m entry st f
  have life : Life m st := .access (a := .insert (.string "b") (.bool true))
    (.access (a := .insert (.string "a") (.bool true))
      (@Life.start m { maps := ⟨#[[]]⟩, states := ⟨#[{}]⟩ } rfl) trivial) trivial
  have opens : Handle.Opens ⟨0, .value (.map m), some ⟨0, .map⟩⟩ m := ⟨rfl, rfl⟩
  have start := @Iteration.start (fun _ => Body.arguments) m st f _ 0 [] _ life opens rfl
  have overwritten := start.between (.access (a := .insert (.string "a") (.bool false)) trivial)
  have first := overwritten.visit (v := ⟨0, [], _⟩)
  have removed := first.between (.access (a := .remove (.string "b")) trivial)
  have inserted := removed.between (.access (a := .insert (.string "c") (.bool false)) trivial)
  have second := inserted.visit (v := ⟨0, [], _⟩)
  have third := second.visit (v := ⟨0, [], _⟩)
  have snapshot := third.snapshot
  obtain ⟨found, stored, -⟩ := snapshot.visit (i := 0) rfl rfl
  have current : found = some (.bool false) :=
    stored.present ⟨.string "a", .string "a", .bool false⟩ List.mem_cons_self rfl
  exact ⟨_, _, _, _, snapshot, current ▸ stored, ⟨_, rfl⟩, ⟨_, rfl⟩, ⟨_, rfl⟩⟩

end Map

end HostBridge
