import HostBridge.Proofs.Table.Entries

namespace HostBridge

namespace Table

variable {items : List Script} {i : Nat} {sets : List (Script × Script)} {st st' : Store}
  {key value : Script}

/-- The stores a table gets to from when it was made of items, with its sets. The latest set is the
first. Anything else may happen in between that leaves its entries alone. -/
inductive Run (items : List Script) (i : Nat) : List (Script × Script) → Store → Prop
  | made {st₀ st : Store} : Store.newTable (sequence items) st₀ = (i, st) → Run items i [] st
  | elsewhere {sets : List (Script × Script)} {st st' : Store} : Run items i sets st →
    st'.tables.get? i = st.tables.get? i → Run items i sets st'
  | done {sets : List (Script × Script)} {st st' : Store} {key value : Script} :
    Run items i sets st → Table.set i key value st = .ok () st' →
      Run items i ((key, value) :: sets) st'
  | refused {sets : List (Script × Script)} {st st' : Store} {key value : Script}
      {stop : Stop BridgeError} : Run items i sets st →
    Table.set i key value st = .error stop st' → Run items i sets st'

theorem set_of_nil (i : Nat) (value : Script) (st : Store) :
    Table.set i .nil value st = .error (.error (.typeMismatch "table key" "nil")) st := rfl

theorem set_eq (h : key ≠ .nil) (i : Nat) (value : Script) (st : Store) :
    Table.set i key value st =
      .ok () { st with tables := st.tables.set i (update key value (entries st i)) } := by
  rw [Table.set, if_neg (mt Script.isNil_iff.mp h)]
  rfl

theorem of_set (h : Table.set i key value st = .ok () st') : key ≠ .nil ∧
    st' = { st with tables := st.tables.set i (update key value (entries st i)) } := by
  have notNil : key ≠ .nil := by
    rintro rfl
    rw [set_of_nil] at h
    cases h
  rw [set_eq notNil] at h
  cases h
  exact ⟨notNil, rfl⟩

theorem of_set_error {stop : Stop BridgeError} (h : Table.set i key value st = .error stop st') :
    st' = st := by
  by_cases isNil : key = .nil
  · subst isNil
    rw [set_of_nil] at h
    cases h
    rfl
  · rw [set_eq isNil] at h
    cases h

structure Represents (items : List Script) (i : Nat) (sets : List (Script × Script)) (st : Store) :
    Prop where
  present : (st.tables.get? i).isSome = true
  distinct : Distinct (entries st i)
  lookup : ∀ key, get st i key = lookup key (sets ++ sequence items)
  strays : ∀ e, e.1.isNaN = true → (e ∈ entries st i ↔ e ∈ sets ∧ e.2 ≠ .nil)
  gaps : ∀ key, (key, .nil) ∈ entries st i ↔
    (key, .nil) ∈ sequence items ∧ ∀ e ∈ sets, e.1.rawSame key = false
  room : (entries st i).length ≤ items.length + sets.length

namespace Represents

theorem made {st₀ : Store} (small : items.length ≤ 2 ^ 53)
    (h : Store.newTable (sequence items) st₀ = (i, st)) : Represents items i [] st := by
  cases h
  have held : (st₀.tables.push (sequence items)).get? st₀.tables.size = some (sequence items) := by
    simp [Heap.get?_push]
  have eq : entries { st₀ with tables := st₀.tables.push (sequence items) } st₀.tables.size =
      sequence items := by
    rw [entries, held]
    rfl
  refine ⟨by rw [held]; rfl, by rw [eq]; exact distinct_sequence small, fun key => ?_, ?_, ?_, ?_⟩
  · rw [get, eq, List.nil_append]
  · intro e nan
    refine iff_of_false (fun he => ?_) (by simp)
    obtain ⟨p, v, item, rfl⟩ := mem_sequence.mp (eq ▸ he)
    have inside := (List.getElem?_eq_some_iff.mp item).1
    have value := Double.toRat?_ofInt (n := (p + 1 : Nat)) (by omega)
    rw [Script.isNaN, Double.isNaN_of_toRat? value] at nan
    cases nan
  · simp [eq]
  · rw [eq]
    simp [sequence]

theorem of_eq (rep : Represents items i sets st) (h : st'.tables.get? i = st.tables.get? i) :
    Represents items i sets st' := by
  have same : entries st' i = entries st i := by simp only [entries, h]
  have read (key : Script) : get st' i key = get st i key := by simp only [get, same]
  exact ⟨h ▸ rep.present, same ▸ rep.distinct, fun key => (read key).trans (rep.lookup key),
    same ▸ rep.strays, same ▸ rep.gaps, same ▸ rep.room⟩

theorem entries_set (rep : Represents items i sets st) (es : List (Script × Script)) :
    entries { st with tables := st.tables.set i es } i = es := by
  obtain ⟨_, held⟩ := Option.isSome_iff_exists.mp rep.present
  simp [entries, Heap.get?_set_self held]

theorem get_of_set (rep : Represents items i sets st) (h : Table.set i key value st = .ok () st')
    (key' : Script) : get st' i key' = if key.rawSame key' then value else get st i key' := by
  obtain ⟨-, rfl⟩ := of_set h
  rw [get, rep.entries_set, lookup_update rep.distinct, lookup_cons]
  rfl

theorem done (rep : Represents items i sets st) (h : Table.set i key value st = .ok () st') :
    Represents items i ((key, value) :: sets) st' := by
  have read := rep.get_of_set h
  obtain ⟨-, rfl⟩ := of_set h
  have eq := rep.entries_set (update key value (entries st i))
  refine ⟨?_, by rw [eq]; exact rep.distinct.update key value, fun key' => ?_, fun e nan => ?_,
    fun key' => ?_, ?_⟩
  · rw [Heap.isSome_get?_set]
    exact rep.present
  · rw [read, rep.lookup, List.cons_append, lookup_cons]
  · rw [eq, mem_update_of_isNaN rep.distinct nan, rep.strays e nan, List.mem_cons, or_and_right]
    refine or_congr_left (and_comm.trans (and_congr_right ?_))
    rintro rfl
    rfl
  · rw [eq, mem_update_nil rep.distinct, rep.gaps, List.forall_mem_cons, Script.rawSame_comm key',
      and_assoc, and_comm (a := key.rawSame key' = false)]
  · rw [eq]
    have := length_update_le rep.distinct key value
    have := rep.room
    simp only [List.length_cons]
    omega

end Represents

theorem Run.represents (run : Run items i sets st) (small : items.length ≤ 2 ^ 53) :
    Represents items i sets st := by
  induction run with
  | made h => exact .made small h
  | elsewhere _ h ih => exact ih.of_eq h
  | done _ h ih => exact ih.done h
  | refused _ h ih => rwa [of_set_error h]

structure Faithful (items : List Script) (i : Nat) (sets : List (Script × Script)) (st : Store) :
    Prop where
  written : ∀ {key : Script} {e : Script × Script}, sets.find? (·.1.rawSame key) = some e →
    get st i key = e.2
  item : ∀ {key v : Script} {p : Nat}, (∀ e ∈ sets, e.1.rawSame key = false) →
    items[p]? = some v → key.IsNumber (p + 1 : Nat) → get st i key = v
  absent : ∀ {key : Script}, (∀ e ∈ sets, e.1.rawSame key = false) →
    (∀ p < items.length, ¬key.IsNumber (p + 1 : Nat)) → get st i key = .nil
  set : ∀ {key : Script} (value : Script), key ≠ .nil → ∃ st',
    Table.set i key value st = .ok () st' ∧
      ∀ key', get st' i key' = if key.rawSame key' then value else get st i key'
  setNil : ∀ value, Table.set i .nil value st =
    .error (.error (.typeMismatch "table key" "nil")) st
  others : ∀ {j : Nat} {key value : Script} {st' : Store}, j ≠ i →
    Table.set j key value st = .ok () st' → ∀ key', get st' i key' = get st i key'
  /-- The counter has 64 bits. -/
  size : ∀ {n : Nat}, n < 2 ^ 64 - 1 → (Table.size st i = n ↔ Border (get st i) n)
  /-- Doubles tell the positions up to `2 ^ 53` apart. -/
  border : (entries st i).length < 2 ^ 53 → Border (get st i) (Table.size st i)
  room : (entries st i).length ≤ items.length + sets.length
  index : ∀ s key, (Script.table i).index s key st = .ok (get st i key) st
  assign : ∀ s key value, (Script.table i).setIndex s key value st = Table.set i key value st
  len : (Script.table i).len st = .ok (.number (.ofInt (Table.size st i))) st

/-- A table is a finite map with a border, whatever keys have been set. -/
theorem Run.faithful (run : Run items i sets st) (small : items.length ≤ 2 ^ 53) :
    Faithful items i sets st := by
  have rep := run.represents small
  have unset {key : Script} (others : ∀ e ∈ sets, e.1.rawSame key = false) :
      get st i key = lookup key (sequence items) := by
    rw [rep.lookup, lookup, List.find?_append, List.find?_eq_none.mpr (by simpa using others)]
    rfl
  exact {
    written := fun h => by
      rw [rep.lookup, lookup, List.find?_append, h]
      rfl
    item := fun others item position =>
      (unset others).trans (lookup_sequence small item position)
    absent := fun others none => (unset others).trans (lookup_sequence_of_none small none)
    set := fun value h => ⟨_, set_eq h i value st, rep.get_of_set (set_eq h i value st)⟩
    setNil := fun value => set_of_nil i value st
    others := fun ne h key' => by
      obtain ⟨-, rfl⟩ := of_set h
      simp only [get, entries, Heap.get?_set_ne (Ne.symm ne)]
    size := fun h => border_eq_iff h
    border := fun h => (border_of_length h).1
    room := rep.room
    index := fun _ _ => rfl
    assign := fun _ _ _ => rfl
    len := rfl }

theorem faithful_zeros :
    ∃ st, Faithful [.string "a", .nil] 0
      [(.number (.ofInt 2), .bool true), (.number .one, .nil),
        (.number ⟨0x8000000000000000⟩, .string "c"), (.number .zero, .string "b")] st :=
  ⟨_, Run.faithful
    (.done (.done (.done (.done (@Run.made _ _ {} _ rfl) rfl) rfl) rfl) rfl) (by decide)⟩

structure Findable (items : List Script) (i : Nat) (sets : List (Script × Script)) (st : Store) :
    Prop where
  found : ∀ e ∈ entries st i, e.1.isNaN = false → get st i e.1 = e.2
  strays : ∀ e, e.1.isNaN = true → (e ∈ entries st i ↔ e ∈ sets ∧ e.2 ≠ .nil)
  gaps : ∀ key, (key, .nil) ∈ entries st i ↔ ∃ p : Nat, items[p]? = some .nil ∧
    key = .number (.ofInt (p + 1 : Nat)) ∧ ∀ e ∈ sets, ¬e.1.IsNumber (p + 1 : Nat)
  isEmpty : Table.isEmpty st i = true ↔ (∀ key, get st i key = .nil) ∧
    (∀ p : Nat, items[p]? = some .nil → ∃ e ∈ sets, e.1.IsNumber (p + 1 : Nat)) ∧
    ∀ e ∈ sets, e.1.isNaN = true → e.2 = .nil
  set : ∀ {key value : Script} {st' : Store}, Table.set i key value st = .ok () st' →
    get st' i key = if key.isNaN then .nil else value

theorem Represents.mem_gap_iff (rep : Represents items i sets st) (small : items.length ≤ 2 ^ 53) :
    (key, .nil) ∈ entries st i ↔ ∃ p : Nat, items[p]? = some .nil ∧
      key = .number (.ofInt (p + 1 : Nat)) ∧ ∀ e ∈ sets, ¬e.1.IsNumber (p + 1 : Nat) := by
  simp only [rep.gaps, mem_sequence, Prod.mk.injEq]
  have set_iff {p : Nat} (item : items[p]? = some .nil) (e : Script × Script) :
      e.1.rawSame (.number (.ofInt (p + 1 : Nat))) = false ↔ ¬e.1.IsNumber (p + 1 : Nat) := by
    have inside := (List.getElem?_eq_some_iff.mp item).1
    rw [Script.rawSame_comm, ← Bool.not_eq_true, Script.rawSame_ofInt_iff (by omega)]
  constructor
  · rintro ⟨⟨p, v, item, rfl, rfl⟩, others⟩
    exact ⟨p, item, rfl, fun e he => (set_iff item e).mp (others e he)⟩
  · rintro ⟨p, item, rfl, others⟩
    exact ⟨⟨p, _, item, rfl, rfl⟩, fun e he => (set_iff item e).mpr (others e he)⟩

theorem Represents.get_of_mem (rep : Represents items i sets st) {e : Script × Script}
    (he : e ∈ entries st i) (nan : e.1.isNaN = false) : get st i e.1 = e.2 :=
  lookup_of_mem rep.distinct he (by rw [Script.rawSame_self, nan]; rfl)

/-- All entries are found by their keys, but for those of NaNs and of nil items. -/
theorem Run.findable (run : Run items i sets st) (small : items.length ≤ 2 ^ 53) :
    Findable items i sets st := by
  have rep := run.represents small
  refine ⟨fun e he nan => rep.get_of_mem he nan, rep.strays, fun key => rep.mem_gap_iff small,
    ⟨fun empty => ?_, ?_⟩, fun {key value st'} h => ?_⟩
  · have none : entries st i = [] := List.isEmpty_iff.mp empty
    refine ⟨fun key => by rw [get, none]; rfl, fun p item => ?_, fun e he nan => ?_⟩
    · by_contra unset
      have gap := (rep.mem_gap_iff small).mpr ⟨p, item, rfl, fun e he h => unset ⟨e, he, h⟩⟩
      simp [none] at gap
    · by_contra notNil
      have stray := (rep.strays e nan).mpr ⟨he, notNil⟩
      simp [none] at stray
  · rintro ⟨nothing, nils, nans⟩
    -- an entry would be a set under a NaN, or its value would be found by its key and so be nil
    refine List.isEmpty_iff.mpr (List.eq_nil_iff_forall_not_mem.mpr fun e he => ?_)
    cases nan : e.1.isNaN with
    | true =>
      obtain ⟨set, notNil⟩ := (rep.strays e nan).mp he
      exact notNil (nans e set nan)
    | false =>
      have gap : e = (e.1, .nil) := by rw [← nothing e.1, rep.get_of_mem he nan]
      obtain ⟨p, item, -, unset⟩ := (rep.mem_gap_iff small).mp (gap ▸ he)
      obtain ⟨f, hf, h⟩ := nils p item
      exact unset f hf h
  · rw [rep.get_of_set h, Script.rawSame_self]
    cases nan : key.isNaN with
    | false => rfl
    | true =>
      refine (rep.lookup key).trans (lookup_of_none fun e _ => ?_)
      rw [Script.rawSame_comm]
      exact Script.rawSame_of_isNaN nan e.1

theorem findable_nan :
    ∃ st, Findable [.nil] 0 [(.number ⟨0x7ff8000000000000⟩, .string "x")] st :=
  ⟨_, Run.findable (.done (@Run.made _ _ {} _ rfl) rfl) (by decide)⟩

/-- A table of one nil is not empty though nothing is found in it, and what has been set under a NaN
is not found. -/
theorem unfindable :
    let st : Store := { tables := ⟨#[sequence [.nil]]⟩ }
    let nan : Script := .number ⟨0x7ff8000000000000⟩
    (Run [.nil] 0 [] st ∧ (∀ key, get st 0 key = .nil) ∧ isEmpty st 0 = false) ∧
      ∃ st', Table.set 0 nan (.string "x") st = .ok () st' ∧ get st' 0 nan = .nil := by
  refine ⟨⟨@Run.made _ _ {} _ rfl, fun key => ?_, rfl⟩, _, rfl, ?_⟩
  · change lookup key [_] = _
    rw [lookup_cons]
    split <;> rfl
  · rfl

end Table

end HostBridge
