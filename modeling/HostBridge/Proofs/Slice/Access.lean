import HostBridge.Proofs.Conversion.Refusal
import HostBridge.Proofs.Number.Integral
import HostBridge.Proofs.Slice.Append

namespace HostBridge

namespace Script

variable {key : Script} {len j : Nat}

theorem asText?_of_ne (h : ∀ name, key ≠ .string name) : key.asText? = none := by
  cases key with
  | string name => exact absurd rfl (h name)
  | _ => rfl

theorem asText?_of_position (h : key.position len = .ok j) : key.asText? = none := by
  refine asText?_of_ne ?_
  rintro name rfl
  cases h

end Script

theorem Settles.of_mild {ε α : Type} {st : Store} {x : EStateM (Stop ε) Store α} (hx : Mild x) :
    Settles st x := by
  intro stop st' failed
  have := hx st
  simp only [Yields, failed] at this
  exact this.2

section

variable {st st₁ : Store} {s j : Nat} {w : Slice} {h : Handle} {key value : Script} {v : Value}
  {e : BridgeError}

namespace Script

theorem index_slice (isOf : h.IsOf (.slice w)) (s : Nat) (key : Script) :
    (Script.handle h).index s key = w.index s key := by
  obtain ⟨i, set, rfl⟩ := isOf.exists_eq rfl
  rfl

theorem setIndex_slice (isOf : h.IsOf (.slice w)) (s : Nat) (key value : Script) :
    (Script.handle h).setIndex s key value = w.assign key value := by
  obtain ⟨i, set, rfl⟩ := isOf.exists_eq rfl
  rw [setIndex_direct (by simp)]
  rfl

end Script

namespace Slice

theorem index_refused (text : key.asText? = none) (refused : key.position w.len = .error e)
    (s : Nat) (st : Store) : w.index s key st = .error (.error e) st := by
  simp only [index, text, refused]
  rfl

theorem index_of_position (position : key.position w.len = .ok j) (held : w.get? st j = some v)
    (s : Nat) : w.index s key st = v.toScript s st := by
  simp only [index, Script.asText?_of_position position, position]
  rw [except_bind, get_bind, held]

theorem index_text {name : String} (text : key.asText? = some name) (append : name ≠ "append")
    (capacity : name ≠ "capacity") (s : Nat) : w.index s key = pure .nil := by
  simp only [index]
  split <;> rename_i eq <;> cases text.symm.trans eq
  · exact absurd rfl append
  · exact absurd rfl capacity
  · rfl

theorem mild_index (s : Nat) (w : Slice) (key : Script) : Mild (w.index s key) := by
  simp only [index]
  split
  · exact Mild.lift Store.grown_freshId
  · exact Mild.lift Store.grown_freshId
  · exact Mild.pure _
  · refine (Mild.except _).bind fun i => Mild.get.bind fun st => ?_
    split
    · exact Value.mild_toScript _
    · exact Mild.refuse _

theorem assign_refused (refused : key.position w.len = .error e) (value : Script) (st : Store) :
    w.assign key value st = .error (.error e) st := by
  simp only [assign, refused]
  rfl

theorem assign_unconverted (position : key.position w.len = .ok j) {stop : Stop BridgeError}
    (failed : value.toHost w.elem st = .error stop st₁) :
    w.assign key value st = .error stop st₁ := by
  simp only [assign, position]
  rw [except_bind, bind_error failed]

theorem assign_of_position (position : key.position w.len = .ok j)
    (converted : value.toHost w.elem st = .ok v st₁) :
    w.assign key value st = (liftM (w.set j v) : BridgeM Unit) st₁ := by
  simp only [assign, position]
  rw [except_bind, bind_ok converted]

theorem Bounded.of_toHost (bounded : w.Bounded st) {t : Ty}
    (converted : value.toHost t st = .ok v st₁) : w.Bounded st₁ :=
  bounded.of_wider (.of_grown ((Script.mild_toHost t value).of_ok converted))

theorem Bounded.assign_cases (bounded : w.Bounded st) (key value : Script) :
    (∃ j v st₁ st', key.position w.len = .ok j ∧ value.toHost w.elem st = .ok v st₁ ∧
      w.set j v st₁ = .ok () st' ∧ w.assign key value st = .ok () st') ∨
    ∃ e st', w.assign key value st = .error (.error e) st' := by
  cases position : key.position w.len with
  | error e => exact .inr ⟨e, st, assign_refused position value st⟩
  | ok j =>
    cases converted : value.toHost w.elem st with
    | error stop st₁ =>
      cases Script.mismatch_of_toHost converted
      exact .inr ⟨_, st₁, assign_unconverted position converted⟩
    | ok v st₁ =>
      rw [assign_of_position position converted]
      cases set : w.set j v st₁ with
      | ok _ st' => exact .inl ⟨j, v, st₁, st', rfl, rfl, set, host_ok set⟩
      | error stop st' =>
        obtain ⟨e, rfl⟩ := (bounded.of_toHost converted).set_settles j v stop st' set
        exact .inr ⟨_, st', host_error set⟩

structure Accessed (st : Store) (h : Handle) (w : Slice) : Prop where
  read : ∀ {key : Script} {j : Nat}, key.IsNumber (j + 1 : Nat) → j < w.len → ∃ v,
    w.get? st j = some v ∧ ∀ s, (Script.handle h).index s key st = v.toScript s st
  readOnly : ∀ {s : Nat} {key x : Script} {st' : Store},
    (Script.handle h).index s key st = .ok x st' → (∃ name, key = .string name) ∨
      ∃ j v, key.IsNumber (j + 1 : Nat) ∧ w.get? st j = some v ∧ v.toScript s st = .ok x st'
  written : ∀ {key value : Script} {j : Nat} {v : Value} {st₁ : Store},
    key.IsNumber (j + 1 : Nat) → j < w.len → value.toHost w.elem st = .ok v st₁ →
      w.elem.accepts v = true → ∃ st',
        (∀ s, (Script.handle h).setIndex s key value st = .ok () st') ∧
          st₁.Overwritten st' w.backing (w.offset + j) [v]
  writtenOnly : ∀ {s : Nat} {key value : Script} {st' : Store},
    (Script.handle h).setIndex s key value st = .ok () st' → ∃ j v st₁,
      key.IsNumber (j + 1 : Nat) ∧ j < w.len ∧ value.toHost w.elem st = .ok v st₁ ∧
        w.elem.accepts v = true ∧ ∀ s', (Script.handle h).index s' key st' = v.toScript s' st'
  unconverted : ∀ {s : Nat} {key value : Script} {j : Nat} {stop : Stop BridgeError} {st₁ : Store},
    key.IsNumber (j + 1 : Nat) → j < w.len → value.toHost w.elem st = .error stop st₁ →
      stop = .error (.typeMismatch w.elem.text value.typeText) ∧
        (Script.handle h).setIndex s key value st = .error stop st₁
  unaccepted : ∀ {s : Nat} {key value : Script} {j : Nat} {v : Value} {st₁ : Store},
    key.IsNumber (j + 1 : Nat) → j < w.len → value.toHost w.elem st = .ok v st₁ →
      w.elem.accepts v = false → (Script.handle h).setIndex s key value st =
        .error (.error (.typeMismatch w.elem.text v.typeText)) st₁
  outside : ∀ {key : Script} {n : Int}, key.IsNumber n → n < 1 ∨ (w.len : Int) < n → ∀ s value,
    (Script.handle h).index s key st =
        .error (.error (.indexOutOfRange (Script.clamp n) w.len)) st ∧
      (Script.handle h).setIndex s key value st =
        .error (.error (.indexOutOfRange (Script.clamp n) w.len)) st
  fraction : ∀ {x : Double}, (∀ n, ¬(Script.number x).IsNumber n) → ∀ s value,
    (Script.handle h).index s (.number x) st =
        .error (.error (.typeMismatch "integer index" "number")) st ∧
      (Script.handle h).setIndex s (.number x) value st =
        .error (.error (.typeMismatch "integer index" "number")) st
  other : ∀ {key : Script}, (∀ x, key ≠ .number x) → (∀ name, key ≠ .string name) → ∀ s value,
    (Script.handle h).index s key st =
        .error (.error (.typeMismatch "integer index" key.typeText)) st ∧
      (Script.handle h).setIndex s key value st =
        .error (.error (.typeMismatch "integer index" key.typeText)) st
  text : ∀ s name, (Script.handle h).index s (.string name) st =
    if name = "append" then .ok (.function ⟨st.fresh, name, .append w⟩) st.spent
    else if name = "capacity" then .ok (.function ⟨st.fresh, name, .capacity w⟩) st.spent
    else .ok .nil st
  textAssigned : ∀ s name value, (Script.handle h).setIndex s (.string name) value st =
    .error (.error (.typeMismatch "integer index" "string")) st
  inside : ∀ {key : Script} {j : Nat}, key.position w.len = .ok j → (j : Int) + 1 < 2 ^ 63 ∧
    j < w.len ∧ w.offset + j < (w.items st).size
  settles : ∀ s key value, Settles st ((Script.handle h).index s key) ∧
    Settles st ((Script.handle h).setIndex s key value)

theorem Bounded.accessed (bounded : w.Bounded st) (isOf : h.IsOf (.slice w))
    (small : w.len < 2 ^ 63 - 1) : w.Accessed st h := by
  have held {j : Nat} (inside : j < w.len) : ∃ v, w.get? st j = some v :=
    Option.isSome_iff_exists.mp ((bounded.get?_isSome j).mpr inside)
  constructor
  case inside =>
    intro key j position
    obtain ⟨-, inside⟩ := (Script.position_eq_ok small).mp position
    have := bounded.le_size
    have := bounded.len_le_cap
    exact ⟨by omega, inside, by omega⟩
  all_goals simp only [Script.index_slice isOf, Script.setIndex_slice isOf]
  case read =>
    intro key j number inside
    obtain ⟨v, item⟩ := held inside
    exact ⟨v, item, index_of_position (Script.position_inside small number inside) item⟩
  case readOnly =>
    intro s key x st' read
    by_cases text : ∃ name, key = .string name
    · exact .inl text
    · have text : key.asText? = none := Script.asText?_of_ne (not_exists.mp text)
      cases position : key.position w.len with
      | error e =>
        rw [index_refused text position] at read
        cases read
      | ok j =>
        obtain ⟨number, inside⟩ := (Script.position_eq_ok small).mp position
        obtain ⟨v, item⟩ := held inside
        rw [index_of_position position item] at read
        exact .inr ⟨j, v, number, item, read⟩
  case written =>
    intro key value j v st₁ number inside converted accepted
    obtain ⟨st', set, overwritten⟩ := (bounded.of_toHost converted).set_overwrites inside accepted
    refine ⟨st', fun _ => ?_, overwritten⟩
    rw [assign_of_position (Script.position_inside small number inside) converted, host_ok set]
  case writtenOnly =>
    intro s key value st' assigned
    obtain ⟨j, v, st₁, st₂, position, converted, set, eq⟩ | ⟨e, st₂, eq⟩ :=
      bounded.assign_cases key value
    · cases assigned.symm.trans eq
      obtain ⟨number, inside⟩ := (Script.position_eq_ok small).mp position
      have item : w.get? st' j = some v := by
        rw [(bounded.of_toHost converted).get?_of_set set, if_pos ⟨rfl, rfl, inside⟩]
      exact ⟨j, v, st₁, number, inside, converted, (accepted_of_set set).2,
        index_of_position position item⟩
    · cases assigned.symm.trans eq
  case unconverted =>
    intro s key value j stop st₁ number inside failed
    exact ⟨Script.mismatch_of_toHost failed,
      assign_unconverted (Script.position_inside small number inside) failed⟩
  case unaccepted =>
    intro s key value j v st₁ number inside converted refused
    have set : w.set j v st₁ = .error (.error (.typeMismatch w.elem.text v.typeText)) st₁ := by
      rw [set_eq, if_pos inside, if_neg (by simp [refused])]
    rw [assign_of_position (Script.position_inside small number inside) converted, host_error set]
    rfl
  case outside =>
    intro key n number outside s value
    have refused := Script.position_outside small number outside
    obtain ⟨x, rfl, -⟩ := number
    exact ⟨index_refused rfl refused s st, assign_refused refused value st⟩
  case fraction =>
    intro x fraction s value
    have refused := Script.position_fraction fraction w.len
    exact ⟨index_refused rfl refused s st, assign_refused refused value st⟩
  case other =>
    intro key numeric text s value
    have refused := Script.position_other numeric w.len
    exact ⟨index_refused (Script.asText?_of_ne text) refused s st, assign_refused refused value st⟩
  case text =>
    intro s name
    by_cases append : name = "append"
    · subst append
      rfl
    · by_cases capacity : name = "capacity"
      · subst capacity
        rfl
      · rw [if_neg append, if_neg capacity, index_text rfl append capacity]
        rfl
  case textAssigned =>
    intro s name value
    exact assign_refused rfl value st
  case settles =>
    intro s key value
    refine ⟨.of_mild (mild_index s w key), fun stop st' failed => ?_⟩
    obtain ⟨j, v, st₁, st₂, -, -, -, eq⟩ | ⟨e, st₂, eq⟩ := bounded.assign_cases key value
    · cases failed.symm.trans eq
    · cases failed.symm.trans eq
      exact ⟨e, rfl⟩

end Slice

theorem Handle.MadeBy.isOf {W : World} {v : Value} {p : Place} (made : h.MadeBy W s)
    (held : h.payload = .value v) (place : v.place? = some p) : h.IsOf v := by
  have hp : h.place? = some p := by simpa only [Handle.place?, held] using place
  obtain ⟨t, ht⟩ := made.exists_table hp
  refine ⟨held, ?_⟩
  rw [← held, (made.table ht).1, Handle.kind?, ht]
  rfl

end

namespace Session

/-- Access to a slice by its positions is exact, after any run. No memory has room for as many items
as the bound. -/
theorem Run.slice_access {host : Host} (hhost : ∀ n, (host n).Checked []) {as : List Action}
    {S : Session} (run : Run { host } as S) {h : Handle} {w : Slice}
    (occurs : S.Occurs (.script (.handle h))) (held : h.payload = .value (.slice w))
    (small : w.len < 2 ^ 63 - 1) : w.Accessed S.store h := by
  obtain ⟨W, -, fits⟩ := run.exists_fits hhost
  obtain ⟨s, made⟩ := fits.exists_maker occurs
  have typed := (Script.typed_handle.mp (fits.occurs occurs)).2.value held
  exact (Slice.bounded_of_typed fits.store typed).accessed (made.isOf held rfl) small

theorem slice_access_pair :
    let w : Slice := ⟨.bool, 0, 0, 2, 2⟩
    let h : Handle := ⟨1, .value (.slice w), some ⟨0, .slice⟩⟩
    let S := ((({ host := fun _ => Body.arguments } : Session).perform (.newState {})).perform
      (.host (.withCapacity .bool 2 2))).perform (.convert 0 (.slice w))
    w.Accessed S.store h ∧ (Script.number (.ofInt 2)).IsNumber (1 + 1 : Nat) ∧
      w.get? S.store 1 = some (.bool false) := by
  intro w h S
  refine ⟨Run.slice_access (fun _ => Body.checked_arguments)
    (.act (.act (.act (.start _) ?_) ?_) ?_) (.held ?_) rfl (by decide),
    Script.isNumber_ofInt (by decide), rfl⟩
  · exact allows_of_none (List.nil_subset _) rfl
  · exact allows_of_none (List.nil_subset _) rfl
  · refine allows_of_some ?_ rfl (by decide)
    exact List.cons_subset.mpr ⟨List.mem_cons_self, List.nil_subset _⟩
  · exact .tail _ List.mem_cons_self

end Session

end HostBridge
