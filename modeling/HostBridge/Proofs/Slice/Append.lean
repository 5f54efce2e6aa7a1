import HostBridge.Proofs.Pointer.Delegation
import HostBridge.Proofs.Script.Constructor
import HostBridge.Proofs.Slice.Alias

namespace HostBridge

variable {st st' : Store} {w r : Slice} {vs : List Value}

theorem Ty.keeps_zeros {Q : Store → Prop} (spent : ∀ {st}, Q st → Q st.spent)
    (map : ∀ {st}, Q st → Q (Store.newMap [] st).2)
    (backing : ∀ {st}, Q st → Q (Store.newBacking #[] st).2) (t : Ty) (n : Nat) (h : Q st) :
    Q (t.zeros n st).2 := by
  have allocates : Allocates (fun st st' => st = st' ∧ Q st) Eq :=
    Allocates.eq.carry (fun h => spent h) (fun h => map h) fun h => backing h
  induction n generalizing st with
  | zero => exact h
  | succ n ih => exact ih (t.zero_alike allocates ⟨rfl, h⟩).2.2

namespace Slice

theorem Bounded.of_wider (bounded : w.Bounded st) (wider : st.Wider st') : w.Bounded st' := by
  obtain ⟨items, held, bound⟩ := bounded.inside
  exact ⟨bounded.len_le_cap, items, wider.backings held, bound⟩

theorem Bounded.has (bounded : w.Bounded st) : st.Has (.backing w.backing) := by
  obtain ⟨items, held, -⟩ := bounded.inside
  exact Heap.lt_size_of_get? held

structure Moved (st st' : Store) (r : Slice) : Prop where
  wider : st.Wider st'
  new : ¬st.Has (.backing r.backing)
  offset : r.offset = 0
  zeros : ∀ i, r.len ≤ i → i < r.cap → ∃ z, st'.slot? r.backing i = some z ∧ r.elem.IsZero st' z

structure Appended (st st' : Store) (w : Slice) (vs : List Value) (r : Slice) : Prop where
  elem : r.elem = w.elem
  len : r.len = w.len + vs.length
  toList : r.toList st' = w.toList st ++ vs
  room : w.len + vs.length ≤ r.cap
  kept : w.toList st' = w.toList st
  inPlace : w.len + vs.length ≤ w.cap → r = { w with len := w.len + vs.length } ∧
    st.Overwritten st' w.backing (w.offset + w.len) vs
  moved : w.cap < w.len + vs.length → r.Moved st st'

theorem Bounded.toList_of_overwritten (bounded : w.Bounded st)
    (overwritten : st.Overwritten st' w.backing (w.offset + w.len) vs) {n : Nat}
    (room : n ≤ vs.length) :
    toList st' { w with len := w.len + n } = w.toList st ++ vs.take n := by
  apply List.ext_getElem?
  intro j
  have length := bounded.length_toList_eq
  rw [getElem?_toList, overwritten.get?_eq, List.getElem?_append, length, getElem?_toList]
  by_cases old : j < w.len
  · rw [if_neg (by dsimp only; omega), if_pos old, get?_eq_slot?, get?_eq_slot?, if_pos old,
      if_pos (Nat.lt_add_right n old)]
  · rw [if_neg old]
    by_cases new : j < w.len + n
    · rw [if_pos ⟨rfl, by dsimp only; omega, new⟩, List.getElem?_take_of_lt (by omega)]
      congr 1
      dsimp only
      omega
    · rw [if_neg fun h => new h.2.2, List.getElem?_eq_none (by rw [List.length_take]; omega),
        get?_eq_slot?, if_neg new]

theorem toList_of_prefix {elem : Ty} {backing cap : Nat} {items spare : List Value}
    (filled : st.backings.get? backing = some (items ++ spare).toArray) :
    toList st ⟨elem, backing, 0, items.length, cap⟩ = items := by
  simp [toList, Slice.items, filled]

theorem Outgrown.moved {old spare : List Value} (outgrown : Outgrown st st' w vs r old spare)
    (length : (old ++ vs).length = r.len) : r.Moved st st' where
  wider := outgrown.gains.toWider
  new := (outgrown.gains.new _ List.mem_cons_self).1
  offset := by rw [outgrown.window]
  zeros i low high := by
    have spared : i - r.len < spare.length := by
      rw [outgrown.length]
      omega
    have slot : st'.slot? r.backing i = some spare[i - r.len] := by
      simp only [Store.slot?, outgrown.filled, Option.bind_some, List.getElem?_toArray]
      rw [List.getElem?_append_right (length ▸ low), length, List.getElem?_eq_getElem spared]
    have elem : r.elem = w.elem := by rw [outgrown.window]
    exact ⟨_, slot, elem ▸ outgrown.zeros _ (List.getElem_mem spared)⟩

theorem Bounded.appended (bounded : w.Bounded st) (done : w.append vs st = .ok r st') :
    w.Appended st st' vs r := by
  obtain ⟨-, ⟨room, written, rfl⟩ | ⟨full, room, -, old, spare, outgrown⟩⟩ := append_cases done
  · obtain ⟨items, held, bound⟩ := bounded.inside
    obtain ⟨st'', written', overwritten⟩ := write_overwrites held vs
      (show w.offset + w.len + vs.length ≤ items.size by omega)
    cases written.symm.trans written'
    have all := bounded.toList_of_overwritten overwritten (Nat.le_refl _)
    have none := bounded.toList_of_overwritten overwritten (Nat.zero_le _)
    rw [List.take_length] at all
    rw [List.take_zero, List.append_nil] at none
    exact ⟨rfl, rfl, all, room, none, fun _ => ⟨rfl, overwritten⟩,
      fun full => absurd room (Nat.not_le_of_lt full)⟩
  · obtain rfl := outgrown.old bounded
    have length : (w.toList st ++ vs).length = w.len + vs.length := by
      rw [List.length_append, bounded.length_toList_eq]
    have start : r = ⟨w.elem, r.backing, 0, (w.toList st ++ vs).length, r.cap⟩ :=
      length ▸ outgrown.window
    have len : r.len = w.len + vs.length := by rw [outgrown.window]
    refine ⟨by rw [start], len, ?_, room, bounded.toList_of_wider outgrown.gains.toWider,
      fun room => absurd room (Nat.not_le_of_lt full),
      fun _ => outgrown.moved (length.trans len.symm)⟩
    rw [start]
    exact toList_of_prefix outgrown.filled

theorem Bounded.of_overwritten (bounded : w.Bounded st) {backing first : Nat}
    (overwritten : st.Overwritten st' backing first vs) : w.Bounded st' := by
  obtain ⟨items, held, bound⟩ := bounded.inside
  have size := overwritten.sizes w.backing
  rw [held] at size
  obtain ⟨items', held', same⟩ := Option.map_eq_some_iff.mp size
  exact ⟨bounded.len_le_cap, items', held', same ▸ bound⟩

theorem Appended.bounded (appended : w.Appended st st' vs r) (bounded : w.Bounded st) :
    w.Bounded st' := by
  obtain full | room := Nat.lt_or_ge w.cap (w.len + vs.length)
  · exact bounded.of_wider (appended.moved full).wider
  · exact bounded.of_overwritten (appended.inPlace room).2

theorem checkAll_refused {elem : Ty} (refused : ∃ v ∈ vs, elem.accepts v = false) :
    ∃ v ∈ vs, elem.accepts v = false ∧
      checkAll elem vs st = .error (.error (.typeMismatch elem.text v.typeText)) st := by
  induction vs with
  | nil => simp at refused
  | cons v vs ih =>
    simp only [checkAll, HostM.check]
    cases accepted : elem.accepts v with
    | false => exact ⟨v, List.mem_cons_self, accepted, rfl⟩
    | true =>
      obtain ⟨u, hu, refused'⟩ := refused
      obtain rfl | hu := List.mem_cons.mp hu
      · rw [accepted] at refused'
        cases refused'
      · obtain ⟨x, hx, stopped⟩ := ih ⟨u, hu, refused'⟩
        exact ⟨x, List.mem_cons_of_mem v hx, stopped⟩

theorem Bounded.exists_append_inPlace (bounded : w.Bounded st)
    (accepted : ∀ v ∈ vs, w.elem.accepts v = true) (room : w.len + vs.length ≤ w.cap) :
    ∃ r st', w.append vs st = .ok r st' := by
  obtain ⟨items, held, bound⟩ := bounded.inside
  obtain ⟨st', written, -⟩ := write_overwrites held vs
    (show w.offset + w.len + vs.length ≤ items.size by omega)
  simp only [append]
  rw [bind_ok (checkAll_eq_ok.mpr ⟨accepted, rfl⟩), if_pos room, bind_ok written]
  exact ⟨_, _, rfl⟩

structure Appends (st : Store) (w : Slice) : Prop where
  refused : ∀ {vs : List Value}, (∃ v ∈ vs, w.elem.accepts v = false) →
    ∃ v ∈ vs, w.elem.accepts v = false ∧
      w.append vs st = .error (.error (.typeMismatch w.elem.text v.typeText)) st
  exists_append : ∀ {vs : List Value}, (∀ v ∈ vs, w.elem.accepts v = true) →
    w.len + vs.length ≤ w.cap ∨ w.len + vs.length < 2 ^ 63 → ∃ r st', w.append vs st = .ok r st'
  appended : ∀ {vs : List Value} {r : Slice} {st' : Store}, w.append vs st = .ok r st' →
    (∀ v ∈ vs, w.elem.accepts v = true) ∧ w.Appended st st' vs r

theorem Bounded.appends (bounded : w.Bounded st) : w.Appends st where
  refused {vs} refused := by
    obtain ⟨v, hv, refused', stopped⟩ := checkAll_refused refused
    refine ⟨v, hv, refused', ?_⟩
    simp only [append]
    rw [bind_error stopped]
  exists_append {vs} accepted small := by
    obtain full | room := Nat.lt_or_ge w.cap (w.len + vs.length)
    · exact Slice.exists_append accepted full (small.resolve_left (Nat.not_le_of_lt full))
    · exact bounded.exists_append_inPlace accepted room
  appended done := ⟨(append_cases done).1, bounded.appended done⟩

theorem store_of_write {slot : Nat} (written : w.write slot vs st = .ok () st') :
    ∃ backings, st' = { st with backings } := by
  simp only [write] at written
  rw [get_bind] at written
  split at written
  · cases written
    exact ⟨_, rfl⟩
  · cases written

theorem keeps_append {Q : Store → Prop} (spent : ∀ {st}, Q st → Q st.spent)
    (map : ∀ {st}, Q st → Q (Store.newMap [] st).2)
    (backings : ∀ {st} backings, Q st → Q { st with backings }) (h : Q st)
    (done : w.append vs st = .ok r st') : Q st' := by
  obtain ⟨-, ⟨-, written, -⟩ | ⟨-, -, ⟨n, items, rfl⟩, -⟩⟩ := append_cases done
  · obtain ⟨items, rfl⟩ := store_of_write written
    exact backings items h
  · exact backings items (w.elem.keeps_zeros (Q := Q) spent map (fun h => backings _ h) n h)

end Slice

namespace Script

theorem mild_allToHost (hint : Ty) (xs : List Script) : Mild (allToHost hint xs) := by
  rw [allToHost_eq_toHosts]
  exact (picky_toHosts _ _).mild

theorem keeps_allToHost {Q : Store → Prop} (spent : ∀ {st}, Q st → Q st.spent)
    (map : ∀ {st}, Q st → Q (Store.newMap [] st).2)
    (backing : ∀ {st}, Q st → Q (Store.newBacking #[] st).2) {hint : Ty} {xs : List Script}
    (h : Q st) (converted : allToHost hint xs st = .ok vs st') : Q st' := by
  induction xs generalizing st vs with
  | nil =>
    cases converted
    exact h
  | cons x xs ih =>
    obtain ⟨v, st₁, first, converted⟩ := ok_of_bind converted
    obtain ⟨vs', st₂, rest, converted⟩ := ok_of_bind converted
    cases converted
    exact ih (keeps_toHost spent map backing h first) rest

theorem callMethod_append {h : Handle} (isOf : h.IsOf (.slice w)) (host : Host) (s : Nat)
    (args : List Script) (st : Store) :
    (Script.handle h).callMethod host s "append" args st = (do
      let items ← allToHost w.elem args
      return [← (Value.slice (← w.append items)).toScript s] : BridgeM (List Script)) st.spent := by
  obtain ⟨i, set, rfl⟩ := isOf.exists_eq rfl
  rfl

end Script

structure Slice.Called (host : Host) (s : Nat) (h : Handle) (w : Slice) (st : Store) : Prop where
  unconverted : ∀ {args : List Script} {stop : Stop BridgeError} {st₁ : Store},
    Script.allToHost w.elem args st.spent = .error stop st₁ →
      (Script.handle h).callMethod host s "append" args st = .error stop st₁ ∧ st.Grown st₁
  converted : ∀ {args : List Script} {vs : List Value} {st₁ : Store},
    Script.allToHost w.elem args st.spent = .ok vs st₁ →
      st.Grown st₁ ∧ w.toList st₁ = w.toList st ∧ w.Appends st₁
  refused : ∀ {args : List Script} {vs : List Value} {stop : Stop HostError} {st₁ st₂ : Store},
    Script.allToHost w.elem args st.spent = .ok vs st₁ → w.append vs st₁ = .error stop st₂ →
      (Script.handle h).callMethod host s "append" args st = .error (stop.map .ofHost) st₂
  returned : ∀ {args : List Script} {vs : List Value} {r : Slice} {st₁ st₂ : Store},
    Script.allToHost w.elem args st.spent = .ok vs st₁ → w.append vs st₁ = .ok r st₂ →
      ∃ k st₃, (Script.handle h).callMethod host s "append" args st = .ok [.handle k] st₃ ∧
        k.IsOf (.slice r) ∧ st.fresh ≤ k.id ∧ st₂.Grown st₃ ∧ w.toList st₃ = w.toList st

theorem State.Usable.of_append {s : Nat} (usable : State.Usable st s) {args : List Script}
    {st₁ st₂ : Store} (converted : Script.allToHost w.elem args st.spent = .ok vs st₁)
    (appended : w.append vs st₁ = .ok r st₂) : State.Usable st₂ s ∧ st.fresh ≤ st₂.fresh := by
  let Q (st' : Store) : Prop := st'.states = st.states ∧ st.fresh ≤ st'.fresh
  have spent {st'} (h : Q st') : Q st'.spent := ⟨h.1, Nat.le_succ_of_le h.2⟩
  have start : Q st.spent := spent ⟨rfl, Nat.le_refl _⟩
  have between : Q st₁ :=
    Script.keeps_allToHost (Q := Q) spent (fun h => h) (fun h => h) start converted
  obtain ⟨states, later⟩ : Q st₂ :=
    Slice.keeps_append (Q := Q) spent (fun h => h) (fun _ h => h) between appended
  exact ⟨(Store.Abreast.of_states usable states later).usable', later⟩

theorem Slice.Bounded.called {s : Nat} {h : Handle} (bounded : w.Bounded st)
    (usable : State.Usable st s) (isOf : h.IsOf (.slice w)) (host : Host) :
    w.Called host s h st := by
  have grown {args vs st₁} (converted : Script.allToHost w.elem args st.spent = .ok vs st₁) :
      st.Grown st₁ :=
    (Store.grown_freshId st).trans ((Script.mild_allToHost w.elem args).of_ok converted)
  constructor
  case unconverted =>
    intro args stop st₁ failed
    rw [Script.callMethod_append isOf, bind_error failed]
    exact ⟨rfl, (Store.grown_freshId st).trans ((Script.mild_allToHost _ _).of_error failed)⟩
  case converted =>
    intro args vs st₁ converted
    have wider := Store.Wider.of_grown (grown converted)
    exact ⟨grown converted, bounded.toList_of_wider wider, (bounded.of_wider wider).appends⟩
  case refused =>
    intro args vs stop st₁ st₂ converted failed
    rw [Script.callMethod_append isOf, bind_ok converted, bind_error (host_error failed)]
  case returned =>
    intro args vs r st₁ st₂ converted appended
    have wider := Store.Wider.of_grown (grown converted)
    have bounded₁ := bounded.of_wider wider
    have done := bounded₁.appended appended
    have kept : w.toList st₂ = w.toList st := done.kept.trans (bounded.toList_of_wider wider)
    obtain ⟨usable', later⟩ := usable.of_append converted appended
    obtain ⟨i, set, st₃, made, new, -⟩ := Value.exists_toScript_alike (w := .slice r) usable' rfl
    have grown₃ := (Value.mild_toScript _).of_ok made
    refine ⟨⟨i, .value (.slice r), some ⟨set, .slice⟩⟩, st₃, ?_, ⟨rfl, rfl⟩,
      Nat.le_trans later new, grown₃, ?_⟩
    · rw [Script.callMethod_append isOf, bind_ok converted, bind_ok (host_ok appended),
        bind_ok made]
      rfl
    · exact ((done.bounded bounded₁).toList_of_wider (.of_grown grown₃)).trans kept

namespace Session

structure Appends (S : Session) (w : Slice) : Prop where
  appends : w.Appends S.store
  apart : ∀ {vs : List Value} {r : Slice} {st' : Store}, w.append vs S.store = .ok r st' →
    w.cap < w.len + vs.length → ∀ {u : Slice}, S.Occurs (.value (.slice u)) →
      u.sharesBacking r = false
  called : ∀ {s : Nat} {h : Handle}, State.Usable S.store s → h.IsOf (.slice w) →
    w.Called S.host s h S.store

/-- Appending gives the items with those behind them, after any run. -/
theorem Run.slice_append {host : Host} (hhost : ∀ n, (host n).Checked []) {as : List Action}
    {S : Session} (run : Run { host } as S) {w : Slice} (occurs : S.Occurs (.value (.slice w))) :
    S.Appends w := by
  obtain ⟨W, -, fits⟩ := run.exists_fits hhost
  have bounded {u : Slice} (occurs : S.Occurs (.value (.slice u))) : u.Bounded S.store :=
    Slice.bounded_of_typed fits.store (fits.occurs occurs)
  refine ⟨(bounded occurs).appends, fun {vs r st'} done full u occurs' => ?_,
    fun usable isOf => (bounded occurs).called usable isOf S.host⟩
  have moved := ((bounded occurs).appended done).moved full
  refine beq_false_of_ne fun shared => moved.new ?_
  exact shared ▸ (bounded occurs').has

theorem slice_append_window :
    let w : Slice := ⟨.bool, 0, 0, 3, 3⟩
    let u : Slice := ⟨.bool, 0, 0, 1, 3⟩
    let h : Handle := ⟨1, .value (.slice u), some ⟨0, .slice⟩⟩
    let S := (((({ host := fun _ => Body.arguments } : Session).perform (.newState {})).perform
      (.host (.withCapacity .bool 3 3))).perform (.host (.window w 0 1))).perform
      (.convert 0 (.slice u))
    S.Appends u ∧ S.Occurs (.value (.slice w)) ∧ S.Occurs (.script (.handle h)) ∧
      State.Usable S.store 0 ∧ h.IsOf (.slice u) := by
  intro w u h S
  refine ⟨Run.slice_append (fun _ => Body.checked_arguments)
    (.act (.act (.act (.act (.start _) ?_) ?_) ?_) ?_) (.held ?_), .held ?_, .held ?_, trivial,
    rfl, rfl⟩
  · exact allows_of_none (List.nil_subset _) rfl
  · exact allows_of_none (List.nil_subset _) rfl
  · exact allows_of_none (List.Subset.refl _) rfl
  · refine allows_of_some ?_ rfl (by decide)
    exact List.cons_subset.mpr ⟨.tail _ List.mem_cons_self, List.nil_subset _⟩
  · exact .tail _ List.mem_cons_self
  · exact List.mem_cons_self
  · exact .tail _ (.tail _ List.mem_cons_self)

end Session

end HostBridge
