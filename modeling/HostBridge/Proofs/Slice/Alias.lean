import HostBridge.Proofs.Assignment.Alike
import HostBridge.Proofs.Script.Equality
import HostBridge.Proofs.Slice.Window

namespace HostBridge

def Store.slot? (st : Store) (backing i : Nat) : Option Value :=
  (st.backings.get? backing).bind (·[i]?)

structure Store.Overwritten (st st' : Store) (backing first : Nat) (vs : List Value) : Prop where
  others : ∃ backings, st' = { st with backings }
  sizes : ∀ b, (st'.backings.get? b).map Array.size = (st.backings.get? b).map Array.size
  slots : ∀ b i, st'.slot? b i =
    if b = backing ∧ first ≤ i ∧ i < first + vs.length then vs[i - first]? else st.slot? b i

section

variable {st st' : Store} {w u : Slice} {i j first : Nat} {v : Value} {vs : List Value}

namespace Slice

theorem get?_eq_slot? (st : Store) (w : Slice) (j : Nat) :
    w.get? st j = if j < w.len then st.slot? w.backing (w.offset + j) else none := by
  simp only [get?, Store.slot?, Slice.items]
  cases st.backings.get? w.backing <;> simp

theorem getElem?_toList (st : Store) (w : Slice) (j : Nat) : (w.toList st)[j]? = w.get? st j := by
  simp only [toList, get?, Array.getElem?_toList, Array.getElem?_extract]
  by_cases shown : j < w.len
  · by_cases inside : w.offset + j < (w.items st).size
    · rw [if_pos shown, if_pos (by omega)]
    · rw [if_pos shown, if_neg (by omega), Array.getElem?_eq_none (Nat.le_of_not_lt inside)]
  · rw [if_neg shown, if_neg (by omega)]

theorem getElem?_written {items : Array Value} (room : first + vs.length ≤ items.size) (i : Nat) :
    (items.extract 0 first ++ vs.toArray ++
        items.extract (first + vs.length) items.size)[i]? =
      if first ≤ i ∧ i < first + vs.length then vs[i - first]? else items[i]? := by
  simp only [Array.getElem?_append, Array.size_append, Array.size_extract, List.size_toArray,
    Array.getElem?_extract, List.getElem?_toArray]
  grind

theorem write_overwrites {items : Array Value} (held : st.backings.get? w.backing = some items)
    (vs : List Value) (room : first + vs.length ≤ items.size) :
    ∃ st', w.write first vs st = .ok () st' ∧ st.Overwritten st' w.backing first vs := by
  have eq : w.items st = items := by simp [Slice.items, held]
  simp only [write]
  rw [get_bind, if_pos (eq ▸ room), eq]
  have size : (items.extract 0 first ++ vs.toArray ++
      items.extract (first + vs.length) items.size).size = items.size := by
    simp only [Array.size_append, Array.size_extract, List.size_toArray]
    omega
  refine ⟨_, rfl, ⟨_, rfl⟩, fun b => ?_, fun b i => ?_⟩
  · by_cases here : b = w.backing
    · subst here
      rw [Heap.get?_set_self held, held]
      exact congrArg some size
    · rw [Heap.get?_set_ne here]
  · by_cases here : b = w.backing
    · subst here
      simp only [Store.slot?, Heap.get?_set_self held, held, Option.bind_some, true_and]
      exact getElem?_written room i
    · simp only [Store.slot?, Heap.get?_set_ne here, here, false_and, if_false]

theorem accepted_of_set (done : w.set i v st = .ok () st') :
    i < w.len ∧ w.elem.accepts v = true := by
  rw [set_eq] at done
  split at done
  · split at done
    · exact ⟨by assumption, by assumption⟩
    · cases done
  · cases done

theorem store_of_set_error {stop : Stop HostError} (failed : w.set i v st = .error stop st') :
    st' = st := by
  rw [set_eq] at failed
  split at failed
  · split at failed
    · split at failed
      · cases failed
      · cases failed
        rfl
    · cases failed
      rfl
  · cases failed
    rfl

theorem Bounded.set_overwrites (bounded : w.Bounded st) (small : i < w.len)
    (accepted : w.elem.accepts v = true) :
    ∃ st', w.set i v st = .ok () st' ∧ st.Overwritten st' w.backing (w.offset + i) [v] := by
  obtain ⟨items, held, bound⟩ := bounded.inside
  have len := bounded.len_le_cap
  obtain ⟨st', written, overwritten⟩ := write_overwrites held [v]
    (show w.offset + i + 1 ≤ items.size by omega)
  refine ⟨st', ?_, overwritten⟩
  have checked : (pure () : HostM Unit) st = .ok () st := rfl
  simp only [set, HostM.check, if_pos small, if_pos accepted]
  rw [bind_ok checked, written]

theorem Bounded.set_iff (bounded : w.Bounded st) (i : Nat) (v : Value) :
    (∃ st', w.set i v st = .ok () st') ↔ i < w.len ∧ w.elem.accepts v = true := by
  constructor
  · rintro ⟨st', done⟩
    exact accepted_of_set done
  · rintro ⟨small, accepted⟩
    obtain ⟨st', done, _⟩ := bounded.set_overwrites small accepted
    exact ⟨st', done⟩

end Slice

namespace Store.Overwritten

theorem get?_eq (h : st.Overwritten st' i first vs) (u : Slice) (j : Nat) : u.get? st' j =
    if u.backing = i ∧ (first ≤ u.offset + j ∧ u.offset + j < first + vs.length) ∧ j < u.len then
      vs[u.offset + j - first]?
    else u.get? st j := by
  rw [Slice.get?_eq_slot?, Slice.get?_eq_slot?, h.slots]
  by_cases shown : j < u.len <;> simp [shown]

end Store.Overwritten

namespace Slice

theorem Bounded.get?_of_set (bounded : w.Bounded st) (done : w.set i v st = .ok () st')
    (u : Slice) (j : Nat) : u.get? st' j =
      if u.backing = w.backing ∧ u.offset + j = w.offset + i ∧ j < u.len then some v
      else u.get? st j := by
  obtain ⟨small, accepted⟩ := accepted_of_set done
  obtain ⟨st'', done', overwritten⟩ := bounded.set_overwrites small accepted
  cases done.symm.trans done'
  have same : (w.offset + i ≤ u.offset + j ∧ u.offset + j < w.offset + i + [v].length) ↔
      u.offset + j = w.offset + i := by
    simp only [List.length_singleton]
    omega
  rw [overwritten.get?_eq]
  simp only [same]
  split
  · rename_i shown
    simp [shown.2.1]
  · rfl

variable {low high low' high' : Nat}

theorem slice_eq_ok : w.slice low high = .ok u ↔ low ≤ high ∧ high ≤ w.cap ∧
    u = { w with offset := w.offset + low, len := high - low, cap := w.cap - low } := by
  simp only [slice]
  split
  · rename_i inside
    simp [inside, eq_comm]
  · rename_i outside
    constructor
    · intro h
      cases h
    · rintro ⟨h, h', _⟩
      exact absurd ⟨h, h'⟩ outside

theorem slice_slice {x : Slice} (first : w.slice low high = .ok u)
    (second : u.slice low' high' = .ok x) : w.slice (low + low') (low + high') = .ok x := by
  obtain ⟨_, _, rfl⟩ := slice_eq_ok.mp first
  obtain ⟨ordered, fits, rfl⟩ := slice_eq_ok.mp second
  dsimp only at fits
  refine slice_eq_ok.mpr ⟨by omega, by omega, ?_⟩
  simp only [Slice.mk.injEq, true_and]
  omega

structure SameWindow (w u : Slice) : Prop where
  backing : w.backing = u.backing
  offset : w.offset = u.offset
  len : w.len = u.len

theorem same_iff : (Value.slice w).same (.slice u) = true ↔ w.SameWindow u := by
  simp only [Value.same, Bool.and_eq_true, beq_iff_eq]
  exact ⟨fun ⟨⟨b, o⟩, l⟩ => ⟨b, o, l⟩, fun h => ⟨⟨h.backing, h.offset⟩, h.len⟩⟩

theorem place_eq_iff :
    Place.slice w.backing w.offset w.len = .slice u.backing u.offset u.len ↔ w.SameWindow u := by
  rw [Place.slice.injEq]
  exact ⟨fun ⟨b, o, l⟩ => ⟨b, o, l⟩, fun h => ⟨h.backing, h.offset, h.len⟩⟩

end Slice

end

namespace Session

/-- What a slice is to those cut from it and to those that share its backing, in a session to which
actions `as` have led. -/
structure Aliases (as : List Action) (S : Session) (w : Slice) : Prop where
  cut : ∀ low high, (∃ u, w.slice low high = .ok u) ↔ low ≤ high ∧ high ≤ w.cap
  header : ∀ {low high : Nat} {u : Slice}, w.slice low high = .ok u →
    u = { w with offset := w.offset + low, len := high - low, cap := w.cap - low }
  again : ∀ {low high low' high' : Nat} {u x : Slice}, w.slice low high = .ok u →
    u.slice low' high' = .ok x → w.slice (low + low') (low + high') = .ok x
  set : ∀ i v, (∃ st', w.set i v S.store = .ok () st') ↔ i < w.len ∧ w.elem.accepts v = true
  seen : ∀ {i : Nat} {v : Value} {st' : Store}, w.set i v S.store = .ok () st' →
    ∀ (u : Slice) (j : Nat), u.get? st' j =
      if u.backing = w.backing ∧ u.offset + j = w.offset + i ∧ j < u.len then some v
      else u.get? S.store j
  refused : ∀ {i : Nat} {v : Value} {stop : Stop HostError} {st' : Store},
    w.set i v S.store = .error stop st' → st' = S.store
  same : ∀ {u : Slice}, (Value.slice w).same (.slice u) = true ↔ w.SameWindow u
  equal : ∀ {u : Slice} {s s' : Nat} {h k : Handle}, S.Made s h → S.Made s' k →
    h.payload = .value (.slice w) → k.payload = .value (.slice u) →
      ((Script.handle h).same (.handle k) = true ↔ w.SameWindow u ∧ h.table = k.table)
  own : ∀ {u : Slice} {s : Nat} {h k : Handle}, S.Made s h → S.Made s k →
    h.payload = .value (.slice w) → k.payload = .value (.slice u) →
      (∀ set, ¬S.Forced as s set) →
      ((Script.handle h).same (.handle k) = true ↔ w.SameWindow u)

/-- Slices are exact windows, after any run. -/
theorem Run.aliases {host : Host} (hhost : ∀ n, (host n).Checked []) {as : List Action}
    {S : Session} (run : Run { host } as S) {w : Slice} (occurs : S.Occurs (.value (.slice w))) :
    S.Aliases as w := by
  obtain ⟨W, rules, fits⟩ := run.fits_of hhost
  have bounded : w.Bounded S.store := Slice.bounded_of_typed fits.store (fits.occurs occurs)
  constructor
  case cut =>
    intro low high
    simp only [Slice.slice_eq_ok, exists_and_left, exists_eq, and_true]
  case header => exact fun cut => (Slice.slice_eq_ok.mp cut).2.2
  case again => exact Slice.slice_slice
  case set => exact bounded.set_iff
  case seen => exact bounded.get?_of_set
  case refused => exact Slice.store_of_set_error
  case same => exact Slice.same_iff
  case equal =>
    intro u s s' h k made made' hw hu
    rw [← Slice.place_eq_iff]
    refine (fits.madeBy made).same_iff_table (fits.madeBy made') ?_ ?_
    · simp only [Handle.place?, hw, Value.place?]
    · simp only [Handle.place?, hu, Value.place?]
  case own =>
    intro u s h k made made' hw hu unforced
    rw [← Slice.place_eq_iff]
    refine fits.same_iff_place rules made made' unforced ?_ ?_
    · simp only [Handle.place?, hw, Value.place?]
    · simp only [Handle.place?, hu, Value.place?]

theorem aliases_beyond :
    let w : Slice := ⟨.bool, 0, 0, 2, 4⟩
    let u : Slice := ⟨.bool, 0, 1, 3, 3⟩
    let as : List Action := [.newState {}, .host (.withCapacity .bool 2 4),
      .host (.window w 1 4), .convert 0 (.slice w), .convert 0 (.slice u)]
    let S := ((((({ host := fun _ => Body.arguments } : Session).perform (.newState {})).perform
      (.host (.withCapacity .bool 2 4))).perform (.host (.window w 1 4))).perform
      (.convert 0 (.slice w))).perform (.convert 0 (.slice u))
    S.Aliases as w ∧ S.Occurs (.value (.slice u)) ∧
      S.Made 0 ⟨1, .value (.slice w), some ⟨0, .slice⟩⟩ ∧
      S.Made 0 ⟨2, .value (.slice u), some ⟨0, .slice⟩⟩ := by
  intro w u as S
  refine ⟨Run.aliases (fun _ => Body.checked_arguments)
    (.act (.act (.act (.act (.act (.start _) ?_) ?_) ?_) ?_) ?_) (.held ?_), .held ?_,
    ⟨.held ?_, rfl⟩, ⟨.held ?_, rfl⟩⟩
  · exact allows_of_none (List.nil_subset _) rfl
  · exact allows_of_none (List.nil_subset _) rfl
  · exact allows_of_none (List.Subset.refl _) rfl
  · refine allows_of_some ?_ rfl (by decide)
    exact List.cons_subset.mpr ⟨List.mem_cons_self, List.nil_subset _⟩
  · refine allows_of_some ?_ rfl (by decide)
    exact List.cons_subset.mpr ⟨.tail _ List.mem_cons_self, List.nil_subset _⟩
  · exact List.mem_cons_self
  · exact .tail _ List.mem_cons_self
  · exact .tail _ (.tail _ List.mem_cons_self)
  · exact .tail _ (.tail _ (.tail _ List.mem_cons_self))

/-- Only positions below its length show a slot of a slice: the second item of two is written, and a
window on the first has nothing at the second position, where it would show the same slot. -/
theorem set_unseen_beyond :
    let w : Slice := ⟨.bool, 0, 0, 2, 2⟩
    let u : Slice := ⟨.bool, 0, 0, 1, 2⟩
    ∃ as S st', Run { host := fun _ => Body.arguments } as S ∧ S.Occurs (.value (.slice w)) ∧
      S.Occurs (.value (.slice u)) ∧ w.set 1 (.bool true) S.store = .ok () st' ∧
      w.sharesBacking u = true ∧ w.offset + 1 = u.offset + 1 ∧
      u.get? st' 1 ≠ some (.bool true) := by
  intro w u
  refine ⟨_, _, _, .act (.act (.start _) (a := .host (.withCapacity .bool 2 2)) ?_)
    (a := .host (.window w 0 1)) ?_, .held ?_, .held ?_, rfl, rfl, rfl, nofun⟩
  · exact allows_of_none (List.nil_subset _) rfl
  · exact allows_of_none (List.Subset.refl _) rfl
  · exact List.mem_cons_self
  · exact .tail _ List.mem_cons_self

end Session

end HostBridge
