import HostBridge.Proofs.Conversion.Deep
import HostBridge.Proofs.Conversion.Form
import HostBridge.Proofs.Function.Arguments
import HostBridge.Proofs.Slice.Window
import HostBridge.Proofs.Storage.Fresh

namespace HostBridge

def Item.refs : Item → List Ref
  | .value v => v.refs
  | .script x => (Item.script x).ref?.toList
  | .tables _ => []

/-- The storage that a value names, and then, place by place, the storage that is named there. -/
def Value.spots (st : Store) (v : Value) : List Ref :=
  v.refs ++ v.refs.flatMap fun r => (st.contents r).flatMap Item.refs

section

variable {st st' : Store} {v : Value} {r : Ref}

theorem Value.mem_refs_of_names (names : (Item.value v).ref? = some r) : r ∈ v.refs := by
  cases v with
  | struct => cases names
  | _ => simpa [refs] using names

theorem Value.mem_refsAll {vs : List Value} : r ∈ refsAll vs ↔ ∃ v ∈ vs, r ∈ v.refs := by
  induction vs with
  | nil => simp [refsAll]
  | cons v vs ih => simp [refsAll, ih]

theorem Value.flatMap_refs (vs : List Value) : (vs.map .value).flatMap Item.refs = refsAll vs := by
  induction vs with
  | nil => rfl
  | cons v vs ih => exact congrArg (v.refs ++ ·) ih

mutual

theorem Value.reaches_of_mem_refs (st : Store) {v : Value} {r : Ref} (h : r ∈ v.refs) :
    (Item.value v).Reaches st r := by
  match v with
  | .struct t vs =>
    have named : r ∈ refsAll vs := h
    obtain ⟨u, hu, reached⟩ := Value.exists_reaches_of_mem_refsAll st named
    exact .part (List.mem_map_of_mem hu) reached
  | .nil | .bool _ | .int .. | .uint .. | .float .. | .complex .. | .string _ | .func _ | .chan _
  | .map _ | .slice _ | .ptr _ | .address _ | .boxed _ =>
    exact .self (Option.mem_toList.mp h)

theorem Value.exists_reaches_of_mem_refsAll (st : Store) {vs : List Value} {r : Ref}
    (h : r ∈ refsAll vs) : ∃ v ∈ vs, (Item.value v).Reaches st r := by
  match vs with
  | [] => cases h
  | v :: vs =>
    rcases List.mem_append.mp h with first | rest
    · exact ⟨v, List.mem_cons_self, Value.reaches_of_mem_refs st first⟩
    · obtain ⟨u, hu, reached⟩ := Value.exists_reaches_of_mem_refsAll st rest
      exact ⟨u, List.mem_cons_of_mem v hu, reached⟩

end

theorem Field.AreZero.exists_isZero {fs : List Field} {vs : List Value}
    (zeros : Field.AreZero st fs vs) (hv : v ∈ vs) : ∃ t : Ty, t.IsZero st v := by
  induction fs generalizing vs with
  | nil =>
    cases zeros
    cases hv
  | cons f fs ih =>
    obtain ⟨_, t, _⟩ := f
    obtain ⟨z, zs, rfl, zero, zeros⟩ := zeros
    rcases List.mem_cons.mp hv with rfl | hv
    · exact ⟨t, zero⟩
    · exact ih zeros hv

namespace Ty.IsZero

variable {t : Ty}

theorem part (zero : t.IsZero st v) {j : Item} (hj : j ∈ (Item.value v).parts) :
    ∃ (u : Value) (t' : Ty), j = .value u ∧ t'.IsZero st u ∧ ∀ r ∈ u.refs, r ∈ v.refs := by
  cases t with
  | struct t =>
    obtain ⟨name, fields, methods⟩ := t
    obtain ⟨vs, rfl, zeros⟩ := zero
    obtain ⟨u, hu, rfl⟩ := List.mem_map.mp hj
    obtain ⟨t', zero'⟩ := zeros.exists_isZero hu
    exact ⟨u, t', rfl, zero', fun r hr => Value.mem_refsAll.mpr ⟨u, hu, hr⟩⟩
  | map | slice =>
    obtain ⟨i, rfl, -⟩ := zero
    cases hj
  | _ =>
    cases zero
    cases hj

theorem reaches_iff (zero : t.IsZero st v) : (Item.value v).Reaches st r ↔ r ∈ v.refs := by
  refine ⟨fun reached => ?_, Value.reaches_of_mem_refs st⟩
  generalize eq : Item.value v = i at reached
  induction reached generalizing t v with
  | self names =>
    subst eq
    exact Value.mem_refs_of_names names
  | part hj _ ih =>
    subst eq
    obtain ⟨u, t', rfl, zero', sub⟩ := zero.part hj
    exact sub _ (ih zero' rfl)
  | inside names hj _ _ =>
    subst eq
    rw [zero.contents _ (Value.mem_refs_of_names names)] at hj
    cases hj

end Ty.IsZero

structure Value.Holds (st : Store) (v : Value) (r : Ref) (zs : List Value) : Prop where
  refs : v.refs = [r]
  parts : (Item.value v).parts = []
  contents : st.contents r = zs.map .value

namespace Value.Holds

variable {zs : List Value}

theorem spots_eq (holds : v.Holds st r zs) : v.spots st = r :: refsAll zs := by
  simp [spots, holds.refs, holds.contents, flatMap_refs]

theorem reaches_iff (holds : v.Holds st r zs) (zeros : ∀ z ∈ zs, ∃ t : Ty, t.IsZero st z)
    {r' : Ref} : (Item.value v).Reaches st r' ↔ r' ∈ v.spots st := by
  have self : (Item.value v).Reaches st r :=
    reaches_of_mem_refs st (holds.refs ▸ List.mem_singleton_self r)
  rw [holds.spots_eq, List.mem_cons, mem_refsAll]
  constructor
  · intro reached
    cases reached with
    | self names =>
      exact .inl (List.mem_singleton.mp (holds.refs ▸ mem_refs_of_names names))
    | part hj =>
      rw [holds.parts] at hj
      cases hj
    | inside names hj reached =>
      cases List.mem_singleton.mp (holds.refs ▸ mem_refs_of_names names)
      rw [holds.contents] at hj
      obtain ⟨z, hz, rfl⟩ := List.mem_map.mp hj
      obtain ⟨t, zero⟩ := zeros z hz
      exact .inr ⟨z, hz, zero.reaches_iff.mp reached⟩
  · rintro (rfl | ⟨z, hz, named⟩)
    · exact self
    · refine self.trans ?_ (reaches_of_mem_refs st named)
      rw [holds.contents]
      exact List.mem_map_of_mem hz

end Value.Holds

/-- All that the value leads to is new, each piece of it in one place, and all there was is as
before. -/
structure Value.Anew (st st' : Store) (v : Value) : Prop extends st.Wider st' where
  reaches : ∀ r, (Item.value v).Reaches st' r ↔ r ∈ v.spots st'
  nodup : (v.spots st').Nodup
  new : ∀ r ∈ v.spots st', ¬st.Has r ∧ st'.Has r

namespace Value.Anew

variable {st'' : Store} {w : Value}

theorem sameAt (anew : v.Anew st st') (wider : st'.Wider st'') (hr : r ∈ v.spots st') :
    st'.SameAt st'' r := wider.same (anew.new r hr).2

theorem spots_eq (anew : v.Anew st st') (wider : st'.Wider st'') :
    v.spots st'' = v.spots st' := by
  simp only [spots]
  congr 1
  refine List.flatMap_congr fun r hr => ?_
  rw [(anew.sameAt wider (List.mem_append_left _ hr)).contents_eq]

theorem trans (anew : v.Anew st st') (wider : st'.Wider st'') : v.Anew st st'' where
  toWider := anew.toWider.trans wider
  reaches r := by
    rw [anew.spots_eq wider, ← anew.reaches r]
    exact Item.Reaches.iff_of_same fun r h => anew.sameAt wider ((anew.reaches r).mp h)
  nodup := anew.spots_eq wider ▸ anew.nodup
  new r hr := by
    rw [anew.spots_eq wider] at hr
    exact ⟨(anew.new r hr).1, wider.has (anew.new r hr).2⟩

end Value.Anew

theorem Value.Holds.anew {zs : List Value} (holds : v.Holds st' r zs)
    (zeros : ∀ z ∈ zs, ∃ t : Ty, t.IsZero st' z) (gains : st.Gains st' (r :: refsAll zs)) :
    v.Anew st st' where
  toWider := gains.toWider
  reaches _ := holds.reaches_iff zeros
  nodup := holds.spots_eq ▸ gains.nodup
  new := holds.spots_eq ▸ gains.new

end

def Slice.Blank (st : Store) (elem : Ty) (len cap : Nat) (w : Slice) : Prop :=
  ∃ (i : Nat) (zs : List Value), w = ⟨elem, i, 0, len, cap⟩ ∧
    st.backings.get? i = some zs.toArray ∧ zs.length = cap ∧ ∀ z ∈ zs, elem.IsZero st z

namespace Slice

variable {st st' : Store} {w w' : Slice}

theorem Blank.mono (wider : st.Wider st') {elem : Ty} {len cap : Nat}
    (blank : w.Blank st elem len cap) : w.Blank st' elem len cap := by
  obtain ⟨i, zs, rfl, filled, length, zeros⟩ := blank
  exact ⟨i, zs, rfl, wider.backings filled, length, fun z hz => (zeros z hz).mono wider⟩

theorem holds_of_backing {zs : List Value} (filled : st.backings.get? w.backing = some zs.toArray) :
    (Value.slice w).Holds st (.backing w.backing) zs where
  refs := rfl
  parts := rfl
  contents := by simp [Store.contents, filled]

theorem withCapacity_gains (elem : Ty) (len cap : Nat) (st : Store) :
    ∃ w st' zs, withCapacity elem len cap st = (w, st') ∧ w.Blank st' elem len (max cap len) ∧
      (Value.slice w).Holds st' (.backing w.backing) zs ∧ (∀ z ∈ zs, elem.IsZero st' z) ∧
      st.Gains st' (.backing w.backing :: Value.refsAll zs) := by
  obtain ⟨length, zeros, gains⟩ := elem.zeros_gains (max cap len) st
  have made := Store.gains_newBacking (elem.zeros (max cap len) st).1.toArray
    (elem.zeros (max cap len) st).2
  have filled := get?_newBacking (elem.zeros (max cap len) st).1 (elem.zeros (max cap len) st).2
  have zeros' := fun z hz => (zeros z hz).mono made.toWider
  exact ⟨_, _, _, rfl, ⟨_, _, rfl, filled, length, zeros'⟩, holds_of_backing filled, zeros',
    gains.around made⟩

theorem withCapacity_anew (elem : Ty) (len cap : Nat) (st : Store) :
    ∃ w st', withCapacity elem len cap st = (w, st') ∧ w.Blank st' elem len (max cap len) ∧
      (Value.slice w).Anew st st' := by
  obtain ⟨w, st', zs, eq, blank, holds, zeros, gains⟩ := withCapacity_gains elem len cap st
  exact ⟨w, st', eq, blank, holds.anew (fun z hz => ⟨elem, zeros z hz⟩) gains⟩

/-- The slice `w'` is what has become of `w`, which had no room for `vs`. -/
structure Outgrown (st st' : Store) (w : Slice) (vs : List Value) (w' : Slice)
    (old spare : List Value) : Prop where
  window : w' = ⟨w.elem, w'.backing, 0, w.len + vs.length, w'.cap⟩
  filled : st'.backings.get? w'.backing = some (old ++ vs ++ spare).toArray
  old : w.Bounded st → old = w.toList st
  length : spare.length = w'.cap - w'.len
  zeros : ∀ z ∈ spare, w.elem.IsZero st' z
  gains : st.Gains st' (.backing w'.backing :: Value.refsAll spare)

theorem Bounded.toList_of_wider (bounded : w.Bounded st) (wider : st.Wider st') :
    w.toList st' = w.toList st := by
  obtain ⟨items, hitems, -⟩ := bounded.inside
  simp only [toList, Slice.items, hitems, wider.backings hitems]

theorem append_cases {vs : List Value} (done : w.append vs st = .ok w' st') :
    (∀ v ∈ vs, w.elem.accepts v = true) ∧
      (w.len + vs.length ≤ w.cap ∧ w.write (w.offset + w.len) vs st = .ok () st' ∧
          w' = { w with len := w.len + vs.length } ∨
        w.cap < w.len + vs.length ∧ w.len + vs.length ≤ w'.cap ∧
          (∃ n backings, st' = { (w.elem.zeros n st).2 with backings }) ∧
          ∃ old spare, Outgrown st st' w vs w' old spare) := by
  simp only [append] at done
  obtain ⟨_, st₁, checked, rest⟩ := ok_of_bind done
  obtain ⟨accepted, rfl⟩ := checkAll_eq_ok.mp checked
  clear done
  refine ⟨accepted, ?_⟩
  split at rest
  · rename_i room
    obtain ⟨_, st₂, written, rest⟩ := ok_of_bind rest
    cases rest
    exact .inl ⟨room, written, rfl⟩
  · rename_i full
    cases grown : growCapacity w.cap (w.len + vs.length) with
    | none =>
      rw [grown] at rest
      cases rest
    | some cap =>
      rw [grown] at rest
      cases rest
      obtain ⟨length, zeros, gains⟩ := w.elem.zeros_gains (cap - (w.len + vs.length)) st₁
      have made := Store.gains_newBacking
        (w.toList (w.elem.zeros (cap - (w.len + vs.length)) st₁).2 ++ vs ++
          (w.elem.zeros (cap - (w.len + vs.length)) st₁).1).toArray
        (w.elem.zeros (cap - (w.len + vs.length)) st₁).2
      refine .inr ⟨Nat.lt_of_not_le full, le_of_growCapacity grown, ⟨_, _, rfl⟩, ?_⟩
      exact ⟨_, _, rfl, get?_newBacking _ _,
        fun bounded => bounded.toList_of_wider gains.toWider, length,
        fun z hz => (zeros z hz).mono made.toWider, gains.around made⟩

theorem outgrown_of_append {vs : List Value} (full : w.cap < w.len + vs.length)
    (done : w.append vs st = .ok w' st') : ∃ old spare, Outgrown st st' w vs w' old spare := by
  obtain ⟨-, ⟨room, -⟩ | ⟨-, -, -, outgrown⟩⟩ := append_cases done
  · exact absurd room (Nat.not_le_of_lt full)
  · exact outgrown

theorem exists_append {vs : List Value} (accepted : ∀ v ∈ vs, w.elem.accepts v = true)
    (full : w.cap < w.len + vs.length) (small : w.len + vs.length < 2 ^ 63) :
    ∃ w' st', w.append vs st = .ok w' st' := by
  have large : (growCapacity w.cap (w.len + vs.length)).isSome = true := growCapacity_isSome small
  obtain ⟨cap, grown⟩ := Option.isSome_iff_exists.mp large
  simp only [append]
  rw [bind_ok (checkAll_eq_ok.mpr ⟨accepted, rfl⟩), if_neg (Nat.not_le_of_lt full), grown]
  exact ⟨_, _, rfl⟩

end Slice

namespace Ty

def instanceType : Ty → Ty
  | .map k e => .map k e
  | .slice e => .slice e
  | .chan d e => .chan d e
  | t => .ptr t

/-- An instance as it is made: an empty map, an empty slice with room for ten, an open channel
without a buffer, or a pointer to a zero value. -/
def IsInstance (st : Store) : Ty → Value → Prop
  | .map k e, v => (Ty.map k e).IsZero st v
  | .slice e, v => ∃ w, v = .slice w ∧ w.Blank st e 0 10
  | .chan d e, v => ∃ i, v = .chan ⟨e, d, i⟩ ∧ st.channels.get? i = some { capacity := 0 }
  | t, v => ∃ i z, v = .ptr ⟨t, some i⟩ ∧ st.cells.get? i = some z ∧ t.IsZero st z

variable {st st' : Store} {t : Ty} {v : Value}

theorem IsInstance.mono (wider : st.Wider st') (h : t.IsInstance st v) : t.IsInstance st' v := by
  cases t with
  | map => exact IsZero.mono wider h
  | slice =>
    obtain ⟨w, rfl, blank⟩ := h
    exact ⟨w, rfl, blank.mono wider⟩
  | chan =>
    obtain ⟨i, rfl, made⟩ := h
    exact ⟨i, rfl, wider.channels made⟩
  | _ =>
    obtain ⟨i, z, rfl, made, zero⟩ := h
    exact ⟨i, z, rfl, wider.cells made, IsZero.mono wider zero⟩

theorem IsInstance.type (h : t.IsInstance st v) : v.type = t.instanceType := by
  cases t with
  | map | chan =>
    obtain ⟨i, rfl, -⟩ := h
    rfl
  | slice =>
    obtain ⟨_, rfl, i, zs, rfl, -⟩ := h
    rfl
  | _ =>
    obtain ⟨i, z, rfl, -⟩ := h
    rfl

theorem IsInstance.exists_kind (h : t.IsInstance st v) :
    ∃ kind, (Payload.value v).kind? = some kind := by
  cases t with
  | map | chan =>
    obtain ⟨i, rfl, -⟩ := h
    exact ⟨_, rfl⟩
  | slice =>
    obtain ⟨_, rfl, -⟩ := h
    exact ⟨_, rfl⟩
  | _ =>
    obtain ⟨i, z, rfl, -⟩ := h
    exact ⟨_, rfl⟩

theorem newCell_gains (t : Ty) (st : Store) : ∃ i z st', Store.newCell (t.zero st).1 (t.zero st).2 =
    (i, st') ∧ (Value.ptr ⟨t, some i⟩).Holds st' (.cell i) [z] ∧ st'.cells.get? i = some z ∧
      t.IsZero st' z ∧ st.Gains st' (.cell i :: Value.refsAll [z]) := by
  obtain ⟨zero, gains⟩ := t.zero_gains st
  have made := Store.gains_newCell (t.zero st).1 (t.zero st).2
  have filled : (Store.newCell (t.zero st).1 (t.zero st).2).2.cells.get? (t.zero st).2.cells.size =
    some (t.zero st).1 := Heap.get?_push_self ..
  refine ⟨_, _, (Store.newCell (t.zero st).1 (t.zero st).2).2, rfl, ⟨rfl, rfl, ?_⟩, filled,
    zero.mono made.toWider, ?_⟩
  · simp [Store.contents, filled]
  · simpa [Value.refsAll] using gains.around made

theorem instantiate_gains (t : Ty) (st : Store) : ∃ v st' r zs, t.instantiate st = (v, st') ∧
    t.IsInstance st' v ∧ v.Holds st' r zs ∧ (∀ z ∈ zs, ∃ t' : Ty, t'.IsZero st' z) ∧
    st.Gains st' (r :: Value.refsAll zs) := by
  cases t with
  | map k e =>
    obtain ⟨zero, gains⟩ := zero_gains (.map k e) st
    refine ⟨_, _, _, [], rfl, zero, ⟨rfl, rfl, ?_⟩, by simp, gains⟩
    exact zero.contents _ (List.mem_singleton_self _)
  | slice e =>
    obtain ⟨w, st', zs, eq, blank, holds, zeros, gains⟩ := Slice.withCapacity_gains e 0 10 st
    refine ⟨.slice w, st', _, zs, ?_, ⟨w, rfl, blank⟩, holds, fun z hz => ⟨e, zeros z hz⟩, gains⟩
    simp only [instantiate, bind, StateT.bind, eq]
    rfl
  | chan d e =>
    have made : (Store.newChannel ({ capacity := 0 } : Channel Value) st).2.channels.get?
      st.channels.size = some { capacity := 0 } := Heap.get?_push_self ..
    refine ⟨.chan ⟨e, d, st.channels.size⟩, (Store.newChannel { capacity := 0 } st).2, _, [], rfl,
      ⟨_, rfl, made⟩, ⟨rfl, rfl, ?_⟩, by simp, Store.gains_newChannel _ st⟩
    simp [Store.contents, made]
  | _ =>
    obtain ⟨i, z, st', eq, holds, filled, zero, gains⟩ := newCell_gains _ st
    refine ⟨_, st', _, [z], ?_, ⟨i, z, rfl, filled, zero⟩, holds, ?_, gains⟩
    · exact congrArg (fun made : Nat × Store => (Value.ptr ⟨_, some made.1⟩, made.2)) eq
    · exact List.forall_mem_singleton.mpr ⟨_, zero⟩

end Ty

end HostBridge
