import HostBridge.Proofs.Typing.World

namespace HostBridge

structure Heap.Fits {α τ : Type} (R : τ → α → Prop) (h : Heap α) (ks : List (Known τ α)) :
    Prop where
  size : h.size = ks.length
  rel : ∀ {i : Nat} {t : τ} {a : α}, ks[i]? = some (.declared t) → h.get? i = some a → R t a
  frozen : ∀ {i : Nat} {a : α}, ks[i]? = some (.frozen a) → h.get? i = some a

namespace Heap.Fits

variable {α τ : Type} {R R' : τ → α → Prop} {h : Heap α} {ks : List (Known τ α)}

theorem empty : ({} : Heap α).Fits R [] := ⟨rfl, by simp, by simp⟩

theorem mono (fits : h.Fits R ks) (imp : ∀ t a, R t a → R' t a) : h.Fits R' ks where
  size := fits.size
  rel ht ha := imp _ _ (fits.rel ht ha)
  frozen := fits.frozen

theorem get (fits : h.Fits R ks) {i : Nat} {t : τ} (ht : ks[i]? = some (.declared t)) :
    ∃ a, h.get? i = some a ∧ R t a := by
  obtain ⟨hi, _⟩ := List.getElem?_eq_some_iff.mp ht
  rw [← fits.size] at hi
  exact ⟨h.items[i], Array.getElem?_eq_getElem hi, fits.rel ht (Array.getElem?_eq_getElem hi)⟩

theorem type (fits : h.Fits R ks) (all : Known.All ks) {i : Nat} {a : α} (ha : h.get? i = some a) :
    ∃ t, R t a := by
  obtain ⟨hi, _⟩ := Array.getElem?_eq_some_iff.mp ha
  have known := List.getElem?_eq_getElem (Nat.lt_of_lt_of_eq hi fits.size)
  obtain ⟨t, ht⟩ := all _ (List.mem_of_getElem? known)
  exact ⟨t, fits.rel (known.trans (congrArg some ht)) ha⟩

theorem push (fits : h.Fits R ks) {t : τ} {a : α} (hr : R t a) :
    (h.push a).Fits R (ks ++ [.declared t]) where
  size := by simp [fits.size]
  rel := by
    intro i u b hu hb
    rw [get?_push] at hb
    split at hb
    · rename_i hi
      subst hi
      rw [fits.size, List.getElem?_concat_length] at hu
      cases hu
      cases hb
      exact hr
    · rename_i hi
      rw [fits.size] at hi
      rw [List.getElem?_append] at hu
      split at hu
      · exact fits.rel hu hb
      · simp [List.getElem?_singleton] at hu
        omega
  frozen := by
    intro i b hb
    rw [List.getElem?_append] at hb
    split at hb
    · rename_i hi
      rw [get?_push, if_neg (by rw [fits.size]; omega)]
      exact fits.frozen hb
    · simp [List.getElem?_singleton] at hb

theorem set (fits : h.Fits R ks) {i : Nat} {t : τ} {a : α} (ht : ks[i]? = some (.declared t))
    (hr : R t a) : (h.set i a).Fits R ks where
  size := by simp [fits.size]
  rel := by
    intro j u b hu hb
    rw [get?_set] at hb
    split at hb
    · rename_i hij
      rw [hij.1, hu] at ht
      cases ht
      cases hb
      exact hr
    · exact fits.rel hu hb
  frozen := by
    intro j b hb
    have ne : i ≠ j := by
      rintro rfl
      rw [hb] at ht
      cases ht
    rw [get?_set, if_neg fun hij => ne hij.1]
    exact fits.frozen hb

end Heap.Fits

structure Value.Fits (W : World) (t : Ty) (v : Value) : Prop where
  accepts : t.accepts v = true
  typed : v.Typed W

theorem Value.Fits.mono {W W' : World} (le : W.Below W') {t : Ty} {v : Value} (h : v.Fits W t) :
    v.Fits W' t := ⟨h.accepts, h.typed.mono le⟩

/-- What a world records of a state by what its slot for operator tables, under `key`, holds. -/
def Slot.Fits (W : World) (s : Nat) (key : String) : Option Slot → Prop
  | none => W.sets s = none
  | some (.operators set) =>
    W.sets s = some set ∨ ¬W.rules.kept s key ∧ W.rules.swapped s key set
  | some (.foreign ..) => W.rules.kept s key → W.sets s = none

/-- The shape of the store is that of `W`, and its contents are typed in `V`. -/
structure Store.TypedBy (V W : World) (st : Store) : Prop where
  maps : st.maps.Fits (fun t es => ∀ e ∈ es, e.key.Fits V t.1 ∧ e.value.Fits V t.2) W.maps
  backings : st.backings.Fits (fun t items => items.size = t.2 ∧ ∀ v ∈ items, v.Fits V t.1)
    W.backings
  cells : st.cells.Fits (fun t v => v.Fits V t) W.cells
  channels : st.channels.Fits (fun t c => ∀ v ∈ c.queue, v.Fits V t.1) W.channels
  tables : st.tables.Fits (fun _ es => ∀ e ∈ es, e.1.Typed V ∧ e.2.Typed V) W.tables
  globals : ∀ {s : Nat} {state : State}, st.states.get? s = some state →
    ∀ g ∈ state.globals, ¬W.hidden s g.1 → g.2.Typed V
  fresh : st.fresh = W.makers.length
  handles : ∀ {i : Nat}, W.makers.length ≤ i → W.handles i = none
  states : st.states.size = W.configs.length
  config : ∀ {s : Nat} {state : State}, st.states.get? s = some state →
    W.configs[s]? = some state.config
  slot : ∀ {s : Nat} {state : State}, st.states.get? s = some state →
    Slot.Fits W s state.config.registryKey (Assoc.find state.config.registryKey state.registry)
  sets : ∀ {s : Nat}, W.configs.length ≤ s → W.sets s = none
  builder : ∀ {s set : Nat}, W.sets s = some set → W.Origin s set
  pinned : ∀ {s : Nat} {key : String} {slot : Slot}, W.pinned s key = some slot →
    State.slot? st s key = some slot

abbrev Store.Typed (W : World) (st : Store) : Prop := st.TypedBy W W

namespace Store.TypedBy

variable {V W : World} {st : Store}

theorem mono {V' : World} (le : V.Below V') (h : st.TypedBy V W) : st.TypedBy V' W :=
  { h with
    maps := h.maps.mono fun _ _ hr e he => ⟨(hr e he).1.mono le, (hr e he).2.mono le⟩
    backings := h.backings.mono fun _ _ hr => ⟨hr.1, fun v hv => (hr.2 v hv).mono le⟩
    cells := h.cells.mono fun _ _ hr => hr.mono le
    channels := h.channels.mono fun _ _ hr v hv => (hr v hv).mono le
    tables := h.tables.mono fun _ _ hr e he => ⟨(hr e he).1.mono le, (hr e he).2.mono le⟩
    globals := fun hs g hg shown => (h.globals hs g hg shown).mono le }

end Store.TypedBy

theorem Store.typed_empty (rules : Rules) : Store.Typed { rules } {} where
  maps := .empty
  backings := .empty
  cells := .empty
  channels := .empty
  tables := .empty
  globals := by simp [Heap.get?]
  fresh := rfl
  states := rfl
  config := by simp [Heap.get?]
  slot := by simp [Heap.get?]
  handles _ := rfl
  sets _ := rfl
  builder h := nomatch h
  pinned h := nomatch h

end HostBridge
