import HostBridge.Storage.Map
import Mathlib.Data.List.Basic

namespace HostBridge

namespace Entry

def Distinct (es : List Entry) : Prop := es.Pairwise fun e f => e.index ≠ f.index

theorem distinct_nil : Distinct [] := List.Pairwise.nil

theorem mem_put {e f : Entry} {es : List Entry} (h : f ∈ put e es) : f = e ∨ f ∈ es := by
  induction es with
  | nil => simpa [put] using h
  | cons x xs ih =>
    simp only [put] at h
    split at h
    · obtain rfl | old := List.mem_cons.mp h
      · exact .inl rfl
      · exact .inr (List.mem_cons_of_mem x old)
    · obtain rfl | rest := List.mem_cons.mp h
      · exact .inr List.mem_cons_self
      · exact (ih rest).imp_right (List.mem_cons_of_mem x)

theorem mem_erase {k : Key} {f : Entry} {es : List Entry} (h : f ∈ erase k es) : f ∈ es :=
  List.mem_of_mem_eraseP h

theorem distinct_put (e : Entry) {es : List Entry} (h : Distinct es) : Distinct (put e es) := by
  induction es with
  | nil => exact List.pairwise_singleton _ e
  | cons x xs ih =>
    obtain ⟨hx, hxs⟩ := List.pairwise_cons.mp h
    simp only [put]
    split
    · rename_i same
      exact List.pairwise_cons.mpr ⟨fun f hf => same ▸ hx f hf, hxs⟩
    · rename_i other
      refine List.pairwise_cons.mpr ⟨fun f hf => ?_, ih hxs⟩
      obtain rfl | old := mem_put hf
      · exact other
      · exact hx f old

theorem distinct_erase (k : Key) {es : List Entry} (h : Distinct es) : Distinct (erase k es) :=
  List.Pairwise.sublist List.eraseP_sublist h

theorem lookup_eq_none {k : Key} {es : List Entry} (h : ∀ e ∈ es, e.index ≠ k) :
    lookup k es = none := by
  simpa [lookup] using h

theorem lookup_isSome {k : Key} {es : List Entry} :
    (lookup k es).isSome = true ↔ ∃ e ∈ es, e.index = k := by
  simp [lookup]

theorem lookup_cons (k : Key) (e : Entry) (es : List Entry) :
    lookup k (e :: es) = if e.index = k then some e.value else lookup k es := by
  by_cases h : e.index = k <;> simp [lookup, h]

theorem lookup_of_mem {e : Entry} {es : List Entry} (h : Distinct es) (he : e ∈ es) :
    lookup e.index es = some e.value := by
  induction es with
  | nil => cases he
  | cons x xs ih =>
    obtain ⟨hx, hxs⟩ := List.pairwise_cons.mp h
    rw [lookup_cons]
    obtain rfl | old := List.mem_cons.mp he
    · rw [if_pos rfl]
    · rw [if_neg (hx e old), ih hxs old]

theorem erase_cons (k : Key) (e : Entry) (es : List Entry) :
    erase k (e :: es) = if e.index = k then es else e :: erase k es := by
  by_cases h : e.index = k <;> simp [erase, h]

theorem lookup_erase_of_ne {k l : Key} (ne : k ≠ l) (es : List Entry) :
    lookup l (erase k es) = lookup l es := by
  induction es with
  | nil => rfl
  | cons x xs ih =>
    rw [erase_cons]
    split
    · rename_i same
      rw [lookup_cons, if_neg (same ▸ ne)]
    · rw [lookup_cons, lookup_cons, ih]

theorem lookup_erase_self (k : Key) {es : List Entry} (h : Distinct es) :
    lookup k (erase k es) = none := by
  induction es with
  | nil => rfl
  | cons x xs ih =>
    obtain ⟨hx, hxs⟩ := List.pairwise_cons.mp h
    rw [erase_cons]
    split
    · rename_i same
      exact lookup_eq_none fun e he => same ▸ (hx e he).symm
    · rename_i other
      rw [lookup_cons, if_neg other, ih hxs]

end Entry

theorem Heap.isSome_get?_set {α : Type} (h : Heap α) (i j : Nat) (a : α) :
    ((h.set i a).get? j).isSome = (h.get? j).isSome := by
  rw [get?_set]
  split
  · rename_i inside
    have present : j < h.items.size := inside.1 ▸ inside.2
    simp [get?, present]
  · rfl

namespace Map

variable {m : Map} {key value : Value} {st : Store}

theorem entries_set (present : (st.maps.get? m.id).isSome = true) (es : List Entry) :
    m.entries { st with maps := st.maps.set m.id es } = es := by
  have inside : m.id < st.maps.size := by
    simpa [Heap.get?, Heap.size] using present
  simp [entries, Heap.get?_set, inside]

theorem lookup_entries_set {k : Key} {es : List Entry}
    (h : Entry.lookup k es = Entry.lookup k (m.entries st)) :
    Entry.lookup k (m.entries { st with maps := st.maps.set m.id es }) =
      Entry.lookup k (m.entries st) := by
  cases present : st.maps.get? m.id with
  | none =>
    have outside : ¬m.id < st.maps.size := by simpa [Heap.get?, Heap.size] using present
    simp [entries, Heap.get?_set, outside]
  | some es' => rw [entries_set (by simp [present]), h]

theorem insert_eq (m : Map) (key value : Value) (st : Store) :
    m.insert key value st = match m.keyOf key with
      | .error e => .error (.error e) st
      | .ok k =>
        if m.elem.accepts value then
          .ok () { st with maps := st.maps.set m.id (Entry.put ⟨k, key, value⟩ (m.entries st)) }
        else .error (.error (.typeMismatch m.elem.text value.typeText)) st := by
  simp only [insert, HostM.check]
  cases m.keyOf key with
  | error e => rfl
  | ok k => by_cases h : m.elem.accepts value = true <;> simp only [h] <;> rfl

theorem remove_eq (m : Map) (key : Value) (st : Store) :
    m.remove key st = match m.keyOf key with
      | .error e => .error (.error e) st
      | .ok k => .ok (Entry.lookup k (m.entries st))
          { st with maps := st.maps.set m.id (Entry.erase k (m.entries st)) } := by
  simp only [remove]
  cases m.keyOf key <;> rfl

end Map

end HostBridge
