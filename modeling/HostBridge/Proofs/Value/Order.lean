import HostBridge.Bridge.Text
import HostBridge.Proofs.Map.Entries
import HostBridge.Proofs.Struct.Visibility

namespace HostBridge

/-- The stores hold the same, but for the order in which maps keep their entries. -/
structure Store.Reordered (st st' : Store) : Prop where
  maps : ∀ i, Option.Rel List.Perm (st.maps.get? i) (st'.maps.get? i)
  others : ∃ maps, st' = { st with maps }

def Store.Indexed (st : Store) : Prop := ∀ m : Map, Entry.Distinct (m.entries st)

/-- Where a store gets to when entries are inserted, overwritten and removed, in any order. -/
inductive Store.Edited (st : Store) : Store → Prop
  | start : Edited st st
  | insert {m : Map} {key value : Value} {st' st'' : Store} : Edited st st' →
    m.insert key value st' = .ok () st'' → Edited st st''
  | remove {m : Map} {key : Value} {r : Option Value} {st' st'' : Store} : Edited st st' →
    m.remove key st' = .ok r st'' → Edited st st''

variable {st st' st₀ : Store}

theorem entriesText_perm {texts texts' : List String} (perm : texts.Perm texts') :
    entriesText texts' = entriesText texts := by
  have sorted (l : List String) : (l.mergeSort (· ≤ ·)).Pairwise (· ≤ ·) := by
    have pairwise : (l.mergeSort (· ≤ ·)).Pairwise fun a b => decide (a ≤ b) = true :=
      List.pairwise_mergeSort (by simpa using fun a b c => String.le_trans)
        (by simpa using String.le_total) l
    simpa only [decide_eq_true_eq] using pairwise
  have same : texts'.mergeSort (· ≤ ·) = texts.mergeSort (· ≤ ·) :=
    List.Perm.eq_of_pairwise (fun _ _ _ _ => String.le_antisymm) (sorted texts') (sorted texts)
      ((List.mergeSort_perm ..).trans (perm.symm.trans (List.mergeSort_perm ..).symm))
  rw [entriesText, entriesText, same]

namespace Store.Reordered

theorem entries (h : st.Reordered st') (m : Map) : (m.entries st).Perm (m.entries st') := by
  have related := h.maps m.id
  simp only [Map.entries]
  generalize st.maps.get? m.id = held at related
  generalize st'.maps.get? m.id = held' at related
  cases related with
  | none => exact .refl _
  | some perm => exact perm

theorem dispatches (s : Nat) : Dispatches s Store.Reordered Eq := by
  refine .of_states ?_ ?_ s
  · rintro st _ ⟨_, maps, rfl⟩
    exact ⟨rfl, rfl⟩
  · rintro st _ ⟨perms, maps, rfl⟩ states fresh
    exact ⟨perms, maps, rfl⟩

theorem nestedText_eq (h : st.Reordered st') (room : Nat) (v : Value) :
    Value.nestedText st' room v = Value.nestedText st room v := by
  induction room generalizing v with
  | zero => simp only [Value.nestedText]
  | succ room ih =>
    have same : Value.nestedText st' room = Value.nestedText st room := funext ih
    cases v with
    | map m =>
      simp only [Value.nestedText, same]
      exact entriesText_perm ((h.entries m).map _)
    | slice w =>
      obtain ⟨maps, rfl⟩ := h.others
      simp only [Value.nestedText, same]
      rfl
    | struct t vs => simp only [Value.nestedText, same]
    | _ => rfl

theorem text_eq (h : st.Reordered st') (v : Value) : v.text st' = v.text st := by
  cases v with
  | ptr p =>
    have nested := h.nestedText_eq
    obtain ⟨maps, rfl⟩ := h.others
    simp only [Value.text, nested]
    rfl
  | _ => exact h.nestedText_eq textDepth _

theorem scriptText_eq (h : st.Reordered st') (x : Script) : x.text st' = x.text st := by
  cases x with
  | handle k => simp only [Script.text, Handle.text, Handle.heldText, h.text_eq]
  | _ => rfl

end Store.Reordered

theorem Entry.Distinct.perm {es es' : List Entry} (h : Distinct es) (h' : Distinct es')
    (same : ∀ e, e ∈ es ↔ e ∈ es') : es.Perm es' := by
  have nodup {es : List Entry} (h : Distinct es) : es.Nodup :=
    h.imp fun ne eq => ne (congrArg Entry.index eq)
  exact (List.perm_ext_iff_of_nodup (nodup h) (nodup h')).mpr same

namespace Store

def EditedAt (m : Map) (st st' : Store) : Prop :=
  ∃ es, st' = { st with maps := st.maps.set m.id es } ∧
    (Entry.Distinct (m.entries st) → Entry.Distinct es)

theorem editedAt_insert {m : Map} {key value : Value} (h : m.insert key value st = .ok () st') :
    st.EditedAt m st' := by
  rw [Map.insert_eq] at h
  split at h
  · cases h
  · split at h
    · cases h
      exact ⟨_, rfl, Entry.distinct_put _⟩
    · cases h

theorem editedAt_remove {m : Map} {key : Value} {r : Option Value}
    (h : m.remove key st = .ok r st') : st.EditedAt m st' := by
  rw [Map.remove_eq] at h
  split at h
  · cases h
  · cases h
    exact ⟨_, rfl, Entry.distinct_erase _⟩

namespace EditedAt

variable {m : Map}

theorem indexed (h : st.EditedAt m st') (indexed : st.Indexed) : st'.Indexed := by
  obtain ⟨es, rfl, distinct⟩ := h
  intro other
  simp only [Map.entries, Heap.get?_set]
  split
  · exact distinct (indexed m)
  · exact indexed other

theorem isSome_eq (h : st.EditedAt m st') (i : Nat) :
    (st'.maps.get? i).isSome = (st.maps.get? i).isSome := by
  obtain ⟨es, rfl, _⟩ := h
  exact Heap.isSome_get?_set st.maps m.id i es

theorem others (h : st.EditedAt m st') : ∃ maps, st' = { st with maps } := by
  obtain ⟨es, rfl, _⟩ := h
  exact ⟨_, rfl⟩

end EditedAt

structure Kept (st st' : Store) : Prop where
  indexed : st.Indexed → st'.Indexed
  isSome_eq : ∀ i, (st'.maps.get? i).isSome = (st.maps.get? i).isSome
  others : ∃ maps, st' = { st with maps }

theorem Kept.edit {m : Map} (kept : st₀.Kept st) (h : st.EditedAt m st') : st₀.Kept st' where
  indexed indexed := h.indexed (kept.indexed indexed)
  isSome_eq i := (h.isSome_eq i).trans (kept.isSome_eq i)
  others := by
    obtain ⟨_, rfl⟩ := kept.others
    obtain ⟨maps, rfl⟩ := h.others
    exact ⟨maps, rfl⟩

theorem Edited.kept (h : st.Edited st') : st.Kept st' := by
  induction h with
  | start => exact ⟨id, fun _ => rfl, _, rfl⟩
  | insert _ inserted ih => exact ih.edit (editedAt_insert inserted)
  | remove _ removed ih => exact ih.edit (editedAt_remove removed)

theorem Edited.reordered (indexed : st₀.Indexed) (h : st₀.Edited st) (h' : st₀.Edited st')
    (same : ∀ (m : Map) (e : Entry), e ∈ m.entries st ↔ e ∈ m.entries st') :
    st.Reordered st' where
  maps i := by
    have isSome := (h.kept.isSome_eq i).trans (h'.kept.isSome_eq i).symm
    have perm : ((st.maps.get? i).getD []).Perm ((st'.maps.get? i).getD []) :=
      (h.kept.indexed indexed ⟨.any, .any, i⟩).perm (h'.kept.indexed indexed ⟨.any, .any, i⟩)
        (same ⟨.any, .any, i⟩)
    generalize st.maps.get? i = held at isSome perm
    generalize st'.maps.get? i = held' at isSome perm
    cases held <;> cases held'
    · exact .none
    · cases isSome
    · cases isSome
    · exact .some perm
  others := by
    obtain ⟨_, rfl⟩ := h.kept.others
    obtain ⟨maps, rfl⟩ := h'.kept.others
    exact ⟨maps, rfl⟩

end Store

structure Value.Orderless (v : Value) : Prop where
  text : ∀ {st st' : Store}, st.Reordered st' → v.text st' = v.text st
  handle : ∀ {st st' : Store}, st.Reordered st' → ∀ h : Handle, h.payload = .value v →
    (Script.handle h).text st' = (Script.handle h).text st
  converted : ∀ {st st' : Store}, st.Reordered st' → ∀ s : Nat,
    Agree (fun st₁ st₁' => st₁.Reordered st₁' ∧ ∀ x : Script, x.text st₁' = x.text st₁) Eq
      (v.toScript s st) (v.toScript s st')
  edited : ∀ {st₀ st st' : Store}, st₀.Indexed → st₀.Edited st → st₀.Edited st' →
    (∀ (m : Map) (e : Entry), e ∈ m.entries st ↔ e ∈ m.entries st') →
      st.Reordered st' ∧ v.text st' = v.text st

/-- No value shows the order in which maps keep their entries. -/
theorem Value.orderless (v : Value) : v.Orderless where
  text h := h.text_eq v
  handle reordered h _ := reordered.scriptText_eq (.handle h)
  converted h s :=
    (Value.toScript_renewed (Store.Reordered.dispatches s) v h).imp
      (fun _ _ renewed => renewed.eq) fun _ _ alike => ⟨alike, alike.scriptText_eq⟩
  edited indexed h h' same := by
    have reordered := h.reordered indexed h' same
    exact ⟨reordered, reordered.text_eq v⟩

example (a b : Entry) :
    ({ maps := ⟨#[[a, b]]⟩ } : Store).Reordered { maps := ⟨#[[b, a]]⟩ } where
  maps
    | 0 => .some (.swap b a [])
    | _ + 1 => .none
  others := ⟨_, rfl⟩

end HostBridge
