import HostBridge.Proofs.Channel.Delivery
import HostBridge.Proofs.Slice.Append

namespace HostBridge

theorem Heap.getD_set {α : Type} (h : Heap α) (i j : Nat) (a d : α) :
    j = i ∧ ((h.set i a).get? j).getD d = a ∨ ((h.set i a).get? j).getD d = (h.get? j).getD d := by
  rw [get?_set]
  split
  · rename_i here
    exact .inl ⟨here.1.symm, rfl⟩
  · exact .inr rfl

inductive Location
  | element (m : Map) (key : Value)
  | item (w : Slice) (i : Nat)
  | pointee (p : Pointer)
  | field (p : Pointer) (t : StructTy) (name : String)
  | queue (c : Chan)

inductive Value.Carries (c : Chan) : Value → Prop
  | here : Carries c (.chan c)
  | field {t : StructTy} {vs : List Value} : .chan c ∈ vs → Carries c (.struct t vs)

namespace Location

inductive Declares : Location → Ty → Prop
  | element {m : Map} {key : Value} : Declares (.element m key) m.elem
  | item {w : Slice} {i : Nat} : Declares (.item w i) w.elem
  | pointee {p : Pointer} : Declares (.pointee p) p.elem
  | field {p : Pointer} {t : StructTy} {name : String} {i : Nat} {f : Field} :
    t.field? name = some (i, f) → Declares (.field p t name) f.type
  | queue {c : Chan} : Declares (.queue c) c.elem

def write (v : Value) : Location → HostM Unit
  | .element m key => m.insert key v
  | .item w i => w.set i v
  | .pointee p => p.store v
  | .field p _ name => p.modifyFields "struct" fun t vs => t.set vs name v
  | .queue c => c.send v

def after (l : Location) (v : Value) (st : Store) : Store :=
  match l.write v st with
  | .ok _ st' | .error _ st' => st'

def Holds (st : Store) (v : Value) : Location → Prop
  | .element m key => m.find st key = .ok (some v)
  | .item w i => w.get? st i = some v
  | .pointee p => p.load st = .ok v
  | .field p t name => ∃ vs, p.load st = .ok (.struct t vs) ∧ t.get? vs name = some v
  | .queue c => v ∈ (c.channel st).queue

inductive Stored (v : Value) (st : Store) : Store → Prop
  | element (m : Map) (k : Key) (key : Value) : Stored v st
    { st with maps := st.maps.set m.id (Entry.put ⟨k, key, v⟩ (m.entries st)) }
  | item (w : Slice) (i : Nat) : Stored v st
    { st with backings := st.backings.set w.backing ((w.items st).setIfInBounds i v) }
  | pointee (c : Nat) : Stored v st { st with cells := st.cells.set c v }
  | field {p : Pointer} {c : Nat} {t : StructTy} {vs : List Value} (i : Nat) : p.cell = some c →
    p.load st = .ok (.struct t vs) →
      Stored v st { st with cells := st.cells.set c (.struct t (vs.set i v)) }
  | queue (c : Chan) (ch : Channel Value) : ch.queue = (c.channel st).queue ++ [v] →
    Stored v st { st with channels := st.channels.set c.id ch }

variable {l : Location} {t : Ty} {u v : Value} {st st' : Store}

theorem eq_set_of_set {t : StructTy} {vs ws : List Value} {name : String}
    (changed : t.set vs name v = .ok ws) : ∃ i, ws = vs.set i v := by
  simp only [StructTy.set] at changed
  split at changed
  · cases changed
  · rename_i i f declared
    simp only [StructTy.setAt] at changed
    split at changed
    · cases changed
    · split at changed
      · cases changed
        exact ⟨i, rfl⟩
      · cases changed

theorem mem_of_get? {t : StructTy} {vs : List Value} {name : String}
    (got : t.get? vs name = some u) : u ∈ vs := by
  obtain ⟨⟨i, f⟩, -, got⟩ := Option.bind_eq_some_iff.mp got
  exact List.mem_of_getElem? got

theorem queue_of_enqueue {ch ch' : Channel Value} {ticket : Nat}
    (h : ch.enqueue v = (some (.ok ticket), ch')) : ch'.queue = ch.queue ++ [v] := by
  simp only [Channel.enqueue] at h
  split at h
  · cases h
  · split at h
    · cases h
      rfl
    · cases h

theorem after_element (m : Map) (key : Value) :
    (element m key).after v st = st ∨ Stored v st ((element m key).after v st) := by
  simp only [after, write, Map.insert_eq]
  cases m.keyOf key with
  | error e => exact .inl rfl
  | ok k =>
    by_cases accepted : m.elem.accepts v = true
    · simp only [if_pos accepted]
      exact .inr (.element m k key)
    · simp only [if_neg accepted]
      exact .inl trivial

theorem after_item (w : Slice) (i : Nat) :
    (item w i).after v st = st ∨ Stored v st ((item w i).after v st) := by
  cases done : w.set i v st with
  | error stop st' =>
    simp only [after, write, done]
    exact .inl (Slice.store_of_set_error done)
  | ok _ st' =>
    simp only [after, write, done]
    obtain ⟨shown, accepted⟩ := Slice.accepted_of_set done
    rw [Slice.set_eq, if_pos shown, if_pos accepted] at done
    split at done
    · cases done
      exact .inr (.item w (w.offset + i))
    · cases done

theorem after_pointee (p : Pointer) :
    (pointee p).after v st = st ∨ Stored v st ((pointee p).after v st) := by
  simp only [after, write, Pointer.store, HostM.check]
  by_cases accepted : p.elem.accepts v = true
  · rw [if_pos accepted, bind_ok (show (pure () : HostM Unit) st = .ok () st from rfl)]
    cases cell : p.cell with
    | none =>
      simp only [Pointer.write, cell]
      exact .inl rfl
    | some c =>
      rw [Pointer.write_of_cell cell]
      exact .inr (.pointee c)
  · rw [if_neg accepted]
    exact .inl rfl

theorem after_field (p : Pointer) (t : StructTy) (name : String) :
    (field p t name).after v st = st ∨ Stored v st ((field p t name).after v st) := by
  simp only [after, write, Pointer.modifyFields]
  rw [get_bind]
  cases loaded : p.load st with
  | error e => exact .inl rfl
  | ok w =>
    rw [bind_ok (show (liftM (Except.ok w : Except HostError _) : HostM Value) st = .ok w st
      from rfl)]
    cases w with
    | struct t' vs =>
      obtain ⟨c, cell⟩ : ∃ c, p.cell = some c := by
        cases cell : p.cell with
        | none => simp [Pointer.load, cell] at loaded
        | some c => exact ⟨c, rfl⟩
      dsimp only
      cases changed : t'.set vs name v with
      | error e => exact .inl rfl
      | ok ws =>
        rw [bind_ok (show (liftM (Except.ok ws : Except HostError _) : HostM _) st = .ok ws st
          from rfl), Pointer.write_of_cell cell]
        obtain ⟨i, rfl⟩ := eq_set_of_set changed
        exact .inr (.field i cell loaded)
    | _ => exact .inl rfl

theorem after_queue (c : Chan) :
    (queue c).after v st = st ∨ Stored v st ((queue c).after v st) := by
  simp only [after, write, Chan.send]
  cases may : c.maySend v with
  | error e => exact .inl rfl
  | ok _ =>
    rw [bind_ok (show (liftM (Except.ok () : Except HostError _) : HostM Unit) st = .ok () st
      from rfl), get_bind]
    rcases room : (c.channel st).enqueue v with ⟨_ | ⟨_ | ticket⟩, ch⟩
    · exact .inl rfl
    · exact .inl rfl
    · have written : c.write ch st = .ok () { st with channels := st.channels.set c.id ch } := rfl
      have stored := Stored.queue c ch (queue_of_enqueue room)
      dsimp only
      rw [bind_ok written]
      rcases settled : ch.settle ticket with _ | ⟨_ | _⟩ <;> exact .inr stored

theorem after_cases (l : Location) (v : Value) (st : Store) :
    l.after v st = st ∨ Stored v st (l.after v st) := by
  cases l with
  | element m key => exact after_element m key
  | item w i => exact after_item w i
  | pointee p => exact after_pointee p
  | field p t name => exact after_field p t name
  | queue c => exact after_queue c

theorem entries_written (m m' : Map) (es : List Entry) (st : Store) :
    m.id = m'.id ∧ m.entries { st with maps := st.maps.set m'.id es } = es ∨
      m.entries { st with maps := st.maps.set m'.id es } = m.entries st := Heap.getD_set ..

theorem items_written (w w' : Slice) (items : Array Value) (st : Store) :
    w.backing = w'.backing ∧
        w.items { st with backings := st.backings.set w'.backing items } = items ∨
      w.items { st with backings := st.backings.set w'.backing items } = w.items st :=
  Heap.getD_set ..

theorem channel_written (c c' : Chan) (ch : Channel Value) (st : Store) :
    c.id = c'.id ∧ c.channel { st with channels := st.channels.set c'.id ch } = ch ∨
      c.channel { st with channels := st.channels.set c'.id ch } = c.channel st := Heap.getD_set ..

theorem load_written (p : Pointer) (i : Nat) (v : Value) (st : Store) :
    p.cell = some i ∧ p.load { st with cells := st.cells.set i v } = .ok v ∨
      p.load { st with cells := st.cells.set i v } = p.load st := by
  simp only [Pointer.load]
  cases p.cell with
  | none => exact .inr rfl
  | some j =>
    rcases st.cells.getD_set i j v .nil with ⟨rfl, new⟩ | old
    · exact .inl ⟨rfl, congrArg Except.ok new⟩
    · exact .inr (congrArg Except.ok old)

theorem holds_of_stored {c : Chan} (stored : Stored v st st') (h : l.Holds st' (.chan c)) :
    l.Holds st (.chan c) ∨ v.Carries c := by
  -- a place of another sort is not touched, and one of the same sort may be the same storage
  cases stored with
  | element m' k' key' =>
    cases l with
    | element m key =>
      simp only [Holds, Map.find] at h ⊢
      cases keyed : m.keyOf key with
      | error e =>
        rw [keyed] at h
        cases h
      | ok k =>
        simp only [keyed, Except.map, Except.ok.injEq] at h ⊢
        rcases entries_written m m' (Entry.put ⟨k', key', v⟩ (m'.entries st)) st with
          ⟨same, new⟩ | old
        · rw [new, Entry.lookup_put] at h
          split at h
          · cases h
            exact .inr .here
          · rw [Map.entries, same]
            exact .inl h
        · rw [old] at h
          exact .inl h
    | _ => exact .inl h
  | item w' j =>
    cases l with
    | item w i =>
      simp only [Holds, Slice.get?] at h ⊢
      split at h
      · rename_i shown
        rw [if_pos shown]
        rcases items_written w w' ((w'.items st).setIfInBounds j v) st with ⟨same, new⟩ | old
        · rw [new, Array.getElem?_setIfInBounds] at h
          split at h
          · split at h
            · cases h
              exact .inr .here
            · cases h
          · rw [Slice.items, same]
            exact .inl h
        · rw [old] at h
          exact .inl h
      · cases h
    | _ => exact .inl h
  | pointee i =>
    cases l with
    | pointee p =>
      rcases load_written p i v st with ⟨-, new⟩ | old
      · cases new.symm.trans h
        exact .inr .here
      · exact .inl (old.symm.trans h)
    | field p t name =>
      obtain ⟨us, loaded, got⟩ := h
      rcases load_written p i v st with ⟨-, new⟩ | old
      · cases new.symm.trans loaded
        exact .inr (.field (mem_of_get? got))
      · exact .inl ⟨us, old.symm.trans loaded, got⟩
    | _ => exact .inl h
  | @field q i t' vs j cell loaded =>
    cases l with
    | pointee p =>
      rcases load_written p i (.struct t' (vs.set j v)) st with ⟨-, new⟩ | old
      · cases new.symm.trans h
      · exact .inl (old.symm.trans h)
    | field p t name =>
      obtain ⟨us, loaded', got⟩ := h
      rcases load_written p i (.struct t' (vs.set j v)) st with ⟨here, new⟩ | old
      · cases new.symm.trans loaded'
        obtain ⟨⟨k, f⟩, declared, got⟩ := Option.bind_eq_some_iff.mp got
        dsimp only at got
        rw [List.getElem?_set] at got
        split at got
        · split at got
          · cases got
            exact .inr .here
          · cases got
        · refine .inl ⟨vs, ?_, Option.bind_eq_some_iff.mpr ⟨_, declared, got⟩⟩
          rw [← loaded, Pointer.load, Pointer.load, here, cell]
      · exact .inl ⟨us, old.symm.trans loaded', got⟩
    | _ => exact .inl h
  | queue c' ch queued =>
    cases l with
    | queue e =>
      rcases channel_written e c' ch st with ⟨same, new⟩ | old
      · rw [Holds, new, queued, List.mem_append, List.mem_singleton] at h
        rw [Holds, Chan.channel, same]
        refine h.imp_right ?_
        rintro rfl
        exact .here
      · rw [Holds, old] at h
        exact .inl h
    | _ => exact .inl h

theorem holds_of_append {w r : Slice} {vs : List Value} {c : Chan}
    (done : w.append vs st = .ok r st') (room : w.len + vs.length ≤ w.cap)
    (h : l.Holds st' (.chan c)) : l.Holds st (.chan c) ∨ .chan c ∈ vs := by
  obtain ⟨-, ⟨-, written, -⟩ | ⟨full, -⟩⟩ := Slice.append_cases done
  · simp only [Slice.write] at written
    rw [get_bind] at written
    split at written
    · rename_i inside
      cases written
      cases l with
      | item u i =>
        simp only [Holds, Slice.get?] at h ⊢
        split at h
        · rename_i shown
          rw [if_pos shown]
          rcases items_written u w _ st with ⟨same, new⟩ | old
          · rw [new, Slice.getElem?_written inside] at h
            split at h
            · exact .inr (List.mem_of_getElem? h)
            · rw [Slice.items, same]
              exact .inl h
          · rw [old] at h
            exact .inl h
        · cases h
      | _ => exact .inl h
    · cases written
  · exact absurd room (Nat.not_le_of_lt full)

/-- What may happen to a place: host code tries to store values there or elsewhere, or appends to a
slice in place, and anything else that puts no other channel there. The values are those that are
stored. -/
inductive History (l : Location) (st : Store) : List Value → Store → Prop
  | start : History l st [] st
  | store {vs : List Value} {st' : Store} (l' : Location) (v : Value) :
    History l st vs st' → History l st (v :: vs) (l'.after v st')
  | append {vs us : List Value} {w r : Slice} {st' st'' : Store} : History l st vs st' →
    w.append us st' = .ok r st'' → w.len + us.length ≤ w.cap → History l st (us ++ vs) st''
  | other {vs : List Value} {st' st'' : Store} : History l st vs st' →
    (∀ c, l.Holds st'' (.chan c) → l.Holds st' (.chan c)) → History l st vs st''

theorem History.holds {vs : List Value} {c : Chan} (history : l.History st vs st')
    (h : l.Holds st' (.chan c)) : l.Holds st (.chan c) ∨ ∃ v ∈ vs, v.Carries c := by
  induction history with
  | start => exact .inl h
  | @store vs st' l' v _ ih =>
    have before : l.Holds st' (.chan c) ∨ v.Carries c := by
      rcases after_cases l' v st' with same | stored
      · exact .inl (same ▸ h)
      · exact holds_of_stored stored h
    rcases before with before | carries
    · exact (ih before).imp_right fun ⟨u, member, carries⟩ => ⟨u, .tail _ member, carries⟩
    · exact .inr ⟨v, List.mem_cons_self, carries⟩
  | append _ done room ih =>
    rcases holds_of_append done room h with before | appended
    · exact (ih before).imp_right fun ⟨v, member, carries⟩ => ⟨v, by simp [member], carries⟩
    · exact .inr ⟨_, by simp [appended], .here⟩
  | other _ kept ih => exact ih (kept _ h)

end Location

end HostBridge
