import HostBridge.Proofs.Typing.Allocation

namespace HostBridge

variable {worker : Option Nat} {W : World}

namespace Entry

theorem forall_put {P : Entry → Prop} {e : Entry} {es : List Entry} (he : P e)
    (hes : ∀ x ∈ es, P x) : ∀ x ∈ put e es, P x := by
  induction es with
  | nil => simpa [put] using he
  | cons x xs ih =>
    rw [List.forall_mem_cons] at hes
    simp only [put]
    split
    · simpa [he] using hes.2
    · simpa [hes.1] using ih hes.2

theorem exists_of_lookup {k : Key} {es : List Entry} {v : Value} (h : lookup k es = some v) :
    ∃ e ∈ es, e.value = v := by
  simp only [lookup] at h
  rw [Option.map_eq_some_iff] at h
  obtain ⟨e, he, hv⟩ := h
  exact ⟨e, List.mem_of_find?_eq_some he, hv⟩

end Entry

namespace Map

theorem accepts_of_keyOf {m : Map} {v : Value} {k : Key} (h : m.keyOf v = .ok k) :
    m.key.accepts v = true := by
  simp only [keyOf] at h
  split at h
  · assumption
  · cases h

theorem make_keeps {key elem : Ty} :
    Keeps worker W (make key elem) fun W' m => (Value.map m).Typed W' ∧ m.key = key ∧
      m.elem = elem := by
  apply (Store.newMap_keeps key elem (by simp)).bind
  intro W' i _ hi
  exact Keeps.pure ⟨by simp [hi], rfl, rfl⟩

variable {m : Map}

theorem fits_entries {st : Store} (ht : Store.Typed W st) (hm : (Value.map m).Typed W) :
    ∀ e ∈ m.entries st, e.key.Fits W m.key ∧ e.value.Fits W m.elem := by
  obtain ⟨es, hes, fits⟩ := ht.maps.get (Value.typed_map.mp hm)
  simpa [entries, hes] using fits

theorem write_safe {es : List Entry} (hm : (Value.map m).Typed W)
    (h : ∀ e ∈ es, e.key.Fits W m.key ∧ e.value.Fits W m.elem) :
    Safe worker W (m.write es) fun _ _ => True := by
  apply Safe.modify
  intro st ht
  exact { ht with maps := ht.maps.set (Value.typed_map.mp hm) h }

theorem insert_safe {key value : Value} (hm : (Value.map m).Typed W) (hk : key.Typed W)
    (hv : value.Typed W) : Safe worker W (m.insert key value) fun _ _ => True := by
  apply Safe.except_bind
  intro k keyed
  apply Safe.check_bind
  intro accepted
  apply Safe.get_bind
  intro st ht
  apply write_safe hm
  exact Entry.forall_put ⟨⟨accepts_of_keyOf keyed, hk⟩, accepted, hv⟩ (fits_entries ht hm)

theorem remove_safe {key : Value} (hm : (Value.map m).Typed W) :
    Safe worker W (m.remove key) fun W' old => ∀ v ∈ old, v.Typed W' := by
  apply Safe.except_bind
  intro k _
  apply Safe.get_bind
  intro st ht
  have fits := fits_entries ht hm
  have write : Safe worker W (m.write (Entry.erase k (m.entries st))) fun _ _ => True :=
    write_safe hm fun e he => fits e (List.mem_of_mem_eraseP he)
  apply write.bind
  intro W' _ le _
  apply Safe.pure
  intro v hv
  obtain ⟨e, he, rfl⟩ := Entry.exists_of_lookup hv
  exact (fits e he).2.typed.mono le.below

theorem typed_of_find {st : Store} (ht : Store.Typed W st) (hm : (Value.map m).Typed W)
    {key : Value} {found : Option Value} (h : m.find st key = .ok found) :
    ∀ v ∈ found, v.Typed W := by
  simp only [find] at h
  cases hk : m.keyOf key with
  | error e => simp [hk, Except.map] at h
  | ok k =>
    simp only [hk, Except.map, Except.ok.injEq] at h
    intro v hv
    rw [← h] at hv
    obtain ⟨e, he, rfl⟩ := Entry.exists_of_lookup hv
    exact (fits_entries ht hm e he).2.typed

theorem insertAll_safe {pairs : List (Value × Value)} (hm : (Value.map m).Typed W)
    (h : ∀ p ∈ pairs, p.1.Typed W ∧ p.2.Typed W) :
    Safe worker W (m.insertAll pairs) fun _ _ => True := by
  induction pairs generalizing W with
  | nil => exact Safe.pure trivial
  | cons p rest ih =>
    rw [List.forall_mem_cons] at h
    apply (insert_safe hm h.1.1 h.1.2).bind
    intro W' _ le _
    apply ih (hm.mono le.below)
    exact fun q hq => ⟨(h.2 q hq).1.mono le.below, (h.2 q hq).2.mono le.below⟩

theorem ofPairs_safe {key elem : Ty} {pairs : List (Value × Value)}
    (h : ∀ p ∈ pairs, p.1.Typed W ∧ p.2.Typed W) :
    Safe worker W (ofPairs key elem pairs) fun W' m => (Value.map m).Typed W' := by
  apply Safe.lift_bind make_keeps
  intro W' m le hm
  have filled : Safe worker W' (m.insertAll pairs) fun _ _ => True :=
    insertAll_safe hm.1 fun p hp => ⟨(h p hp).1.mono le.below, (h p hp).2.mono le.below⟩
  exact filled.bind fun W'' _ le' _ => Safe.pure (hm.1.mono le'.below)

end Map

namespace Slice

theorem make_keeps {elem : Ty} :
    Keeps worker W (make elem) fun W' w => (Value.slice w).Typed W' := by
  apply (Store.newBacking_keeps elem (by simp)).bind
  intro W' i _ hi
  exact Keeps.pure (by simp [hi])

theorem withCapacity_keeps {elem : Ty} {len cap : Nat} :
    Keeps worker W (withCapacity elem len cap) fun W' w => (Value.slice w).Typed W' := by
  apply (Ty.zeros_keeps elem (max cap len) W).bind
  intro W' items _ hitems
  have fits : ∀ v ∈ items.toArray, v.Fits W' elem := by simpa using hitems.2
  apply (Store.newBacking_keeps elem fits).bind
  intro W'' i _ hi
  apply Keeps.pure
  simp only [Value.typed_slice]
  exact ⟨_, hi, by simp [hitems.1], by omega⟩

theorem checkAll_safe {elem : Ty} {vs : List Value} :
    Safe worker W (checkAll elem vs) fun _ _ => ∀ v ∈ vs, elem.accepts v = true := by
  induction vs with
  | nil => exact Safe.pure (by simp)
  | cons v vs ih =>
    apply Safe.check_bind
    intro accepted
    apply ih.imp
    intro W' _ h
    rw [List.forall_mem_cons]
    exact ⟨accepted, h⟩

theorem ofList_safe {elem : Ty} {items : List Value} (h : ∀ v ∈ items, v.Typed W) :
    Safe worker W (ofList elem items) fun W' w => (Value.slice w).Typed W' := by
  apply checkAll_safe.bind
  intro W' _ le accepted
  have fits : ∀ v ∈ items.toArray, v.Fits W' elem := by
    simp only [List.mem_toArray]
    exact fun v hv => ⟨accepted v hv, (h v hv).mono le.below⟩
  apply Safe.lift_bind (Store.newBacking_keeps elem fits)
  intro W'' i _ hi
  apply Safe.pure
  exact Value.typed_slice.mpr ⟨_, hi, by simp, Nat.le_refl _⟩

variable {w : Slice}

theorem mem_of_mem_extract {items : Array Value} {low high : Nat} {v : Value}
    (h : v ∈ items.extract low high) : v ∈ items := by
  rw [Array.mem_extract_iff_getElem] at h
  obtain ⟨i, _, rfl⟩ := h
  exact Array.getElem_mem _

theorem fits_items {st : Store} (ht : Store.Typed W st) {n : Nat}
    (hn : W.backings[w.backing]? = some (.declared (w.elem, n))) :
    (w.items st).size = n ∧ ∀ v ∈ w.items st, v.Fits W w.elem := by
  obtain ⟨items, hitems, fits⟩ := ht.backings.get hn
  simpa [Slice.items, hitems] using fits

theorem fits_toList {st : Store} (ht : Store.Typed W st) (hw : (Value.slice w).Typed W) :
    ∀ v ∈ w.toList st, v.Fits W w.elem := by
  obtain ⟨n, hn, _⟩ := Value.typed_slice.mp hw
  intro v hv
  exact (fits_items ht hn).2 v (mem_of_mem_extract (Array.mem_toList_iff.mp hv))

theorem length_toList {st : Store} (ht : Store.Typed W st) (hw : (Value.slice w).Typed W) :
    (w.toList st).length = w.len := by
  obtain ⟨n, hn, bounds⟩ := Value.typed_slice.mp hw
  have size := (fits_items ht hn).1
  simp only [toList, Array.length_toList, Array.size_extract, size]
  omega

theorem typed_of_get? {st : Store} (ht : Store.Typed W st) (hw : (Value.slice w).Typed W) {i : Nat}
    {v : Value} (h : w.get? st i = some v) : v.Typed W := by
  obtain ⟨n, hn, _⟩ := Value.typed_slice.mp hw
  simp only [get?] at h
  split at h
  · exact ((fits_items ht hn).2 v (Array.mem_of_getElem? h)).typed
  · cases h

theorem write_safe {slot : Nat} {vs : List Value} (hw : (Value.slice w).Typed W)
    (h : ∀ v ∈ vs, v.Fits W w.elem) : Safe worker W (w.write slot vs) fun _ _ => True := by
  obtain ⟨n, hn, _⟩ := Value.typed_slice.mp hw
  apply Safe.get_bind
  intro st ht
  obtain ⟨size, fits⟩ := fits_items ht hn
  dsimp only
  split
  · rename_i room
    apply Safe.modify
    intro st' ht'
    refine { ht' with backings := ht'.backings.set hn ⟨by simp; omega, ?_⟩ }
    -- a slot of the new backing is an old slot or a written one
    simp only [Array.mem_append, List.mem_toArray]
    rintro v ((old | new) | old)
    · exact fits v (mem_of_mem_extract old)
    · exact h v new
    · exact fits v (mem_of_mem_extract old)
  · exact Safe.throw

theorem set_safe {i : Nat} {v : Value} (hw : (Value.slice w).Typed W) (hv : v.Typed W) :
    Safe worker W (w.set i v) fun _ _ => True := by
  simp only [set]
  split
  · apply Safe.check_bind
    intro accepted
    apply write_safe hw
    simpa using ⟨accepted, hv⟩
  · exact Safe.bind_of_false Safe.fail

theorem le_of_growStep {needed fuel cap grown : Nat} (h : growStep needed fuel cap = some grown) :
    needed ≤ grown := by
  induction fuel generalizing cap with
  | zero => cases h
  | succ fuel ih =>
    simp only [growStep] at h
    split at h
    · cases h
      assumption
    · exact ih h

theorem le_of_growCapacity {old needed cap : Nat} (h : growCapacity old needed = some cap) :
    needed ≤ cap := by
  unfold growCapacity at h
  dsimp only at h
  split at h
  · cases h
    exact Nat.le_refl _
  · split at h
    · cases h
      omega
    · exact le_of_growStep h

theorem append_safe {vs : List Value} (hw : (Value.slice w).Typed W) (h : ∀ v ∈ vs, v.Typed W) :
    Safe worker W (w.append vs) fun W' w' => (Value.slice w').Typed W' := by
  apply checkAll_safe.bind
  intro W' _ le accepted
  have hw' := hw.mono le.below
  have fits : ∀ v ∈ vs, v.Fits W' w.elem := fun v hv => ⟨accepted v hv, (h v hv).mono le.below⟩
  dsimp only
  split
  · have written : Safe worker W' (w.write (w.offset + w.len) vs) fun _ _ => True :=
      write_safe hw' fits
    apply written.bind
    intro W'' _ le' _
    apply Safe.pure
    obtain ⟨n, hn, bounds⟩ := Value.typed_slice.mp (hw'.mono le'.below)
    exact Value.typed_slice.mpr ⟨n, hn, bounds.1, by assumption⟩
  · split
    · exact Safe.throw
    · rename_i cap grown
      have enough := le_of_growCapacity grown
      apply Safe.lift_bind (Ty.zeros_keeps w.elem _ W')
      intro W'' spare le' hspare
      apply Safe.get_bind
      intro st ht
      have hw'' := hw'.mono le'.below
      have moved : ∀ v ∈ (w.toList st ++ vs ++ spare).toArray, v.Fits W'' w.elem := by
        simp only [List.mem_toArray, List.mem_append]
        rintro v ((old | new) | zero)
        · exact fits_toList ht hw'' v old
        · exact (fits v new).mono le'.below
        · exact hspare.2 v zero
      apply Safe.lift_bind (Store.newBacking_keeps w.elem moved)
      intro V i _ hi
      apply Safe.pure
      refine Value.typed_slice.mpr ⟨_, hi, ?_, enough⟩
      simp [length_toList ht hw'', hspare.1]
      omega

theorem typed_of_slice {low high : Nat} {w' : Slice} (hw : (Value.slice w).Typed W)
    (h : w.slice low high = .ok w') : (Value.slice w').Typed W := by
  obtain ⟨n, hn, bounds⟩ := Value.typed_slice.mp hw
  simp only [slice] at h
  split at h
  · cases h
    exact Value.typed_slice.mpr ⟨n, hn, by dsimp only; omega, by dsimp only; omega⟩
  · cases h

end Slice

theorem Field.accept_of_checkAll {fs : List Field} {vs : List Value}
    (length : vs.length = fs.length) (h : Field.checkAll fs vs = .ok ()) : Field.Accept fs vs := by
  induction fs generalizing vs with
  | nil =>
    cases vs with
    | nil => exact accept_nil
    | cons v vs => cases length
  | cons f fs ih =>
    cases vs with
    | nil => cases length
    | cons v vs =>
      simp only [Field.checkAll] at h
      split at h
      · rename_i accepted
        exact accept_cons accepted (ih (Nat.succ.inj length) h)
      · cases h

namespace StructTy

variable {t : StructTy} {vs vs' : List Value} {v : Value}

theorem typed_of_make (h : t.make vs = .ok v) (hvs : ∀ v ∈ vs, v.Typed W) : v.Typed W := by
  simp only [make] at h
  split at h
  · rename_i length
    cases hc : Field.checkAll t.fields vs with
    | error e =>
      rw [hc] at h
      cases h
    | ok _ =>
      rw [hc] at h
      cases h
      exact Value.typed_struct.mpr ⟨Field.accept_of_checkAll length hc, hvs⟩
  · cases h

theorem typed_of_setAt {i : Nat} (h : t.setAt vs i v = .ok vs') (hvs : (Value.struct t vs).Typed W)
    (hv : v.Typed W) : (Value.struct t vs').Typed W := by
  rw [Value.typed_struct] at hvs ⊢
  simp only [setAt] at h
  split at h
  · cases h
  · rename_i f hf
    split at h
    · rename_i accepted
      cases h
      refine ⟨⟨by simp [hvs.1.1], fun j g u hg hu => ?_⟩, fun u hu => ?_⟩
      · rw [List.getElem?_set] at hu
        split at hu
        · rename_i eq
          subst eq
          rw [hf] at hg
          cases hg
          split at hu
          · cases hu
            exact accepted
          · cases hu
        · exact hvs.1.2 j g u hg hu
      · rcases List.mem_or_eq_of_mem_set hu with old | rfl
        · exact hvs.2 u old
        · exact hv
    · cases h

theorem typed_of_set {name : String} (h : t.set vs name v = .ok vs')
    (hvs : (Value.struct t vs).Typed W) (hv : v.Typed W) : (Value.struct t vs').Typed W := by
  simp only [set] at h
  split at h
  · cases h
  · exact typed_of_setAt h hvs hv

end StructTy

namespace Pointer

theorem withType_keeps {elem : Ty} {v : Value} (h : v.Fits W elem) :
    Keeps worker W (withType elem v) fun W' p => (Value.ptr p).Typed W' := by
  apply (Store.newCell_keeps elem h).bind
  intro W' i _ hi
  apply Keeps.pure
  simpa using hi

theorem make_keeps {v : Value} (h : v.Typed W) :
    Keeps worker W (make v) fun W' p => (Value.ptr p).Typed W' :=
  withType_keeps ⟨v.accepts_type, h⟩

variable {p : Pointer}

theorem load_eq {st : Store} (ht : Store.Typed W st) (hp : (Value.ptr p).Typed W) {v : Value}
    (h : p.load st = .ok v) : ∃ c, p.cell = some c ∧ st.cells.get? c = some v := by
  simp only [load] at h
  split at h
  · rename_i c hc
    cases h
    obtain ⟨u, hu, _⟩ := ht.cells.get (Value.typed_ptr.mp hp c hc)
    exact ⟨c, hc, by simp [hu]⟩
  · cases h

theorem fits_of_load {st : Store} (ht : Store.Typed W st) (hp : (Value.ptr p).Typed W) {v : Value}
    (h : p.load st = .ok v) : v.Fits W p.elem := by
  obtain ⟨c, hc, held⟩ := load_eq ht hp h
  obtain ⟨u, hu, fits⟩ := ht.cells.get (Value.typed_ptr.mp hp c hc)
  cases held.symm.trans hu
  exact fits

theorem write_safe {v : Value} (hp : (Value.ptr p).Typed W) (h : v.Fits W p.elem) :
    Safe worker W (p.write v) fun _ _ => True := by
  simp only [write]
  split
  · rename_i i hi
    apply Safe.modify
    intro st ht
    exact { ht with cells := ht.cells.set (Value.typed_ptr.mp hp i hi) h }
  · exact Safe.fail

theorem store_safe {v : Value} (hp : (Value.ptr p).Typed W) (h : v.Typed W) :
    Safe worker W (p.store v) fun _ _ => True :=
  Safe.check_bind fun accepted => write_safe hp ⟨accepted, h⟩

theorem accepts_fields {t : Ty} {u : StructTy} {vs : List Value} (vs' : List Value)
    (h : t.accepts (.struct u vs) = true) : t.accepts (.struct u vs') = true := by
  cases t <;> exact h

theorem modifyFields_safe {wanted : String}
    {change : StructTy → List Value → Except HostError (List Value)}
    (hp : (Value.ptr p).Typed W)
    (hchange : ∀ {t vs vs'}, change t vs = .ok vs' → (Value.struct t vs).Typed W →
      (Value.struct t vs').Typed W) :
    Safe worker W (p.modifyFields wanted change) fun _ _ => True := by
  apply Safe.get_bind
  intro st ht
  apply Safe.except_bind
  intro v loaded
  have fits := fits_of_load ht hp loaded
  split
  · apply Safe.except_bind
    intro vs' changed
    apply write_safe hp
    exact ⟨accepts_fields vs' fits.accepts, hchange changed fits.typed⟩
  · exact Safe.fail

end Pointer

namespace Chan

theorem make_keeps {elem : Ty} {capacity : Nat} :
    Keeps worker W (make elem capacity) fun W' c => (Value.chan c).Typed W' := by
  apply (Store.newChannel_keeps elem (by simp)).bind
  intro W' i _ hi
  exact Keeps.pure (Value.typed_chan.mpr ⟨none, hi, by simp⟩)

variable {c : Chan}

theorem typed_restrict (hc : (Value.chan c).Typed W) (d : Direction) :
    (Value.chan (c.restrict d)).Typed W := by
  obtain ⟨view, made, held⟩ := Value.typed_chan.mp hc
  refine Value.typed_chan.mpr ⟨view, made, fun ds hds => ?_⟩
  obtain ⟨single, given⟩ := held ds hds
  have ne : c.direction ≠ .both := fun both => single (both ▸ given)
  rw [Chan.restrict, if_neg ne]
  exact ⟨single, given⟩

def Declared (W : World) (c : Chan) : Prop :=
  ∃ view, W.channels[c.id]? = some (.declared (c.elem, view))

theorem declared (hc : (Value.chan c).Typed W) : c.Declared W := by
  obtain ⟨view, made, -⟩ := Value.typed_chan.mp hc
  exact ⟨view, made⟩

theorem fits_queue {st : Store} (ht : Store.Typed W st) (hc : c.Declared W) :
    ∀ v ∈ (c.channel st).queue, v.Fits W c.elem := by
  obtain ⟨view, made⟩ := hc
  obtain ⟨ch, hch, fits⟩ := ht.channels.get made
  simpa [channel, hch] using fits

theorem write_safe {ch : Channel Value} (hc : c.Declared W)
    (h : ∀ v ∈ ch.queue, v.Fits W c.elem) : Safe worker W (c.write ch) fun _ _ => True := by
  apply Safe.modify
  intro st ht
  obtain ⟨view, made⟩ := hc
  exact { ht with channels := ht.channels.set made h }

theorem accepts_of_maySend {v : Value} (h : c.maySend v = .ok ()) : c.elem.accepts v = true := by
  simp only [maySend] at h
  split at h
  · cases h
  · split at h
    · cases h
    · rename_i accepted
      simpa using accepted

theorem send_safe {v : Value} (hc : c.Declared W) (hv : v.Typed W) :
    Safe worker W (c.send v) fun _ _ => True := by
  apply Safe.except_bind
  intro _ may
  apply Safe.get_bind
  intro st ht
  have fits := fits_queue ht hc
  split
  · exact Safe.throw
  · exact Safe.fail
  · rename_i ticket ch entered
    have written : Safe worker W (c.write ch) fun _ _ => True := by
      apply write_safe hc
      simp only [Channel.enqueue] at entered
      split at entered
      · cases entered
      · split at entered
        · cases entered
          simp only [List.mem_append, List.mem_singleton]
          rintro u (old | rfl)
          · exact fits u old
          · exact ⟨accepts_of_maySend may, hv⟩
        · cases entered
    apply written.bind
    intro W' _ _ _
    split
    · exact Safe.throw
    · exact Safe.fail
    · exact Safe.pure trivial

theorem receive_safe (hc : c.Declared W) :
    Safe worker W c.receive fun W' r => ∀ v ∈ r, v.Typed W' := by
  apply Safe.except_bind
  intro _ _
  apply Safe.get_bind
  intro st ht
  have fits := fits_queue ht hc
  split
  · exact Safe.throw
  · rename_i r ch taken
    simp only [Channel.dequeue] at taken
    split at taken
    · rename_i v rest queue
      cases taken
      simp only [queue, List.mem_cons, forall_eq_or_imp] at fits
      have written : Safe worker W (c.write { c.channel st with
          queue := rest, taken := (c.channel st).taken + 1 }) fun _ _ => True :=
        write_safe hc fits.2
      apply written.bind
      intro W' _ le _
      apply Safe.pure
      simpa using fits.1.typed.mono le.below
    · split at taken
      · cases taken
        have written : Safe worker W (c.write (c.channel st)) fun _ _ => True :=
          write_safe hc fits
        exact written.bind fun W' _ _ _ => Safe.pure (by simp)
      · cases taken

theorem close_safe (hc : c.Declared W) : Safe worker W c.close fun _ _ => True := by
  apply Safe.except_bind
  intro _ _
  apply Safe.get_bind
  intro st ht
  have fits := fits_queue ht hc
  split
  · exact Safe.fail
  · rename_i ch closed
    apply write_safe hc
    simp only [Channel.close] at closed
    split at closed
    · cases closed
    · cases closed
      dsimp only
      split
      · simp
      · exact fits

end Chan

end HostBridge
