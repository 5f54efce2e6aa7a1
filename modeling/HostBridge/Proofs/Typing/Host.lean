import HostBridge.Proofs.Typing.Storage

namespace HostBridge

variable {worker : Option Nat} {W : World}

theorem HostAction.run_safe {a : HostAction} (h : ∀ v ∈ a.operands, v.Typed W) :
    Safe worker W a.run fun W' vs => ∀ v ∈ vs, v.Typed W' := by
  cases a with
  | plain v =>
    apply Safe.pure
    rw [List.forall_mem_singleton]
    simp only [operands] at h
    split at h
    · rename_i plain
      exact Value.typed_of_isPlain plain
    · exact List.forall_mem_singleton.mp h
  | foreign n => exact Safe.one (Safe.lift (Box.make_keeps fun i => Value.typed_boxed_foreign))
  | reify t => exact Safe.one (Safe.lift (Box.make_keeps fun i => Value.typed_boxed_type))
  | zero t => exact Safe.one (Safe.lift ((Ty.zero_keeps W t).imp fun _ _ hv => hv.typed))
  | makeMap key elem => exact Safe.one (Safe.lift (Map.make_keeps.imp fun _ _ hm => hm.1))
  | fillMap key elem pairs =>
    simp only [operands, List.mem_append, List.mem_map] at h
    apply Safe.one
    apply Map.ofPairs_safe
    intro p hp
    exact ⟨h _ (.inl ⟨p, hp, rfl⟩), h _ (.inr ⟨p, hp, rfl⟩)⟩
  | insert m key value =>
    simp only [operands, List.mem_cons, forall_eq_or_imp] at h
    exact Safe.none (Map.insert_safe h.1 h.2.1 h.2.2.1)
  | remove m key =>
    simp only [operands, List.mem_cons, forall_eq_or_imp] at h
    apply (Map.remove_safe h.1).bind
    intro W' old _ hold
    exact Safe.pure (by simpa using hold)
  | find m key =>
    simp only [operands, List.mem_cons, forall_eq_or_imp] at h
    apply Safe.get_bind
    intro st ht
    apply Safe.except_bind
    intro found hfound
    apply Safe.pure
    simpa using Map.typed_of_find ht h.1 hfound
  | entries m =>
    have hm := List.forall_mem_singleton.mp h
    apply Safe.get_bind
    intro st ht
    apply Safe.get_bind
    intro st' ht'
    apply Safe.pure
    rw [List.forall_mem_append]
    simp only [List.forall_mem_map]
    exact ⟨fun e he => (Map.fits_entries ht hm e he).1.typed,
      fun e he => (Map.fits_entries ht' hm e he).2.typed⟩
  | makeSlice elem => exact Safe.one (Safe.lift Slice.make_keeps)
  | withCapacity elem len cap => exact Safe.one (Safe.lift Slice.withCapacity_keeps)
  | ofList elem items => exact Safe.one (Slice.ofList_safe h)
  | item w i =>
    have hw := List.forall_mem_singleton.mp h
    apply Safe.get_bind
    intro st ht
    apply Safe.pure
    intro v hv
    exact Slice.typed_of_get? ht hw (Option.mem_toList.mp hv)
  | setItem w i v =>
    simp only [operands, List.mem_cons, forall_eq_or_imp] at h
    exact Safe.none (Slice.set_safe h.1 h.2.1)
  | append w vs =>
    have h := List.forall_mem_cons.mp h
    exact Safe.one (Slice.append_safe h.1 h.2)
  | window w low high =>
    have hw := List.forall_mem_singleton.mp h
    exact Safe.one (Safe.except fun w' cut => Slice.typed_of_slice hw cut)
  | toList w =>
    have hw := List.forall_mem_singleton.mp h
    apply Safe.get_bind
    intro st ht
    apply Safe.pure
    intro v hv
    exact (Slice.fits_toList ht hw v hv).typed
  | makeStruct t vs => exact Safe.one (Safe.except fun v made => StructTy.typed_of_make made h)
  | fields t vs => exact Safe.pure (Value.typed_struct.mp (List.forall_mem_singleton.mp h)).2
  | setField t vs name v =>
    simp only [operands, List.mem_cons, forall_eq_or_imp] at h
    exact Safe.one (Safe.except fun vs' changed => StructTy.typed_of_set changed h.1 h.2.1)
  | setFieldAt t vs i v =>
    simp only [operands, List.mem_cons, forall_eq_or_imp] at h
    exact Safe.one (Safe.except fun vs' changed => StructTy.typed_of_setAt changed h.1 h.2.1)
  | makePointer v =>
    have hv := List.forall_mem_singleton.mp h
    exact Safe.one (Safe.lift (Pointer.make_keeps hv))
  | nilPointer t => exact Safe.pure (by simp)
  | load p =>
    have hp := List.forall_mem_singleton.mp h
    apply Safe.get_bind
    intro st ht
    exact Safe.one (Safe.except fun v loaded => (Pointer.fits_of_load ht hp loaded).typed)
  | store p v =>
    simp only [operands, List.mem_cons, forall_eq_or_imp] at h
    exact Safe.none (Pointer.store_safe h.1 h.2.1)
  | changeField p name v =>
    simp only [operands, List.mem_cons, forall_eq_or_imp] at h
    apply Safe.none
    apply Pointer.modifyFields_safe h.1
    intro t vs vs' changed fits
    exact StructTy.typed_of_set changed fits h.2.1
  | makeChan elem capacity => exact Safe.one (Safe.lift Chan.make_keeps)
  | restrict c direction =>
    have hc := List.forall_mem_singleton.mp h
    exact Safe.pure (List.forall_mem_singleton.mpr (Chan.typed_restrict hc direction))
  | send c v =>
    simp only [operands, List.mem_cons, forall_eq_or_imp] at h
    exact Safe.none (Chan.send_safe (Chan.declared h.1) h.2.1)
  | receive c =>
    have hc := List.forall_mem_singleton.mp h
    apply (Chan.receive_safe (Chan.declared hc)).bind
    intro W' r _ hr
    exact Safe.pure (by simpa using hr)
  | close c =>
    have hc := List.forall_mem_singleton.mp h
    exact Safe.none (Chan.close_safe (Chan.declared hc))

theorem HostRun.typed (worker : Option Nat) {st st' : Store} {held held' : List Value}
    (run : HostRun st held st' held') (ht : Store.Typed W st) (hheld : ∀ v ∈ held, v.Typed W) :
    ∃ W', W.Extends worker W' ∧ Store.Typed W' st' ∧ ∀ v ∈ held', v.Typed W' := by
  induction run with
  | start => exact ⟨W, .refl W, ht, hheld⟩
  | done _ operands eq ih =>
    obtain ⟨W', le, ht', hheld'⟩ := ih
    have safe : Safe worker W' _ _ := HostAction.run_safe fun v hv => hheld' v (operands hv)
    replace safe := safe _ ht'
    rw [eq] at safe
    obtain ⟨W'', le', ht'', hvs⟩ := safe
    refine ⟨W'', le.trans le', ht'', fun v hv => ?_⟩
    rcases List.mem_append.mp hv with old | new
    · exact (hheld' v old).mono le'.below
    · exact hvs v new
  | stopped _ operands eq ih =>
    obtain ⟨W', le, ht', hheld'⟩ := ih
    have safe : Safe worker W' _ _ := HostAction.run_safe fun v hv => hheld' v (operands hv)
    replace safe := safe _ ht'
    rw [eq] at safe
    obtain ⟨W'', le', ht''⟩ := safe
    exact ⟨W'', le.trans le', ht'', fun v hv => (hheld' v hv).mono le'.below⟩

theorem Body.Checked.safe {captured : List Value} {b : Body} (checked : b.Checked captured)
    (hcaptured : ∀ v ∈ captured, v.Typed W) {args : List Value} (hargs : ∀ v ∈ args, v.Typed W) :
    Safe worker W (b args) fun W' vs => ∀ v ∈ vs, v.Typed W' := by
  intro st ht
  have start : ∀ v ∈ captured ++ args, v.Typed W := by
    simp only [List.mem_append]
    rintro v (old | new)
    · exact hcaptured v old
    · exact hargs v new
  have run := checked args st
  split at run
  · rename_i eq
    rw [eq]
    obtain ⟨held, run, sub⟩ := run
    obtain ⟨W', le, ht', hheld⟩ := run.typed worker ht start
    exact ⟨W', le, ht', fun v hv => hheld v (sub hv)⟩
  · rename_i eq
    rw [eq]
    obtain ⟨held, run⟩ := run
    obtain ⟨W', le, ht', _⟩ := run.typed worker ht start
    exact ⟨W', le, ht'⟩

def Host.Typed (W : World) (host : Host) : Prop :=
  ∀ n, ∃ captured, (∀ v ∈ captured, v.Typed W) ∧ (host n).Checked captured

theorem Host.Typed.mono {W' : World} (le : W.Below W') {host : Host} (h : Host.Typed W host) :
    Host.Typed W' host := by
  intro n
  obtain ⟨captured, hcaptured, checked⟩ := h n
  exact ⟨captured, fun v hv => (hcaptured v hv).mono le, checked⟩

theorem Function.call_safe {host : Host} (hhost : Host.Typed W host) {f : Function}
    {args : List Value} (hargs : ∀ v ∈ args, v.Typed W) :
    Safe worker W (f.call host args) fun W' vs => ∀ v ∈ vs, v.Typed W' := by
  apply Safe.except_bind
  intro _ _
  obtain ⟨captured, hcaptured, checked⟩ := hhost f.body
  exact checked.safe hcaptured hargs

end HostBridge
