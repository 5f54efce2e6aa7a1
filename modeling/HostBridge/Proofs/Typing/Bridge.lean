import HostBridge.Proofs.Typing.State

namespace HostBridge

variable {worker : Option Nat} {W : World} {s : Nat}

namespace Handle

theorem name_keeps {h : Handle} (made : h.MadeBy (W.named h) s) (free : W.handles h.id = none)
    (hp : h.payload.Typed W) :
    Keeps (some s) W (pure (Script.handle h)) fun W' x =>
      x = .handle h ∧ h.MadeBy W' s ∧ h.payload.Typed W' := by
  intro st ht
  have hid : h.id < W.makers.length := (List.getElem?_eq_some_iff.mp made.maker).1
  obtain ⟨W', le, ht', -, rfl⟩ := Store.named_keeps free hid st ht
  exact ⟨_, le, ht', rfl, made, hp.mono le.below⟩

theorem make_made (hs : s < W.configs.length) {kind : HandleKind} {payload : Payload}
    (hkind : payload.kind? = some kind) (hp : payload.Typed W) :
    Safe (some s) W (make s kind payload) fun W' x =>
      ∃ h : Handle, x = .handle h ∧ h.payload = payload ∧ h.MadeBy W' s ∧ payload.Typed W' := by
  apply (State.operators_safe hs).bind
  intro W' set le hset
  apply Safe.lift_bind Store.freshId_keeps
  intro V id le' hid
  obtain ⟨-, maker, free⟩ := hid
  let h : Handle := ⟨id, payload, some ⟨set, kind⟩⟩
  have made : h.MadeBy (V.named h) s := {
    maker
    known := if_pos rfl
    table := by
      rintro _ ⟨⟩
      exact ⟨hkind, (hset.mono le'.below : V.Uses s set)⟩
    inert := by simp [h] }
  have named := name_keeps made free ((hp.mono le.below).mono le'.below)
  exact Safe.lift (named.imp fun _ _ ⟨eq, made, typed⟩ => ⟨h, eq, rfl, made, typed⟩)

theorem make_safe (hs : s < W.configs.length) {kind : HandleKind} {payload : Payload}
    (hkind : payload.kind? = some kind) (hp : payload.Typed W) :
    Safe (some s) W (make s kind payload) fun W' x => x.Typed W' := by
  apply (make_made hs hkind hp).imp
  rintro W' _ ⟨h, rfl, rfl, made, typed⟩
  exact Script.typed_handle.mpr ⟨⟨s, made⟩, typed⟩

theorem inert_keeps {v : Value} (hv : v.Typed W) {c : Config} (hc : W.configs[s]? = some c)
    (hp : (Payload.value v).IsInert c.unsupported) :
    Keeps (some s) W (inert v) fun W' x => x.Typed W' := by
  apply Store.freshId_keeps.bind
  intro W' id le hid
  obtain ⟨-, maker, free⟩ := hid
  let h : Handle := ⟨id, .value v, none⟩
  have made : h.MadeBy (W'.named h) s := {
    maker
    known := if_pos rfl
    table := by simp [h]
    inert := fun _ => ⟨c, getElem?_of_isPrefix le.below.configs hc, hp⟩ }
  refine (name_keeps made free (hv.mono le.below)).imp ?_
  rintro V _ ⟨rfl, made, typed⟩
  exact Script.typed_handle.mpr ⟨⟨s, made⟩, typed⟩

theorem constructor_safe (hs : s < W.configs.length) (t : Ty) :
    Safe (some s) W (Handle.constructor s t) fun W' x => x.Typed W' :=
  make_safe hs rfl trivial

end Handle

theorem Closure.make_keeps {name : String} {code : Code} (h : ∀ i ∈ code.parts, i.Typed W) :
    Keeps worker W (Closure.make name code) fun W' x => x.Typed W' := by
  apply Store.freshId_keeps.bind
  intro W' id le _
  apply Keeps.pure
  exact Script.typed_function.mpr fun i hi => (h i hi).mono le.below

theorem Closure.make_keeps_of_part {name : String} {code : Code} {i : Item}
    (parts : code.parts = [i]) (hi : i.Typed W) :
    Keeps worker W (Closure.make name code) fun W' x => x.Typed W' :=
  make_keeps (by simpa [parts] using hi)

namespace Value

theorem toScript_safe (hs : s < W.configs.length) {v : Value} (hv : v.Typed W) :
    Safe (some s) W (v.toScript s) fun W' x => x.Typed W' := by
  have hc : W.configs[s]? = some W.configs[s] := List.getElem?_eq_getElem hs
  match v with
  | .nil | .bool _ | .int .. | .uint .. | .float .. | .string _ =>
    simp only [toScript]
    exact Safe.pure (Script.typed_of_isPlain rfl)
  | .func f =>
    simp only [toScript]
    exact Safe.lift (Closure.make_keeps (by simp [Code.parts]))
  | .chan c | .map m | .slice w | .struct t vs | .ptr p =>
    simp only [toScript]
    exact Handle.make_safe hs rfl hv
  | .boxed ⟨_, .script x⟩ =>
    simp only [toScript]
    exact Safe.pure (typed_boxed_script.mp hv)
  | .boxed ⟨_, .type t⟩ =>
    simp only [toScript]
    exact Handle.constructor_safe hs t
  | .boxed ⟨i, .foreign n⟩ =>
    simp only [toScript]
    exact Safe.lift (Handle.inert_keeps hv hc trivial)
  | .address a =>
    simp only [toScript]
    exact Safe.lift (Handle.inert_keeps hv hc trivial)
  | .complex w x y =>
    simp only [toScript]
    apply Safe.get_bind
    intro st ht
    split
    · exact Safe.refuse
    · rename_i policy
      exact Safe.lift (Handle.inert_keeps hv (ht.config (ht.state hs)) policy)

theorem toScripts_safe (hs : s < W.configs.length) {vs : List Value} (h : ∀ v ∈ vs, v.Typed W) :
    Safe (some s) W (toScripts s vs) fun W' xs => ∀ x ∈ xs, x.Typed W' := by
  induction vs generalizing W with
  | nil => exact Safe.pure (by simp)
  | cons v vs ih =>
    rw [List.forall_mem_cons] at h
    apply (toScript_safe hs h.1).bind
    intro W' x le hx
    have rest := ih (le.below.state hs) fun u hu => (h.2 u hu).mono le.below
    apply rest.bind
    intro V xs le' hxs
    apply Safe.pure
    rw [List.forall_mem_cons]
    exact ⟨hx.mono le'.below, hxs⟩

end Value

theorem Ty.isPlain_of_ofNumber {hint : Ty} {n : Double} {v : Value}
    (h : hint.ofNumber n = .ok v) : v.isPlain = true := by
  simp only [ofNumber] at h
  split at h <;> cases h <;> rfl

namespace Script

theorem toHost_safe {hint : Ty} {x : Script} (hx : x.Typed W) :
    Safe worker W (x.toHost hint) fun W' v => v.Typed W' := by
  match x with
  | .nil =>
    simp only [toHost]
    exact Safe.lift ((Ty.zero_keeps W hint).imp fun _ _ hv => hv.typed)
  | .bool b =>
    simp only [toHost]
    split
    · exact Safe.pure (Value.typed_of_isPlain rfl)
    · exact Safe.pure (Value.typed_of_isPlain rfl)
    · exact Safe.refuse
  | .number n =>
    simp only [toHost]
    exact Safe.except fun v hv => Value.typed_of_isPlain (Ty.isPlain_of_ofNumber hv)
  | .string t =>
    simp only [toHost]
    split
    · exact Safe.pure (Value.typed_of_isPlain rfl)
    · exact Safe.pure (Value.typed_of_isPlain rfl)
    · exact Safe.refuse
  | .handle ⟨_, .value v, _⟩ =>
    simp only [toHost]
    exact Safe.pure (typed_handle.mp hx).2
  | .handle ⟨_, .type t, _⟩ =>
    simp only [toHost]
    exact Safe.lift (Box.make_keeps fun i => Value.typed_boxed_type)
  | .function f =>
    simp only [toHost]
    exact Safe.lift (Box.make_keeps fun i => Value.typed_boxed_script.mpr hx)
  | .table i =>
    simp only [toHost]
    exact Safe.lift (Box.make_keeps fun i => Value.typed_boxed_script.mpr hx)
  | .state i =>
    simp only [toHost]
    exact Safe.lift (Box.make_keeps fun i => Value.typed_boxed_script.mpr hx)

theorem toHosts_safe {ts : List Ty} {xs : List Script} (h : ∀ x ∈ xs, x.Typed W) :
    Safe worker W (toHosts ts xs) fun W' vs => ∀ v ∈ vs, v.Typed W' := by
  induction xs generalizing W ts with
  | nil => cases ts <;> exact Safe.pure (by simp)
  | cons x xs ih =>
    cases ts with
    | nil => exact Safe.pure (by simp)
    | cons t ts =>
      rw [List.forall_mem_cons] at h
      apply (toHost_safe h.1).bind
      intro W' v le hv
      apply (ih fun y hy => (h.2 y hy).mono le.below).bind
      intro V vs le' hvs
      apply Safe.pure
      rw [List.forall_mem_cons]
      exact ⟨hv.mono le'.below, hvs⟩

theorem allToHost_safe {hint : Ty} {xs : List Script} (h : ∀ x ∈ xs, x.Typed W) :
    Safe worker W (allToHost hint xs) fun W' vs => ∀ v ∈ vs, v.Typed W' := by
  induction xs generalizing W with
  | nil => exact Safe.pure (by simp)
  | cons x xs ih =>
    rw [List.forall_mem_cons] at h
    apply (toHost_safe h.1).bind
    intro W' v le hv
    apply (ih fun y hy => (h.2 y hy).mono le.below).bind
    intro V vs le' hvs
    apply Safe.pure
    rw [List.forall_mem_cons]
    exact ⟨hv.mono le'.below, hvs⟩

end Script

namespace StructTy

variable {t : StructTy} {vs : List Value}

theorem member_safe (hs : s < W.configs.length) (hvs : (Value.struct t vs).Typed W)
    {via : Option Pointer} (hvia : ∀ p ∈ via, (Value.ptr p).Typed W) (name : String) :
    Safe (some s) W (t.member s vs via name) fun W' x => x.Typed W' := by
  simp only [member]
  split
  · rename_i i f _
    apply Value.toScript_safe hs
    cases hv : vs[i]? with
    | none => exact Value.typed_nil
    | some v => exact (Value.typed_struct.mp hvs).2 v (List.mem_of_getElem? hv)
  · split
    · exact Safe.pure Script.typed_nil
    · split
      · exact Safe.lift (Closure.make_keeps_of_part rfl hvs)
      · exact Safe.lift (Closure.make_keeps_of_part rfl (hvia _ rfl))
      · exact Safe.pure Script.typed_nil

theorem index_safe (hs : s < W.configs.length) (hvs : (Value.struct t vs).Typed W)
    {via : Option Pointer} (hvia : ∀ p ∈ via, (Value.ptr p).Typed W) (key : Script) :
    Safe (some s) W (t.index s vs via key) fun W' x => x.Typed W' := by
  simp only [index]
  split
  · exact member_safe hs hvs hvia _
  · exact Safe.pure Script.typed_nil

end StructTy

theorem Chan.index_safe {c : Chan} (hc : (Value.chan c).Typed W) (key : Script) :
    Safe worker W (c.index key) fun W' x => x.Typed W' := by
  simp only [Chan.index]
  split
  · exact Safe.lift (Closure.make_keeps_of_part rfl hc)
  · exact Safe.lift (Closure.make_keeps_of_part rfl hc)
  · exact Safe.lift (Closure.make_keeps_of_part rfl hc)
  · exact Safe.pure Script.typed_nil

theorem Map.index_safe (hs : s < W.configs.length) {m : Map} (hm : (Value.map m).Typed W)
    {key : Script} (hkey : key.Typed W) :
    Safe (some s) W (m.index s key) fun W' x => x.Typed W' := by
  apply (Script.toHost_safe hkey).bind
  intro W' k le _
  apply Safe.get_bind
  intro st ht
  apply Safe.hostExcept_bind
  intro found hfound
  split
  · exact Value.toScript_safe (le.below.state hs)
      (Map.typed_of_find ht (hm.mono le.below) hfound _ rfl)
  · exact Safe.pure Script.typed_nil

theorem Slice.index_safe (hs : s < W.configs.length) {w : Slice} (hw : (Value.slice w).Typed W)
    (key : Script) : Safe (some s) W (w.index s key) fun W' x => x.Typed W' := by
  simp only [Slice.index]
  split
  · exact Safe.lift (Closure.make_keeps_of_part rfl hw)
  · exact Safe.lift (Closure.make_keeps_of_part rfl hw)
  · exact Safe.pure Script.typed_nil
  · apply Safe.except_bind
    intro i _
    apply Safe.get_bind
    intro st ht
    split
    · rename_i found
      exact Value.toScript_safe hs (Slice.typed_of_get? ht hw found)
    · exact Safe.refuse

theorem Pointer.index_safe (hs : s < W.configs.length) {p : Pointer}
    (hp : (Value.ptr p).Typed W) {key : Script} (hkey : key.Typed W) :
    Safe (some s) W (p.index s key) fun W' x => x.Typed W' := by
  simp only [Pointer.index]
  apply Safe.guard
  intro _
  apply Safe.get_bind
  intro st ht
  apply Safe.hostExcept_bind
  intro v loaded
  have hv := (Pointer.fits_of_load ht hp loaded).typed
  split
  · exact StructTy.index_safe hs hv (by simpa using hp) key
  · apply (Value.toScript_safe hs hv).bind
    intro W' _ le _
    exact Map.index_safe (le.below.state hs) (hv.mono le.below) (hkey.mono le.below)
  · apply (Value.toScript_safe hs hv).bind
    intro W' _ le _
    exact Slice.index_safe (le.below.state hs) (hv.mono le.below) key
  · apply (Value.toScript_safe hs hv).bind
    intro W' _ le _
    exact Chan.index_safe (hv.mono le.below) key
  · exact Safe.refuse

theorem Handle.index_safe (hs : s < W.configs.length) {h : Handle} (hh : h.payload.Typed W)
    {key : Script} (hkey : key.Typed W) :
    Safe (some s) W (h.index s key) fun W' x => x.Typed W' := by
  simp only [Handle.index]
  split
  · rename_i eq
    exact Chan.index_safe (hh.value eq) key
  · rename_i eq
    exact Map.index_safe hs (hh.value eq) hkey
  · rename_i eq
    exact Slice.index_safe hs (hh.value eq) key
  · rename_i eq
    exact StructTy.index_safe hs (hh.value eq) (by simp) key
  · rename_i eq
    exact Pointer.index_safe hs (hh.value eq) hkey
  · exact Safe.refuse

section

variable {st : Store} {i : Nat}

theorem Table.typed_entries (ht : Store.Typed W st) (hi : (Script.table i).Typed W) :
    ∀ e ∈ Table.entries st i, e.1.Typed W ∧ e.2.Typed W := by
  obtain ⟨es, hes, typed⟩ := ht.tables.get (Script.typed_table.mp hi)
  simpa [Table.entries, hes] using typed

theorem Table.typed_get (ht : Store.Typed W st) (hi : (Script.table i).Typed W) (key : Script) :
    (Table.get st i key).Typed W := by
  unfold Table.get Table.lookup
  cases h : (Table.entries st i).find? (·.1.rawSame key) with
  | none => exact Script.typed_nil
  | some e => exact (typed_entries ht hi e (List.mem_of_find?_eq_some h)).2

end

theorem Script.index_safe (hs : s < W.configs.length) {target key : Script}
    (htarget : target.Typed W) (hkey : key.Typed W) :
    Safe (some s) W (target.index s key) fun W' x => x.Typed W' := by
  simp only [Script.index]
  split
  · exact Safe.get_bind fun st ht => Safe.pure (Table.typed_get ht htarget key)
  · exact Handle.index_safe hs (Script.typed_handle.mp htarget).2 hkey
  · exact Safe.refuse

theorem Script.len_safe {target : Script} :
    Safe worker W target.len fun W' x => x.Typed W' := by
  simp only [Script.len]
  split
  · exact Safe.pure Script.typed_number
  · exact Safe.get_bind fun st _ => Safe.pure Script.typed_number
  · simp only [Handle.len]
    split
    · exact Safe.get_bind fun st _ => Safe.pure Script.typed_number
    · exact Safe.pure Script.typed_number
    · exact Safe.refuse
  · exact Safe.refuse

theorem Map.assign_safe {m : Map} (hm : (Value.map m).Typed W) {key value : Script}
    (hkey : key.Typed W) (hvalue : value.Typed W) :
    Safe worker W (m.assign key value) fun _ _ => True := by
  apply (Script.toHost_safe hkey).bind
  intro W' k le hk
  apply (Script.toHost_safe (hvalue.mono le.below)).bind
  intro V v le' hv
  exact Safe.host (Map.insert_safe ((hm.mono le.below).mono le'.below) (hk.mono le'.below) hv)

theorem Slice.assign_safe {w : Slice} (hw : (Value.slice w).Typed W) {key value : Script}
    (hvalue : value.Typed W) : Safe worker W (w.assign key value) fun _ _ => True := by
  apply Safe.except_bind
  intro i _
  apply (Script.toHost_safe hvalue).bind
  intro W' v le hv
  exact Safe.host (Slice.set_safe (hw.mono le.below) hv)

theorem StructTy.assign_safe {t : StructTy} {key : Script} :
    Safe worker W (t.assign key) fun _ _ => True := by
  apply Safe.except_bind
  intro name _
  split
  · exact Safe.refuse
  · exact Safe.refuse

theorem Pointer.assign_safe {p : Pointer} (hp : (Value.ptr p).Typed W) {key value : Script}
    (hvalue : value.Typed W) : Safe worker W (p.assign key value) fun _ _ => True := by
  simp only [Pointer.assign]
  apply Safe.guard
  intro _
  split
  · apply Safe.except_bind
    intro name _
    apply Safe.get_bind
    intro st ht
    apply Safe.hostExcept_bind
    intro v loaded
    have fits := Pointer.fits_of_load ht hp loaded
    split
    · split
      · exact Safe.refuse
      · apply (Script.toHost_safe hvalue).bind
        intro W' u le hu
        apply Safe.hostExcept_bind
        intro vs' changed
        apply Safe.host
        refine Pointer.write_safe (hp.mono le.below) ⟨accepts_fields vs' fits.accepts, ?_⟩
        exact StructTy.typed_of_setAt changed (fits.typed.mono le.below) hu
    · exact Safe.refuse
  · exact Safe.refuse

theorem Table.typed_update {key value : Script} {es : List (Script × Script)} (hkey : key.Typed W)
    (hvalue : value.Typed W) (hes : ∀ e ∈ es, e.1.Typed W ∧ e.2.Typed W) :
    ∀ e ∈ Table.update key value es, e.1.Typed W ∧ e.2.Typed W := by
  intro e he
  simp only [Table.update] at he
  split at he
  · exact hes e (List.mem_of_mem_eraseIdx he)
  · rename_i i _ _ _
    obtain ⟨j, hj⟩ := List.getElem?_of_mem he
    rw [List.getElem?_modify] at hj
    obtain ⟨old, hold, rfl⟩ := Option.map_eq_some_iff.mp hj
    have typed := hes old (List.mem_of_getElem? hold)
    split
    · exact ⟨typed.1, hvalue⟩
    · exact typed
  · exact hes e he
  · rcases List.mem_append.mp he with old | new
    · exact hes e old
    · cases List.mem_singleton.mp new
      exact ⟨hkey, hvalue⟩

theorem Table.set_safe {i : Nat} (hi : (Script.table i).Typed W) {key value : Script}
    (hkey : key.Typed W) (hvalue : value.Typed W) :
    Safe worker W (Table.set i key value) fun _ _ => True := by
  simp only [Table.set]
  split
  · exact Safe.refuse
  · apply Safe.modify
    intro st ht
    have updated := Table.typed_update hkey hvalue (Table.typed_entries ht hi)
    exact { ht with tables := ht.tables.set (Script.typed_table.mp hi) updated }

namespace Script

theorem assign_safe {target key value : Script} (htarget : target.Typed W) (hkey : key.Typed W)
    (hvalue : value.Typed W) : Safe worker W (target.assign key value) fun _ _ => True := by
  simp only [assign]
  split
  · exact Table.set_safe htarget hkey hvalue
  · have hh := (typed_handle.mp htarget).2
    split
    · rename_i eq
      exact Map.assign_safe (hh.value eq) hkey hvalue
    · rename_i eq
      exact Slice.assign_safe (hh.value eq) hvalue
    · exact StructTy.assign_safe
    · rename_i eq
      exact Pointer.assign_safe (hh.value eq) hvalue
    · exact Safe.refuse
  · exact Safe.refuse

theorem destination_safe (hs : s < W.configs.length) {fuel : Nat} {target : Script}
    (htarget : target.Typed W) :
    Safe (some s) W (destination s fuel target) fun W' x => x.Typed W' := by
  induction fuel generalizing W target with
  | zero => exact Safe.throw
  | succ fuel ih =>
    unfold destination
    split
    · contradiction
    · rename_i p set eq
      cases eq
      have hp := (typed_handle.mp htarget).2
      have follow : Safe (some s) W (do
          if p.isNil then BridgeM.fail .nilDereference
          let v ← (p.load (← get) : Except HostError Value)
          let inner ← v.toScript s
          destination s fuel inner : BridgeM Script) fun W' x => x.Typed W' := by
        apply Safe.guard
        intro _
        apply Safe.get_bind
        intro st ht
        apply Safe.hostExcept_bind
        intro v loaded
        have hv := (Pointer.fits_of_load ht hp loaded).typed
        exact (Value.toScript_safe hs hv).bind fun W' inner le h => ih (le.below.state hs) h
      split
      · exact follow
      · exact follow
      · exact Safe.pure htarget
    · exact Safe.pure htarget

theorem setIndex_safe (hs : s < W.configs.length) {target key value : Script}
    (htarget : target.Typed W) (hkey : key.Typed W) (hvalue : value.Typed W) :
    Safe (some s) W (target.setIndex s key value) fun _ _ => True := by
  apply Safe.get_bind
  intro st _
  apply (destination_safe hs htarget).bind
  intro W' x le hx
  exact assign_safe hx (hkey.mono le.below) (hvalue.mono le.below)

end Script

end HostBridge
