import HostBridge.Proofs.Typing.Bridge

namespace HostBridge

variable {worker : Option Nat} {W : World} {s : Nat} {host : Host}

namespace Function

variable {f : Function}

theorem deliver_safe (hs : s < W.configs.length) (hhost : Host.Typed W host) {args : List Value}
    (hargs : ∀ v ∈ args, v.Typed W) :
    Safe (some s) W (do
      let results ← BridgeM.rescue (f.call host args)
      Value.toScripts s results) fun W' xs => ∀ x ∈ xs, x.Typed W' := by
  apply (Safe.rescue (Safe.host (call_safe hhost hargs))).bind
  intro W' results le hresults
  exact Value.toScripts_safe (le.below.state hs) hresults

theorem invoke_safe (hs : s < W.configs.length) (hhost : Host.Typed W host)
    {receiver : Option Value} (hreceiver : ∀ v ∈ receiver, v.Typed W) {args : List Script}
    (hargs : ∀ x ∈ args, x.Typed W) :
    Safe (some s) W (f.invoke host s receiver args) fun W' xs => ∀ x ∈ xs, x.Typed W' := by
  simp only [invoke]
  apply Safe.guard
  intro _
  apply (Script.toHosts_safe hargs).bind
  intro W₁ fixed le₁ hfixed
  have values : ∀ {W₂ : World} {rest : List Value}, W₁.Extends (some s) W₂ →
      (∀ v ∈ rest, v.Typed W₂) → ∀ v ∈ receiver.toList ++ fixed ++ rest, v.Typed W₂ := by
    intro W₂ rest le₂ hrest v hv
    simp only [List.mem_append] at hv
    rcases hv with (bound | given) | collected
    · exact (hreceiver v (Option.mem_toList.mp bound)).mono (le₁.trans le₂).below
    · exact (hfixed v given).mono le₂.below
    · exact hrest v collected
  split
  · have surplus : ∀ x ∈ args.drop (f.sig.required - receiver.toList.length), x.Typed W₁ :=
      fun x hx => (hargs x (List.mem_of_mem_drop hx)).mono le₁.below
    apply (Script.allToHost_safe surplus).bind
    intro W₂ items le₂ hitems
    apply (Safe.host (Slice.ofList_safe hitems)).bind
    intro W₃ w le₃ hw
    have le := (le₁.trans le₂).trans le₃
    refine deliver_safe (le.below.state hs) (hhost.mono le.below) (values (le₂.trans le₃) ?_)
    simpa only [List.mem_singleton, forall_eq] using hw
  · exact deliver_safe (le₁.below.state hs) (hhost.mono le₁.below) (values (.refl W₁) (by simp))

end Function

theorem Chan.received_safe (hs : s < W.configs.length) {r : Option Value}
    (h : ∀ v ∈ r, v.Typed W) :
    Safe (some s) W (Chan.received s r) fun W' xs => ∀ x ∈ xs, x.Typed W' := by
  simp only [Chan.received]
  split
  · apply (Value.toScript_safe hs (h _ rfl)).bind
    intro W' x _ hx
    apply Safe.pure
    simpa using ⟨hx, Script.typed_of_isPlain rfl⟩
  · apply Safe.pure
    simpa using Script.typed_of_isPlain rfl

theorem Chan.argument_safe {c : Chan} {args : List Script} (hargs : ∀ x ∈ args, x.Typed W) :
    Safe worker W (c.argument args) fun W' v => v.Typed W' := by
  simp only [Chan.argument]
  split
  · rename_i given
    exact Script.toHost_safe (hargs _ (List.mem_of_getElem? given))
  · exact Safe.refuse

theorem Map.next_safe (hs : s < W.configs.length) {m : Map} (hm : (Value.map m).Typed W)
    {keys : List Value} (hkeys : ∀ v ∈ keys, v.Typed W) {cursor : Nat} :
    Safe (some s) W (m.next s keys cursor) fun W' xs => ∀ x ∈ xs, x.Typed W' := by
  apply Safe.get_bind
  intro st ht
  have moved : Safe (some s) W (set { st with
      cursors := st.cursors.set cursor ((st.cursors.get? cursor).getD 0 + 1) } : BridgeM PUnit)
      fun W' _ => W' = W := Safe.set { ht with } rfl
  apply moved.bind
  intro W' _ _ eq
  subst eq
  split
  · exact Safe.pure (by simp)
  · rename_i key hkey
    apply Safe.get_bind
    intro st ht
    apply Safe.hostExcept_bind
    intro v found
    have hv : (v.getD .nil).Typed W' := by
      cases v with
      | none => exact Value.typed_nil
      | some v => exact Map.typed_of_find ht hm found v rfl
    have key := Value.toScript_safe hs (hkeys _ (List.mem_of_getElem? hkey))
    apply key.bind
    intro W₁ x le₁ hx
    refine (Value.toScript_safe (le₁.below.state hs) (hv.mono le₁.below)).bind
      fun W₂ y le₂ hy => Safe.pure ?_
    simp only [List.mem_cons, forall_eq_or_imp, List.not_mem_nil, false_implies, implies_true,
      and_true]
    exact ⟨hx.mono le₂.below, hy⟩

theorem Code.run_safe (hs : s < W.configs.length) (hhost : Host.Typed W host) {code : Code}
    (hcode : ∀ i ∈ code.parts, i.Typed W) {args : List Script} (hargs : ∀ x ∈ args, x.Typed W) :
    Safe (some s) W (code.run host s args) fun W' xs => ∀ x ∈ xs, x.Typed W' := by
  have htail : ∀ x ∈ args.tail, x.Typed W := fun x hx => hargs x (List.mem_of_mem_tail hx)
  cases code with
  | host f => exact Function.invoke_safe hs hhost (by simp) hargs
  | method f receiver =>
    have hreceiver : receiver.Typed W := hcode _ (List.mem_singleton_self _)
    exact Function.invoke_safe hs hhost (by simpa using hreceiver) htail
  | receive c =>
    have hc : (Value.chan c).Typed W := hcode _ (List.mem_singleton_self _)
    exact (Safe.host (Chan.receive_safe (Chan.declared hc))).bind fun W' r le hr =>
      Chan.received_safe (le.below.state hs) hr
  | send c =>
    have hc : (Value.chan c).Typed W := hcode _ (List.mem_singleton_self _)
    apply (Chan.argument_safe hargs).bind
    intro W' v le hv
    exact Safe.none (Safe.host (Chan.send_safe (Chan.declared (hc.mono le.below)) hv))
  | close c =>
    have hc : (Value.chan c).Typed W := hcode _ (List.mem_singleton_self _)
    exact Safe.none (Safe.host (Chan.close_safe (Chan.declared hc)))
  | append w =>
    have hw : (Value.slice w).Typed W := hcode _ (List.mem_singleton_self _)
    apply (Script.allToHost_safe htail).bind
    intro W₁ items le₁ hitems
    apply (Safe.host (Slice.append_safe (hw.mono le₁.below) hitems)).bind
    intro W₂ w' le₂ hw'
    exact Safe.one (Value.toScript_safe ((le₁.trans le₂).below.state hs) hw')
  | capacity w => exact Safe.pure (by simp)
  | next m keys cursor =>
    simp only [Code.parts, List.mem_cons, List.mem_map, forall_eq_or_imp] at hcode
    exact Map.next_safe hs hcode.1 fun v hv => hcode.2 _ ⟨v, hv, rfl⟩
  | echo => exact Safe.pure hargs
  | count => exact Safe.pure (by simp)
  | apply => exact Safe.refuse

theorem Ty.instantiate_keeps (t : Ty) :
    Keeps worker W t.instantiate fun W' v => v.Typed W' := by
  simp only [Ty.instantiate]
  split
  · exact (Ty.zero_keeps W _).imp fun _ _ hv => hv.typed
  · exact Slice.withCapacity_keeps.bind fun W' w _ hw => Keeps.pure hw
  · exact Chan.make_keeps.bind fun W' c _ hc => Keeps.pure (Chan.typed_restrict hc _)
  · apply (Ty.zero_keeps W _).bind
    intro W' v _ hv
    exact (Pointer.withType_keeps hv).bind fun V p _ hp => Keeps.pure hp

theorem Handle.call_safe (hs : s < W.configs.length) {h : Handle} (hh : h.payload.Typed W) :
    Safe (some s) W (h.call s) fun W' xs => ∀ x ∈ xs, x.Typed W' := by
  simp only [Handle.call]
  split
  · rename_i m _ eq
    have hm := hh.value eq
    apply Safe.get_bind
    intro st ht
    apply Safe.lift_bind Store.newCursor_keeps
    intro W₁ cursor le₁ _
    have parts : ∀ i ∈ (Code.next m (m.keys st) cursor).parts, i.Typed W₁ := by
      simp only [Code.parts, List.mem_cons, List.mem_map, forall_eq_or_imp, Map.keys]
      refine ⟨hm.mono le₁.below, ?_⟩
      rintro _ ⟨_, ⟨e, he, rfl⟩, rfl⟩
      exact (Map.fits_entries ht hm e he).1.typed.mono le₁.below
    exact Safe.one (Safe.lift (Closure.make_keeps parts))
  · apply Safe.lift_bind (Ty.instantiate_keeps _)
    intro W₁ v le hv
    exact Safe.one (Value.toScript_safe (le.below.state hs) hv)
  · exact Safe.refuse

namespace Script

theorem call_safe (hs : s < W.configs.length) (hhost : Host.Typed W host) {target : Script}
    (htarget : target.Typed W) {args : List Script} (hargs : ∀ x ∈ args, x.Typed W) :
    Safe (some s) W (target.call host s args) fun W' xs => ∀ x ∈ xs, x.Typed W' := by
  -- the arguments of a function that calls its first argument are fewer each time
  induction args generalizing target with
  | nil =>
    unfold call
    split
    · contradiction
    · exact Code.run_safe hs hhost (typed_function.mp htarget) hargs
    · exact Handle.call_safe hs (typed_handle.mp htarget).2
    · exact Safe.refuse
  | cons first rest ih =>
    unfold call
    split
    · rename_i eq
      cases eq
      rw [List.forall_mem_cons] at hargs
      exact ih hargs.1 hargs.2
    · exact Code.run_safe hs hhost (typed_function.mp htarget) hargs
    · exact Handle.call_safe hs (typed_handle.mp htarget).2
    · exact Safe.refuse

theorem callMethod_safe (hs : s < W.configs.length) (hhost : Host.Typed W host) {target : Script}
    (htarget : target.Typed W) {name : String} {args : List Script}
    (hargs : ∀ x ∈ args, x.Typed W) :
    Safe (some s) W (target.callMethod host s name args) fun W' xs => ∀ x ∈ xs, x.Typed W' := by
  apply (index_safe hs htarget (typed_of_isPlain rfl)).bind
  intro W' f le hf
  apply call_safe (le.below.state hs) (hhost.mono le.below) hf
  rw [List.forall_mem_cons]
  exact ⟨htarget.mono le.below, fun x hx => (hargs x hx).mono le.below⟩

end Script

end HostBridge
