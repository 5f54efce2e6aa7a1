import HostBridge.Proofs.Typing.Call

namespace HostBridge

variable {W : World}

theorem Table.typed_sequence {items : List Script} (h : ∀ x ∈ items, x.Typed W) :
    ∀ e ∈ Table.sequence items, e.1.Typed W ∧ e.2.Typed W := by
  intro e he
  simp only [sequence, List.mem_mapIdx] at he
  obtain ⟨i, hi, rfl⟩ := he
  exact ⟨Script.typed_number, h _ (List.getElem_mem hi)⟩

/-- The action does nothing that somebody relies on not to happen. -/
structure World.Permits (W : World) (a : Action) : Prop where
  rules : W.rules.Permits a
  unpinned : ∀ {s key type} {value : SlotType.Content type}, a = .registrySet s key type value →
    W.pinned s key = none
  shown : ∀ {s name}, a = .global s name → ¬W.hidden s name

theorem World.Permits.mono {W' : World} (le : W.Grows W') {a : Action} (h : W.Permits a) :
    W'.Permits a where
  rules := le.rules ▸ h.rules
  unpinned eq := le.pinned ▸ h.unpinned eq
  shown eq := le.hidden ▸ h.shown eq

theorem World.Whole.permits (whole : W.Whole) {a : Action} (rules : W.rules.Permits a) :
    W.Permits a where
  rules := rules
  unpinned _ := by rw [whole.pinned]
  shown _ := by simp [whole.hidden]

theorem SlotType.typed_items (type : SlotType) (value : type.Content) :
    ∀ i ∈ type.items value, i.Typed W := by
  cases type with
  | tables => exact List.forall_mem_singleton.mpr (Item.typed_of_leaf trivial rfl)
  | foreign name => exact List.forall_mem_nil _

namespace Action

theorem run_safe {host : Host} {a : Action} (hstate : ∀ s ∈ a.state?, s < W.configs.length)
    (hhost : Host.Typed W host) (h : ∀ i ∈ a.operands, i.Typed W) (permitted : W.Permits a) :
    Safe a.state? W (a.run host) fun W' out => ∀ i ∈ out, i.Typed W' := by
  cases a with
  | host a =>
    have ha := List.forall_mem_map.mp h
    apply (Safe.host (HostAction.run_safe ha)).bind
    intro W' vs _ hvs
    exact Safe.pure (List.forall_mem_map.mpr hvs)
  | callHost f args =>
    have hargs := List.forall_mem_map.mp (List.forall_mem_cons.mp h).2
    apply (Safe.host (Function.call_safe hhost hargs)).bind
    intro W' vs _ hvs
    exact Safe.pure (List.forall_mem_map.mpr hvs)
  | wrap x =>
    have hx := List.forall_mem_singleton.mp h
    exact Safe.one (Safe.lift (Box.make_keeps fun i => Value.typed_boxed_script.mpr hx))
  | plain x =>
    apply Safe.pure
    rw [List.forall_mem_singleton]
    simp only [operands] at h
    split at h
    · rename_i plain
      exact Script.typed_of_isPlain plain
    · exact List.forall_mem_singleton.mp h
  | newTable items =>
    have hitems := List.forall_mem_map.mp h
    apply Safe.one
    exact (Safe.lift (Store.newTable_keeps (Table.typed_sequence hitems))).imp
      fun _ _ ht => Script.typed_table.mpr ht
  | callback name code => exact Safe.one (Safe.lift (Closure.make_keeps h))
  | newState config => exact Safe.none (Safe.lift Store.newState_keeps)
  | stateRef s => exact Safe.pure (List.forall_mem_singleton.mpr Script.typed_state)
  | drop s => exact Safe.none (Safe.lift (State.drop_keeps (hstate s rfl)))
  | setGlobal s name x =>
    have hx := List.forall_mem_singleton.mp h
    exact Safe.none (Safe.lift (State.setGlobal_keeps (hstate s rfl) hx))
  | global s name =>
    apply Safe.get_bind
    intro st ht
    have typed := State.typed_global ht (hstate s rfl) (permitted.shown rfl)
    exact Safe.pure (List.forall_mem_singleton.mpr typed)
  | registrySet s key type value =>
    apply Safe.get_bind
    intro st _
    split
    · exact Safe.pure (List.forall_mem_nil _)
    · have unpinned := permitted.unpinned rfl
      exact Safe.none (State.registrySet_safe (hstate s rfl) unpinned permitted.rules)
  | registryGet s key type =>
    apply Safe.get_bind
    intro st _
    apply Safe.pure
    intro i hi
    obtain ⟨value, -, member⟩ := List.mem_flatMap.mp hi
    exact type.typed_items value i member
  | registryGetOrInsert s key type value =>
    apply Safe.get_bind
    intro st _
    split
    · exact Safe.pure (List.forall_mem_nil _)
    · apply (State.registryGetOrInsert_safe (hstate s rfl) permitted.rules).bind
      intro W' value _ _
      exact Safe.pure (type.typed_items value)
  | operators s =>
    apply (State.operators_safe (hstate s rfl)).bind
    intro W' set _ _
    exact Safe.pure (SlotType.typed_items .tables set)
  | convert s v =>
    have hv := List.forall_mem_singleton.mp h
    exact Safe.one (Value.toScript_safe (hstate s rfl) hv)
  | constructor s t => exact Safe.one (Handle.constructor_safe (hstate s rfl) t)
  | toHost hint x =>
    have hx := List.forall_mem_singleton.mp h
    exact Safe.one (Script.toHost_safe hx)
  | index s target key =>
    simp only [operands, List.mem_cons, forall_eq_or_imp] at h
    exact Safe.one (Script.index_safe (hstate s rfl) h.1 h.2.1)
  | assign s target key value =>
    simp only [operands, List.mem_cons, forall_eq_or_imp] at h
    exact Safe.none (Script.setIndex_safe (hstate s rfl) h.1 h.2.1 h.2.2.1)
  | len target => exact Safe.one Script.len_safe
  | call s target args =>
    simp only [operands, List.forall_mem_cons, List.forall_mem_map] at h
    apply (Script.call_safe (hstate s rfl) hhost h.1 h.2).bind
    intro W' xs _ hxs
    exact Safe.pure (List.forall_mem_map.mpr hxs)
  | callMethod s target name args =>
    simp only [operands, List.forall_mem_cons, List.forall_mem_map] at h
    apply (Script.callMethod_safe (hstate s rfl) hhost h.1 h.2).bind
    intro W' xs _ hxs
    exact Safe.pure (List.forall_mem_map.mpr hxs)

end Action

namespace Session

/-- The session is at work in the world, which may know of more than anybody there has. -/
structure Lives (W : World) (S : Session) : Prop where
  store : Store.Typed W S.store
  held : ∀ i ∈ S.held, i.Typed W
  host : Host.Typed W S.host
  makers : S.makers = W.makers

structure Fits (W : World) (S : Session) : Prop extends Lives W S where
  whole : W.Whole

variable {S S' : Session}

theorem Lives.leave (lives : S.Lives W) {worker : Option Nat} {W' : World}
    (le : W.Extends worker W') {st : Store} (ht : Store.Typed W' st) {out : List Item}
    (hout : ∀ i ∈ out, i.Typed W') : (S.leave worker st out).Lives W' where
  store := ht
  held := by
    intro i hi
    rcases List.mem_append.mp hi with old | new
    · exact (lives.held i old).mono le.below
    · exact hout i new
  host := lives.host.mono le.below
  makers := by
    obtain ⟨n, hn⟩ := le.makers
    have fresh : st.fresh = W.makers.length + n := by simp [ht.fresh, hn]
    simp [Session.leave, lives.makers, fresh, hn]

theorem Lives.perform_of_safe (lives : S.Lives W) {a : Action}
    (safe : Safe a.state? W (a.run S.host) fun W' out => ∀ i ∈ out, i.Typed W') :
    ∃ W', W.Extends a.state? W' ∧ (S.perform a).Lives W' := by
  replace safe := safe S.store lives.store
  simp only [Session.perform]
  split at safe
  · rename_i out st eq
    obtain ⟨W', le, ht, hout⟩ := safe
    rw [eq]
    exact ⟨W', le, lives.leave le ht hout⟩
  · rename_i stop st eq
    obtain ⟨W', le, ht⟩ := safe
    rw [eq]
    exact ⟨W', le, lives.leave le ht (by simp)⟩

theorem Lives.perform (lives : S.Lives W) {a : Action} (allowed : S.Allows a)
    (permitted : W.Permits a) : ∃ W', W.Extends a.state? W' ∧ (S.perform a).Lives W' := by
  apply lives.perform_of_safe
  have hstate : ∀ s ∈ a.state?, s < W.configs.length :=
    fun s hs => Nat.lt_of_lt_of_eq (allowed.2 s hs) lives.store.states
  exact Action.run_safe hstate lives.host (fun i hi => lives.held i (allowed.1 hi)) permitted

theorem Lives.define (lives : S.Lives W) {captured : List Value} {b : Body} (n : Nat)
    (held : captured.map .value ⊆ S.held) (checked : b.Checked captured) :
    (S.define n b).Lives W where
  store := lives.store
  held := lives.held
  makers := lives.makers
  host := by
    intro k
    by_cases hk : k = n
    · refine ⟨captured, fun v hv => lives.held _ (held (List.mem_map_of_mem hv)), ?_⟩
      simpa [Session.define, hk] using checked
    · simpa [Session.define, hk] using lives.host k

theorem Fits.perform_of_safe (fits : S.Fits W) {a : Action}
    (safe : Safe a.state? W (a.run S.host) fun W' out => ∀ i ∈ out, i.Typed W') :
    ∃ W', W.Extends a.state? W' ∧ (S.perform a).Fits W' := by
  obtain ⟨W', le, lives⟩ := fits.toLives.perform_of_safe safe
  exact ⟨W', le, lives, fits.whole.mono le.toGrows⟩

theorem Fits.perform (fits : S.Fits W) {a : Action} (allowed : S.Allows a)
    (permitted : W.rules.Permits a) : ∃ W', W.Extends a.state? W' ∧ (S.perform a).Fits W' := by
  obtain ⟨W', le, lives⟩ := fits.toLives.perform allowed (fits.whole.permits permitted)
  exact ⟨W', le, lives, fits.whole.mono le.toGrows⟩

theorem Fits.define (fits : S.Fits W) {captured : List Value} {b : Body} (n : Nat)
    (held : captured.map .value ⊆ S.held) (checked : b.Checked captured) :
    (S.define n b).Fits W := ⟨fits.toLives.define n held checked, fits.whole⟩

theorem fits_start {host : Host} (hhost : ∀ n, (host n).Checked []) (rules : Rules) :
    Fits { rules } { host } where
  store := Store.typed_empty rules
  held := by simp
  host n := ⟨[], by simp, hhost n⟩
  makers := rfl
  whole := ⟨nofun, nofun, nofun, nofun, nofun, rfl, rfl⟩

theorem Run.lives {as : List Action} (run : Run S as S') (lives : S.Lives W)
    (permitted : ∀ a ∈ as, W.Permits a) : ∃ W', W.Grows W' ∧ S'.Lives W' := by
  induction run with
  | start => exact ⟨W, .refl W, lives⟩
  | define n _ held checked ih =>
    obtain ⟨W', le, lives'⟩ := ih permitted
    exact ⟨W', le, lives'.define n held checked⟩
  | act _ allowed ih =>
    obtain ⟨W', le, lives'⟩ := ih fun b hb => permitted b (List.mem_append_left _ hb)
    obtain ⟨W'', le', lives''⟩ := lives'.perform allowed ((permitted _ (by simp)).mono le)
    exact ⟨W'', le.trans le'.toGrows, lives''⟩

theorem Run.fits {as : List Action} (run : Run S as S') (fits : S.Fits W)
    (permitted : ∀ a ∈ as, W.rules.Permits a) :
    ∃ W', W.Below W' ∧ W'.rules = W.rules ∧ S'.Fits W' := by
  obtain ⟨W', le, lives⟩ := run.lives fits.toLives fun a ha => fits.whole.permits (permitted a ha)
  exact ⟨W', le.below, le.rules, lives, fits.whole.mono le⟩

theorem Fits.relax (fits : S.Fits W) {R : Rules} (within : W.rules.Within R) :
    S.Fits { W with rules := R } := by
  have le : W.Below { W with rules := R } :=
    { World.Below.refl W with swapped := within.swapped, lent := within.lent }
  refine ⟨⟨?_, fun i hi => (fits.held i hi).mono le, fits.host.mono le, fits.makers⟩,
    { fits.whole with }⟩
  refine { fits.store.mono le with slot := fun {s state} hs => ?_, builder := fun h => ?_ }
  · have slot := fits.store.slot hs
    generalize Assoc.find state.config.registryKey state.registry = held at slot ⊢
    match held with
    | none => exact slot
    | some (.operators _) =>
      exact slot.imp_right fun ⟨unkept, forced⟩ =>
        ⟨fun kept => unkept (within.kept kept), within.swapped forced⟩
    | some (.foreign ..) => exact fun kept => slot (within.kept kept)
  · exact (fits.store.builder h).mono le

theorem Run.fits_of {host : Host} (hhost : ∀ n, (host n).Checked []) {as : List Action}
    (run : Run { host } as S) : ∃ W, W.rules = .of as ∧ S.Fits W := by
  obtain ⟨W, _, rules, fits⟩ := run.fits (fits_start hhost (.of as)) fun _ => Rules.permits_of
  exact ⟨W, rules, fits⟩

theorem Run.exists_fits {host : Host} (hhost : ∀ n, (host n).Checked []) {as : List Action}
    (run : Run { host } as S) : ∃ W, W.rules = .none ∧ S.Fits W := by
  obtain ⟨W, _, rules, fits⟩ := run.fits (fits_start hhost .none) fun a _ => Rules.permits_none a
  exact ⟨W, rules, fits⟩

theorem Fits.occurs (fits : S.Fits W) {i : Item} (occurs : S.Occurs i) : i.Typed W := by
  induction occurs with
  | held h => exact fits.held _ h
  | key hn he =>
    obtain ⟨t, ht⟩ := fits.store.maps.type fits.whole.maps hn
    exact (ht _ he).1.typed
  | entry hn he =>
    obtain ⟨t, ht⟩ := fits.store.maps.type fits.whole.maps hn
    exact (ht _ he).2.typed
  | slot hn hv =>
    obtain ⟨t, ht⟩ := fits.store.backings.type fits.whole.backings hn
    exact (ht.2 _ hv).typed
  | cell hn =>
    obtain ⟨t, ht⟩ := fits.store.cells.type fits.whole.cells hn
    exact ht.typed
  | queued hn hv =>
    obtain ⟨t, ht⟩ := fits.store.channels.type fits.whole.channels hn
    exact (ht _ hv).typed
  | tableKey hn he =>
    obtain ⟨t, ht⟩ := fits.store.tables.type fits.whole.tables hn
    exact (ht _ he).1
  | tableValue hn he =>
    obtain ⟨t, ht⟩ := fits.store.tables.type fits.whole.tables hn
    exact (ht _ he).2
  | global hn hg => exact fits.store.globals hn _ hg (by simp [fits.whole.hidden])
  | part _ hj ih => exact (Item.typed_iff.mp ih).2 _ hj

structure Made (S : Session) (s : Nat) (h : Handle) : Prop where
  occurs : S.Occurs (.script (.handle h))
  maker : S.makers[h.id]? = some (some s)

theorem Fits.exists_maker (fits : S.Fits W) {h : Handle} (occurs : S.Occurs (.script (.handle h))) :
    ∃ s, h.MadeBy W s := (Script.typed_handle.mp (fits.occurs occurs)).1

theorem Fits.madeBy (fits : S.Fits W) {s : Nat} {h : Handle} (made : S.Made s h) :
    h.MadeBy W s := by
  obtain ⟨s', made'⟩ := fits.exists_maker made.occurs
  have maker := made.maker
  rw [fits.makers, made'.maker] at maker
  cases maker
  exact made'

end Session

/-- Everything in the storage that a value names is assignable to the type it is declared with, and
so is every field of a struct. -/
def Value.Sound (st : Store) : Value → Prop
  | .map m => ∃ es, st.maps.get? m.id = some es ∧
    ∀ e ∈ es, m.key.accepts e.key = true ∧ m.elem.accepts e.value = true
  | .slice w => ∃ items, st.backings.get? w.backing = some items ∧
    ∀ i < w.cap, ∃ v, items[w.offset + i]? = some v ∧ w.elem.accepts v = true
  | .struct t vs => vs.length = t.fields.length ∧
    ∀ (i : Nat) (f : Field) (v : Value), t.fields[i]? = some f → vs[i]? = some v →
      f.type.accepts v = true
  | .ptr p => ∀ i, p.cell = some i → ∃ v, st.cells.get? i = some v ∧ p.elem.accepts v = true
  | .chan c => ∃ ch, st.channels.get? c.id = some ch ∧ ∀ v ∈ ch.queue, c.elem.accepts v = true
  | _ => True

theorem Value.sound_of_typed {st : Store} (ht : Store.Typed W st) {v : Value} (hv : v.Typed W) :
    v.Sound st := by
  cases v with
  | map m =>
    obtain ⟨es, hes, fits⟩ := ht.maps.get (typed_map.mp hv)
    exact ⟨es, hes, fun e he => ⟨(fits e he).1.accepts, (fits e he).2.accepts⟩⟩
  | slice w =>
    obtain ⟨n, hn, bounds⟩ := typed_slice.mp hv
    obtain ⟨items, hitems, size, fits⟩ := ht.backings.get hn
    refine ⟨items, hitems, fun i hi => ?_⟩
    have inside : w.offset + i < items.size := by
      dsimp only at size
      omega
    exact ⟨_, Array.getElem?_eq_getElem inside, (fits _ (Array.getElem_mem inside)).accepts⟩
  | struct t vs => exact (typed_struct.mp hv).1
  | ptr p =>
    intro i hi
    obtain ⟨v, hv, fits⟩ := ht.cells.get (typed_ptr.mp hv i hi)
    exact ⟨v, hv, fits.accepts⟩
  | chan c =>
    obtain ⟨view, made⟩ := Chan.declared hv
    obtain ⟨ch, hch, fits⟩ := ht.channels.get made
    exact ⟨ch, hch, fun u hu => (fits u hu).accepts⟩
  | nil | bool _ | int _ _ | uint _ _ | float _ _ | complex _ _ _ | string _ | func _ | address _
  | boxed _ => trivial

namespace Session

/-- Type safety of storage. After any run of a host program whose functions work by checked
actions, every value there is has sound storage. -/
theorem Run.sound {host : Host} (hhost : ∀ n, (host n).Checked []) {as : List Action} {S : Session}
    (run : Run { host } as S) {v : Value} (occurs : S.Occurs (.value v)) : v.Sound S.store := by
  obtain ⟨W, -, fits⟩ := run.exists_fits hhost
  have hv : v.Typed W := fits.occurs occurs
  exact Value.sound_of_typed fits.store hv

end Session

theorem Body.checked_arguments : Body.arguments.Checked [] :=
  fun args _ => ⟨[] ++ args, .start, by simp⟩

theorem Session.sound_append :
    (Value.slice ⟨.string, 0, 0, 1, 4⟩).Sound
      (((({ host := fun _ => Body.arguments } : Session).perform
        (.host (.withCapacity .string 0 4))).perform (.host (.plain (.string "a")))).perform
        (.host (.append ⟨.string, 0, 0, 0, 4⟩ [.string "a"]))).store := by
  refine Run.sound (fun _ => Body.checked_arguments)
    (.act (.act (.act (.start _) ?_) ?_) ?_) (.held ?_)
  · exact ⟨List.nil_subset _, by simp [Action.state?]⟩
  · exact ⟨List.nil_subset _, by simp [Action.state?]⟩
  · exact ⟨List.Subset.refl _, by simp [Action.state?]⟩
  · exact List.mem_cons_of_mem _ (List.mem_cons_of_mem _ (List.mem_singleton_self _))

end HostBridge
