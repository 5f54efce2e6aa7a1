import HostBridge.Proofs.Typing.Host

namespace HostBridge

variable {worker : Option Nat} {W : World} {s : Nat}

theorem World.Below.state {W' : World} (le : W.Below W') (hs : s < W.configs.length) :
    s < W'.configs.length := Nat.lt_of_lt_of_le hs le.configs.length_le

namespace World

def built (W : World) (s set : Nat) : World :=
  { W with sets := fun j => if j = s then some set else W.sets j }

theorem extends_built {set : Nat} (h : W.sets s = none) : W.Extends worker (W.built s set) := by
  refine .of_makers_eq { Below.refl W with sets := ?_ } rfl rfl rfl rfl
  intro j set' hj
  have ne : j ≠ s := by
    rintro rfl
    rw [h] at hj
    cases hj
  simp [built, ne, hj]

end World

namespace Store.TypedBy

variable {V : World} {st : Store}

theorem state (ht : st.TypedBy V W) (hs : s < W.configs.length) :
    st.states.get? s = some (st.state s) := by
  have hs' : s < st.states.items.size := Nat.lt_of_lt_of_eq hs ht.states.symm
  simp [Store.state, Heap.get?, hs']

theorem setState (ht : st.TypedBy V W) (hs : s < W.configs.length) {sets : Nat → Option Nat}
    (hsets : ∀ j, j ≠ s → sets j = W.sets j) {new : State}
    (config : new.config = (st.state s).config)
    (globals : ∀ g ∈ new.globals, ¬W.hidden s g.1 → g.2.Typed V)
    (slot : Slot.Fits { W with sets } s new.config.registryKey
      (Assoc.find new.config.registryKey new.registry))
    (builder : ∀ {set : Nat}, sets s = some set → W.Origin s set)
    (pinned : ∀ {key : String} {slot : Slot}, W.pinned s key = some slot →
      Assoc.find key new.registry = some slot) :
    Store.TypedBy V { W with sets } { st with states := st.states.set s new } where
  maps := ht.maps
  backings := ht.backings
  cells := ht.cells
  channels := ht.channels
  tables := ht.tables
  fresh := ht.fresh
  handles := ht.handles
  sets := by
    intro j hj
    have ne : j ≠ s := by
      rintro rfl
      exact absurd hs (Nat.not_lt.mpr hj)
    exact (hsets j ne).trans (ht.sets hj)
  states := by simp [ht.states]
  globals := by
    intro j state hj
    rw [Heap.get?_set] at hj
    split at hj
    · rename_i eq
      cases hj
      exact eq.1 ▸ globals
    · exact ht.globals hj
  config := by
    intro j state hj
    rw [Heap.get?_set] at hj
    split at hj
    · rename_i eq
      cases hj
      rw [config, ← eq.1]
      exact ht.config (ht.state hs)
    · exact ht.config hj
  slot := by
    intro j state hj
    rw [Heap.get?_set] at hj
    split at hj
    · rename_i eq
      cases hj
      exact eq.1 ▸ slot
    · rename_i other
      have ne : j ≠ s := by
        rintro rfl
        exact other ⟨rfl, Nat.lt_of_lt_of_eq hs ht.states.symm⟩
      have fits := ht.slot hj
      generalize Assoc.find state.config.registryKey state.registry = slot at fits ⊢
      rcases slot with _ | ⟨set⟩ | _ <;> simpa [Slot.Fits, hsets j ne] using fits
  builder := by
    intro j set hj
    by_cases eq : j = s
    · subst eq
      exact builder hj
    · exact ht.builder ((hsets j eq).symm.trans hj)
  pinned := by
    intro j key slot hj
    have here : s < st.states.size := Nat.lt_of_lt_of_eq hs ht.states.symm
    by_cases eq : j = s
    · subst eq
      simpa [State.slot?, Store.state, Heap.get?_set, here] using pinned hj
    · simpa [State.slot?, Store.state, Heap.get?_set, Ne.symm eq] using ht.pinned hj

end Store.TypedBy

namespace Assoc

theorem forall_put {α : Type} {P : String × α → Prop} {key : String} {a : α}
    {l : List (String × α)} (ha : P (key, a)) (h : ∀ x ∈ l, P x) : ∀ x ∈ put key a l, P x := by
  induction l with
  | nil => simpa [put] using ha
  | cons x rest ih =>
    rw [List.forall_mem_cons] at h
    simp only [put]
    split
    · rename_i eq
      rw [List.forall_mem_cons]
      exact ⟨eq ▸ ha, h.2⟩
    · simpa [h.1] using ih h.2

theorem mem_of_find {α : Type} {key : String} {a : α} {l : List (String × α)}
    (h : find key l = some a) : (key, a) ∈ l := by
  induction l with
  | nil => cases h
  | cons x rest ih =>
    obtain ⟨k, b⟩ := x
    simp only [find, List.lookup_cons] at h ih
    split at h
    · rename_i eq
      cases h
      rw [beq_iff_eq.mp eq]
      exact List.mem_cons_self
    · exact List.mem_cons_of_mem _ (ih h)

end Assoc

namespace State

theorem drop_keeps (hs : s < W.configs.length) :
    Keeps worker W (drop s) fun _ _ => True := by
  apply Keeps.modifyGet
  intro st ht
  refine ⟨W, .refl W, ?_, trivial⟩
  have globals := ht.globals (ht.state hs)
  have slot := ht.slot (ht.state hs)
  exact ht.setState hs (fun _ _ => rfl) rfl globals slot ht.builder ht.pinned

theorem setGlobal_keeps (hs : s < W.configs.length) {name : String} {x : Script}
    (hx : x.Typed W) : Keeps worker W (setGlobal s name x) fun _ _ => True := by
  apply Keeps.modifyGet
  intro st ht
  refine ⟨W, .refl W, ?_, trivial⟩
  have globals := ht.globals (ht.state hs)
  have slot := ht.slot (ht.state hs)
  have bound : ∀ g ∈ Assoc.put name x (st.state s).globals, ¬W.hidden s g.1 → g.2.Typed W :=
    Assoc.forall_put (fun _ => hx) globals
  exact ht.setState hs (fun _ _ => rfl) rfl bound slot ht.builder ht.pinned

theorem typed_global {st : Store} (ht : Store.Typed W st) (hs : s < W.configs.length)
    {name : String} (shown : ¬W.hidden s name) : (global st s name).Typed W := by
  simp only [global]
  cases h : Assoc.find name (st.state s).globals with
  | none => exact Script.typed_nil
  | some x => exact ht.globals (ht.state hs) _ (Assoc.mem_of_find h) shown

theorem setSlot_keeps (hs : s < W.configs.length) {key : String} {slot : Slot}
    (free : W.pinned s key = none)
    (fits : ∀ c, W.configs[s]? = some c → c.registryKey = key → Slot.Fits W s key (some slot)) :
    Keeps worker W (setSlot s key slot) fun _ _ => True := by
  apply Keeps.modifyGet
  intro st ht
  refine ⟨_, .refl _, ?_, trivial⟩
  have hget := ht.state (s := s) hs
  have globals := ht.globals hget
  refine ht.setState hs (fun _ _ => rfl) rfl globals ?_ ht.builder fun {other slot'} held => ?_
  · rw [Assoc.find_put]
    split
    · rename_i eq
      exact eq ▸ fits _ (ht.config hget) eq
    · exact ht.slot hget
  · have ne : other ≠ key := by
      rintro rfl
      cases free.symm.trans held
    rw [Assoc.find_put, if_neg ne]
    exact ht.pinned held

/-- An object of the host program may go to any slot that is neither pinned nor kept, and to one
that is kept when there are no operator tables yet. -/
theorem registrySet_keeps (hs : s < W.configs.length) {key name : String} {value : UInt64}
    (free : W.pinned s key = none) (h : ∀ c, W.configs[s]? = some c → c.registryKey = key →
      W.rules.kept s key → W.sets s = none) :
    Keeps worker W (registrySet s key (.foreign name) value) fun _ _ => True := by
  apply Store.freshId_keeps.bind
  intro W' id _ hid
  obtain ⟨rfl, _⟩ := hid
  apply setSlot_keeps (W := W.made worker) hs free
  exact h

theorem pinned_of_free {st : Store} (ht : Store.Typed W st) {key : String}
    (free : slot? st s key = none) : W.pinned s key = none :=
  Option.eq_none_iff_forall_ne_some.mpr fun _ held => by cases free.symm.trans (ht.pinned held)

theorem sets_of_free {st : Store} (ht : Store.Typed W st) (hs : s < W.configs.length) {key : String}
    (free : slot? st s key = none) {c : Config} (hc : W.configs[s]? = some c)
    (eq : c.registryKey = key) : W.sets s = none := by
  have fits := ht.slot (ht.state hs)
  cases (ht.config (ht.state hs)).symm.trans hc
  rwa [eq, show Assoc.find key _ = none from free] at fits

theorem setOperators_keeps (hs : s < W.configs.length) {c : Config} (hc : W.configs[s]? = some c)
    (h : W.sets s = none) (free : W.pinned s c.registryKey = none) {set : Nat}
    (origin : W.Origin s set) :
    Keeps worker W (setSlot s c.registryKey (.operators set)) fun W' _ =>
      W'.sets s = some set := by
  apply Keeps.modifyGet
  intro st ht
  refine ⟨_, World.extends_built h, ?_, if_pos rfl⟩
  have ht' := ht.mono (World.extends_built h : W.Extends worker (W.built s set)).below
  have hget := ht.state hs
  have eq := ht.config hget
  rw [hc] at eq
  cases eq
  have globals := ht'.globals hget
  refine ht'.setState hs (fun j ne => if_neg ne) rfl globals ?_ ?_ fun {key slot} held => ?_
  · rw [Assoc.find_put, if_pos rfl]
    exact .inl (if_pos rfl)
  · intro set' built
    rw [if_pos rfl] at built
    cases built
    exact origin
  · have ne : key ≠ (st.state s).config.registryKey := by
      rintro rfl
      cases free.symm.trans held
    rw [Assoc.find_put, if_neg ne]
    exact ht.pinned held

theorem lend_keeps (hs : s < W.configs.length) {key : String} (free : W.pinned s key = none)
    (unset : ∀ c, W.configs[s]? = some c → c.registryKey = key → W.sets s = none) {set : Nat}
    (lent : W.rules.lent s key set) :
    Keeps worker W (registrySet s key .tables set) fun _ _ => True := by
  obtain ⟨c, hc⟩ : ∃ c, W.configs[s]? = some c := ⟨_, List.getElem?_eq_getElem hs⟩
  by_cases eq : c.registryKey = key
  · subst eq
    have origin : W.Origin s set := .inr ⟨c, hc, lent⟩
    exact (setOperators_keeps hs hc (unset c hc rfl) free origin).imp fun _ _ _ => trivial
  · apply setSlot_keeps hs free
    intro c' hc' eq'
    cases hc.symm.trans hc'
    exact absurd eq' eq

theorem registrySet_safe (hs : s < W.configs.length) {key : String} {type : SlotType}
    {value : type.Content} (free : W.pinned s key = none)
    (permitted : W.rules.Permits (.registrySet s key type value)) :
    Safe worker W (liftM (registrySet s key type value) : BridgeM Unit) fun _ _ => True := by
  apply Safe.lift
  cases type with
  | tables => exact setSlot_keeps hs free fun _ _ _ => .inr permitted
  | foreign name => exact registrySet_keeps hs free fun _ _ _ kept => absurd kept permitted

theorem registryGetOrInsert_safe (hs : s < W.configs.length) {key : String} {type : SlotType}
    {value : type.Content} (permitted : W.rules.Permits (.registryGetOrInsert s key type value)) :
    Safe worker W (registryGetOrInsert s key type value) fun _ _ => True := by
  apply Safe.get_bind
  intro st ht
  split
  · rename_i free
    have unset := fun c => sets_of_free ht hs free (c := c)
    have inserted : Keeps worker W (registrySet s key type value) fun _ _ => True := by
      cases type with
      | tables => exact lend_keeps hs (pinned_of_free ht free) unset permitted
      | foreign name =>
        exact registrySet_keeps hs (pinned_of_free ht free) fun c hc eq _ => unset c hc eq
    exact Safe.lift_bind inserted fun _ _ _ _ => Safe.pure trivial
  · split
    · exact Safe.pure trivial
    · exact Safe.refuse

theorem operators_safe (hs : s < W.configs.length) :
    Safe (some s) W (operators s) fun W' set => W'.Uses s set := by
  apply Safe.get_bind
  intro st ht
  have hget := ht.state hs
  have fits := ht.slot hget
  dsimp only
  split
  · rename_i set eq
    rw [show Assoc.find _ _ = _ from eq] at fits
    exact Safe.pure (fits.imp_right fun forced => ⟨_, ht.config hget, forced.2⟩)
  · exact Safe.refuse
  · rename_i eq
    have free := pinned_of_free ht eq
    rw [show Assoc.find _ _ = none from eq] at fits
    apply Safe.lift_bind Store.freshId_keeps
    intro W' set _ hset
    obtain ⟨rfl, made, _⟩ := hset
    refine Safe.lift_bind ?_ fun _ _ _ h => Safe.pure (.inl h)
    exact setOperators_keeps (W := W.made (some s)) hs (ht.config hget) fits free (.inl made)

end State

end HostBridge
