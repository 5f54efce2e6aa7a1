import HostBridge.Proofs.Conversion.Form

/-! Registries of states over time. A slot keeps what it holds until the host program puts something
else there; a state builds one set of operator tables, which all of its handles have; and an object
that the host program has put in the way of the tables stops just those conversions that ask for
one. -/

namespace HostBridge

namespace Slot

variable {type : SlotType} {slot : Slot}

def of (id : Nat) : (type : SlotType) → type.Content → Slot
  | .tables, set => .operators set
  | .foreign name, value => .foreign id name value

@[simp] theorem as?_of (id : Nat) (value : type.Content) : (of id type value).as? type = value := by
  cases type with
  | tables => rfl
  | foreign name => exact if_pos rfl

theorem as?_eq_none : slot.as? type = none ↔ ∀ id old, slot ≠ of id type old := by
  cases type <;> cases slot <;> simp [as?, of, eq_comm]

end Slot

namespace State

variable {st st' : Store} {s : Nat} {key : String}

/-- One slot has an object, and the others are as they were. -/
structure Puts (st : Store) (s : Nat) (key : String) (slot : Slot) (st' : Store) : Prop where
  here : slot? st' s key = some slot
  elsewhere : ∀ {j : Nat} {other : String}, (j = s → other ≠ key) →
    slot? st' j other = slot? st j other

theorem puts_setSlot (st : Store) (hs : s < st.states.size) (key : String) (slot : Slot) :
    Puts st s key slot (setSlot s key slot st).2 where
  here := (slot?_setSlot st s key slot).trans (if_pos hs)
  elsewhere := by
    intro j other ne
    by_cases eq : j = s
    · subst eq
      rw [slot?, setSlot_eq, state_set, if_pos hs]
      exact (Assoc.find_put ..).trans (if_neg (ne rfl))
    · simp [slot?, setSlot_eq, Store.state, Heap.get?_set, Ne.symm eq]

theorem hasTables_setSlot (st : Store) (hs : s < st.states.size) (set : Nat) :
    HasTables (setSlot s (st.state s).config.registryKey (.operators set) st).2 s set := by
  rw [HasTables, config_setSlot, (puts_setSlot st hs _ _).here]

theorem operators_built (hs : s < st.states.size) {set : Nat} (h : operators s st = .ok set st') :
    HasTables st' s set ∧
      (HasTables st s set ∧ st' = st ∨
        slot? st s (st.state s).config.registryKey = none ∧ set = st.fresh) := by
  have read : (get : BridgeM Store) st = .ok st st := rfl
  simp only [operators] at h
  rw [bind_ok read] at h
  cases found : slot? st s (st.state s).config.registryKey with
  | none =>
    simp only [found] at h
    cases h
    exact ⟨hasTables_setSlot st.spent hs st.fresh, .inr ⟨rfl, rfl⟩⟩
  | some slot =>
    cases slot with
    | operators _ =>
      simp only [found] at h
      cases h
      exact ⟨found, .inl ⟨found, rfl⟩⟩
    | foreign _ _ _ =>
      simp only [found] at h
      cases h

/-- What a state does with its slots, in any store. -/
structure Slots (st : Store) (s : Nat) : Prop where
  found : ∀ {key : String} {type : SlotType} {id : Nat} {old : type.Content},
    slot? st s key = some (.of id type old) → registryGet st s key type = some old ∧
      ∀ value, registryGetOrInsert s key type value st = .ok old st
  collision : ∀ {key : String} {type : SlotType} {slot : Slot}, slot? st s key = some slot →
    (∀ id old, slot ≠ .of id type old) → registryGet st s key type = none ∧
      ∀ value, registryGetOrInsert s key type value st =
        .error (.error (.registryCollision key)) st
  filled : ∀ {key : String}, s < st.states.size → slot? st s key = none → ∀ type value,
    registryGet st s key type = none ∧ ∃ st', registryGetOrInsert s key type value st =
      .ok value st' ∧ Puts st s key (.of st.fresh type value) st'
  forced : ∀ {key : String}, s < st.states.size → ∀ type value,
    Puts st s key (.of st.fresh type value) (registrySet s key type value st).2
  operators : ∀ {set : Nat} {st' : Store}, s < st.states.size → operators s st = .ok set st' →
    HasTables st' s set ∧ (HasTables st s set ∧ st' = st ∨
      slot? st s (st.state s).config.registryKey = none ∧ set = st.fresh)
  convert : ∀ {v : Value} {stop : Stop BridgeError} {st' : Store},
    v.toScript s st = .error stop st' ↔ st' = st ∧ ∃ e, stop = .error e ∧ v.Refused st s e
  constructor : ∀ {t : Ty} {stop : Stop BridgeError} {st' : Store},
    Handle.constructor s t st = .error stop st' ↔ st' = st ∧
      stop = .error (.registryCollision (st.state s).config.registryKey) ∧ ∃ id type value,
        slot? st s (st.state s).config.registryKey = some (.foreign id type value)

theorem getOrInsert_found {type : SlotType} {id : Nat} {old : type.Content}
    (h : slot? st s key = some (.of id type old)) (value : type.Content) :
    registryGetOrInsert s key type value st = .ok old st := by
  simp only [registryGetOrInsert]
  rw [get_bind]
  simp only [h, Slot.as?_of]
  rfl

theorem getOrInsert_collision {type : SlotType} {slot : Slot} (h : slot? st s key = some slot)
    (other : ∀ id old, slot ≠ .of id type old) (value : type.Content) :
    registryGetOrInsert s key type value st = .error (.error (.registryCollision key)) st := by
  simp only [registryGetOrInsert]
  rw [get_bind]
  simp only [h, Slot.as?_eq_none.mpr other]
  rfl

theorem registrySet_puts (hs : s < st.states.size) (type : SlotType) (value : type.Content) :
    Puts st s key (.of st.fresh type value) (registrySet s key type value st).2 := by
  cases type with
  | tables => exact puts_setSlot st hs key (.operators value)
  | foreign name =>
    obtain ⟨here, elsewhere⟩ := puts_setSlot st.spent hs key (.foreign st.fresh name value)
    exact ⟨here, elsewhere⟩

theorem getOrInsert_filled (h : slot? st s key = none) (type : SlotType) (value : type.Content) :
    registryGetOrInsert s key type value st =
      .ok value (registrySet s key type value st).2 := by
  simp only [registryGetOrInsert]
  rw [get_bind]
  simp only [h]
  rfl

theorem constructor_eq_error {t : Ty} {stop : Stop BridgeError} :
    Handle.constructor s t st = .error stop st' ↔ st' = st ∧
      stop = .error (.registryCollision (st.state s).config.registryKey) ∧ ∃ id type value,
        slot? st s (st.state s).config.registryKey = some (.foreign id type value) := by
  rw [← not_usable_iff]
  constructor
  · intro failed
    by_cases usable : Usable st s
    · obtain ⟨x, st₁, made, -⟩ := Handle.exists_make usable .type (.type t)
      cases (show Handle.constructor s t st = _ from made).symm.trans failed
    · have refused := Handle.make_of_not_usable usable .type (.type t)
      cases (show Handle.constructor s t st = _ from refused).symm.trans failed
      exact ⟨rfl, rfl, usable⟩
  · rintro ⟨rfl, rfl, taken⟩
    exact Handle.make_of_not_usable taken _ _

theorem slots (st : Store) (s : Nat) : Slots st s where
  found h := ⟨by simp [registryGet, h], getOrInsert_found h⟩
  collision h other :=
    ⟨by simp [registryGet, h, Slot.as?_eq_none.mpr other], getOrInsert_collision h other⟩
  filled hs h type value :=
    ⟨by simp [registryGet, h], _, getOrInsert_filled h type value, registrySet_puts hs type value⟩
  forced := registrySet_puts
  operators hs h := operators_built hs h
  convert := Value.toScript_eq_error
  constructor := constructor_eq_error

end State

def World.pin (W : World) (s : Nat) (key : String) (slot : Slot) : World :=
  { W with pinned := fun j k => if j = s ∧ k = key then some slot else none }

namespace Session

variable {W : World} {S S' : Session} {as : List Action}

/-- The tables have been forced into the slot where the state has its own. -/
def Forced (S : Session) (as : List Action) (s set : Nat) : Prop :=
  .registrySet s (S.store.state s).config.registryKey .tables set ∈ as

/-- The tables are ones that the slot was to have if it was free. -/
def Lent (S : Session) (as : List Action) (s set : Nat) : Prop :=
  .registryGetOrInsert s (S.store.state s).config.registryKey .tables set ∈ as

/-- Each state has one set of operator tables at most, which is that of its handles and that in its
slot, where no others are put there by force. -/
structure HasSets (as : List Action) (sets : Nat → Option Nat) (S : Session) : Prop where
  handle : ∀ {s : Nat} {h : Handle} {kind : HandleKind}, S.Made s h → h.payload.kind? = some kind →
    ∃ set, h.table = some ⟨set, kind⟩ ∧ (sets s = some set ∨ S.Forced as s set)
  slot : ∀ {s set : Nat}, State.HasTables S.store s set → sets s = some set ∨ S.Forced as s set

structure Builds (as : List Action) (sets : Nat → Option Nat) (S : Session) : Prop where
  maker : ∀ {s set : Nat}, sets s = some set → S.makers[set]? = some (some s) ∨ S.Lent as s set
  apart : ∀ {s s' set : Nat}, sets s = some set → sets s' = some set →
    s = s' ∨ S.Lent as s set ∨ S.Lent as s' set
  stays : ∀ {s set : Nat}, sets s = some set →
    (∀ type value, .registrySet s (S.store.state s).config.registryKey type value ∉ as) →
      State.HasTables S.store s set

/-- What registries are like when actions `as` have led to a session, and actions `bs` from there to
another. -/
structure Registered (as bs : List Action) (S S' : Session) : Prop where
  slots : ∀ {s : Nat} {key : String} {slot : Slot},
    (∀ type value, .registrySet s key type value ∉ bs) → State.slot? S.store s key = some slot →
      State.slot? S'.store s key = some slot
  tables : ∃ sets : Nat → Option Nat, S.HasSets as sets ∧ S'.HasSets (as ++ bs) sets ∧
    S'.Builds (as ++ bs) sets
  handles : ∀ {s : Nat} {h k : Handle}, S.Made s h → S'.Occurs (.script (.handle k)) →
    k.id = h.id → k = h

theorem Fits.pin (fits : S.Fits W) {s : Nat} {key : String} {slot : Slot}
    (held : State.slot? S.store s key = some slot) : S.Lives (W.pin s key slot) := by
  have le : W.Below (W.pin s key slot) := { World.Below.refl W with }
  have ht := fits.store.mono le
  refine ⟨{ ht with pinned := ?_ }, fun i hi => (fits.held i hi).mono le, fits.host.mono le,
    fits.makers⟩
  intro j k slot' pinned
  simp only [World.pin] at pinned
  split at pinned
  · rename_i here
    obtain ⟨rfl, rfl⟩ := here
    cases pinned
    exact held
  · cases pinned

theorem Run.slot_eq (fits : S.Fits W) (run : Run S as S') {s : Nat} {key : String} {slot : Slot}
    (permitted : ∀ a ∈ as, W.rules.Permits a)
    (unforced : ∀ type value, .registrySet s key type value ∉ as)
    (held : State.slot? S.store s key = some slot) : State.slot? S'.store s key = some slot := by
  -- a world that pins the slot lets everything happen but what forces something into it
  have permitted' : ∀ a ∈ as, (W.pin s key slot).Permits a := fun a ha =>
    { rules := permitted a ha
      unpinned := by
        rintro j k type value rfl
        refine if_neg ?_
        rintro ⟨rfl, rfl⟩
        exact unforced type value ha
      shown := fun _ => by simp [World.pin, fits.whole.hidden] }
  obtain ⟨W', le, lives⟩ := run.lives (fits.pin held) permitted'
  refine lives.store.pinned ?_
  rw [le.pinned]
  exact if_pos ⟨rfl, rfl⟩

theorem Fits.of_under (fits : S.Fits W) {s : Nat} {P : String → Prop} (under : W.Under s P) :
    P (S.store.state s).config.registryKey := by
  obtain ⟨c, hc, hp⟩ := under
  have config := fits.store.config (fits.store.state (List.getElem?_eq_some_iff.mp hc).1)
  cases hc.symm.trans config
  exact hp

theorem Fits.sets_or_forced (fits : S.Fits W) (rules : W.rules = .of as) {s set : Nat}
    (uses : W.Uses s set) : W.sets s = some set ∨ S.Forced as s set := by
  refine uses.imp_right fun swapped => ?_
  rw [rules] at swapped
  exact fits.of_under swapped

theorem Fits.uses_of_slot (fits : S.Fits W) {s set : Nat} (h : State.HasTables S.store s set) :
    W.Uses s set := by
  have hs : s < W.configs.length := Nat.lt_of_lt_of_eq (Store.lt_of_slot h) fits.store.states
  have slot := fits.store.slot (fits.store.state hs)
  rw [show Assoc.find _ _ = _ from h] at slot
  exact slot.imp_right fun forced => ⟨_, fits.store.config (fits.store.state hs), forced.2⟩

theorem Fits.hasSets (fits : S.Fits W) (rules : W.rules = .of as) {sets : Nat → Option Nat}
    (le : ∀ {s set : Nat}, W.sets s = some set → sets s = some set) : S.HasSets as sets where
  handle := by
    intro s h kind made eq
    have made' := fits.madeBy made
    cases ht : h.table with
    | some t =>
      obtain ⟨kind', uses⟩ := made'.table ht
      cases eq.symm.trans kind'
      exact ⟨t.set, rfl, (fits.sets_or_forced rules uses).imp_left le⟩
    | none =>
      obtain ⟨c, -, inert⟩ := made'.inert ht
      simp only [Payload.kind?] at eq
      split at eq <;> simp_all [Payload.IsInert]
  slot h := (fits.sets_or_forced rules (fits.uses_of_slot h)).imp_left le

theorem Fits.maker_or_lent (fits : S.Fits W) (rules : W.rules = .of as) {s set : Nat}
    (h : W.sets s = some set) : S.makers[set]? = some (some s) ∨ S.Lent as s set := by
  rw [fits.makers]
  refine (fits.store.builder h).imp_right fun lent => ?_
  rw [rules] at lent
  exact fits.of_under lent

theorem Fits.builds (fits : S.Fits W) (rules : W.rules = .of as) : S.Builds as W.sets where
  maker := fits.maker_or_lent rules
  apart := by
    intro s s' set h h'
    rcases fits.maker_or_lent rules h, fits.maker_or_lent rules h' with ⟨made | lent, made' | lent'⟩
    · cases made.symm.trans made'
      exact .inl rfl
    · exact .inr (.inr lent')
    · exact .inr (.inl lent)
    · exact .inr (.inl lent)
  stays := by
    intro s set h unforced
    have hs : s < W.configs.length := Nat.lt_of_not_le fun beyond => by
      cases (fits.store.sets beyond).symm.trans h
    refine fits.store.hasTables hs ?_ h
    rw [rules]
    exact unforced

/-- Registries over time. -/
theorem Run.registered {host : Host} (hhost : ∀ n, (host n).Checked []) {bs : List Action}
    (run : Run { host } as S) (run' : Run S bs S') :
    Registered as bs S S' ∧ ∀ st s, State.Slots st s := by
  obtain ⟨W, rules, fits⟩ := run.fits_of hhost
  have within : W.rules.Within (.of (as ++ bs)) := rules ▸ Rules.within_of (by simp)
  have fits₁ := fits.relax within
  have permitted : ∀ a ∈ bs, (Rules.of (as ++ bs)).Permits a :=
    fun a ha => Rules.permits_of (List.mem_append_right as ha)
  obtain ⟨W', le, rules', fits'⟩ := run'.fits fits₁ permitted
  refine ⟨⟨run'.slot_eq fits₁ permitted, ?_, ?_⟩, State.slots⟩
  · exact ⟨W'.sets, fits.hasSets rules le.sets, fits'.hasSets rules' id, fits'.builds rules'⟩
  · intro s h k made occurs eq
    obtain ⟨_, made'⟩ := fits'.exists_maker occurs
    exact made'.eq_of_id ((fits₁.madeBy made).mono le) eq

theorem registered_taken :
    let m : Map := ⟨.string, .bool, 0⟩
    let h : Handle := ⟨1, .value (.map m), some ⟨0, .map⟩⟩
    let S := ((({ host := fun _ => Body.arguments } : Session).perform (.newState {})).perform
      (.host (.makeMap .string .bool))).perform (.convert 0 (.map m))
    let key := (S.store.state 0).config.registryKey
    let S' := S.perform (.registrySet 0 key "cache" 7)
    (Registered [.newState {}, .host (.makeMap .string .bool), .convert 0 (.map m)]
      [.registrySet 0 key "cache" 7] S S' ∧ ∀ st s, State.Slots st s) ∧ S.Made 0 h ∧ S'.Made 0 h ∧
      State.registryGet S.store 0 key .tables = some 0 ∧
      (Value.map m).toScript 0 S'.store = .error (.error (.registryCollision key)) S'.store := by
  intro m h S key S'
  refine ⟨Run.registered (fun _ => Body.checked_arguments) (.act (.act (.act (.start _) ?_) ?_) ?_)
    (.act (.start _) ?_), ⟨.held ?_, rfl⟩, ⟨.held ?_, rfl⟩, rfl, Value.toScript_refused ?_⟩
  · exact allows_of_none (List.nil_subset _) rfl
  · exact allows_of_none (List.nil_subset _) rfl
  · refine allows_of_some ?_ rfl (by decide)
    exact List.cons_subset.mpr ⟨List.mem_cons_self, List.nil_subset _⟩
  · exact allows_of_some (List.nil_subset _) rfl (by decide)
  · exact .tail _ List.mem_cons_self
  · exact .tail _ List.mem_cons_self
  · exact .collision rfl rfl

end Session

end HostBridge
