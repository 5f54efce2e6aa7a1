import HostBridge.Bridge.Text
import HostBridge.Proofs.Map.Key
import HostBridge.Proofs.Script.Registry

namespace HostBridge

/-- What a reference names, whatever type or direction it is seen with. -/
inductive Place
  | chan (id : Nat)
  | map (id : Nat)
  | slice (backing offset len : Nat)
  | ptr (cell : Option Nat)

def Place.kind : Place → HandleKind
  | .chan _ => .chan
  | .map _ => .map
  | .slice .. => .slice
  | .ptr _ => .ptr

def Value.place? : Value → Option Place
  | .chan c => some (.chan c.id)
  | .map m => some (.map m.id)
  | .slice w => some (.slice w.backing w.offset w.len)
  | .ptr p => some (.ptr p.cell)
  | _ => none

theorem Value.same_iff_place {v w : Value} {p : Place} (hv : v.place? = some p) :
    v.same w = true ↔ v.place? = w.place? := by
  cases v with
  | chan | map | slice | ptr => cases w <;> simp [same, place?, and_assoc]
  | _ => cases hv

inductive Identity
  | nil
  | bool (b : Bool)
  | number (bits : UInt64)
  | string (s : String)
  | function (id : Nat)
  | table (id : Nat)
  | state (id : Nat)
  | handle (id : Nat)
  | reference (operators : OperatorTable) (place : Place)

namespace Handle

def place? (h : Handle) : Option Place :=
  match h.payload with
  | .value v => v.place?
  | .type _ => none

def identity (h : Handle) : Identity :=
  match h.table, h.place? with
  | some t, some p => .reference t p
  | _, _ => .handle h.id

variable {W : World} {s s' : Nat} {h k : Handle}

theorem MadeBy.supports_eq (made : h.MadeBy W s) {t : OperatorTable} (ht : h.table = some t) :
    t.supports .eq = true ↔ ∃ p, h.place? = some p := by
  obtain ⟨kind, -⟩ := made.table ht
  obtain ⟨set, k⟩ := t
  obtain ⟨i, payload, t⟩ := h
  match payload with
  | .value (.chan _) | .value (.map _) | .value (.slice _) | .value (.ptr _) | .value (.struct ..)
  | .type _ =>
    cases kind
    simp [place?, Value.place?, OperatorTable.supports, HandleKind.operators]
  | .value .nil | .value (.bool _) | .value (.int ..) | .value (.uint ..) | .value (.float ..)
  | .value (.complex ..) | .value (.string _) | .value (.func _) | .value (.address _)
  | .value (.boxed _) => cases kind

theorem MadeBy.exists_table (made : h.MadeBy W s) {p : Place} (hp : h.place? = some p) :
    ∃ t, h.table = some t := by
  cases ht : h.table with
  | some t => exact ⟨t, rfl⟩
  | none =>
    obtain ⟨c, -, inert⟩ := made.inert ht
    obtain ⟨i, payload, t⟩ := h
    match payload with
    | .value (.chan _) | .value (.map _) | .value (.slice _) | .value (.ptr _) => exact inert.elim
    | .value .nil | .value (.bool _) | .value (.int ..) | .value (.uint ..) | .value (.float ..)
    | .value (.complex ..) | .value (.string _) | .value (.func _) | .value (.struct ..)
    | .value (.address _) | .value (.boxed _) | .type _ => cases hp

theorem MadeBy.identity_eq (made : h.MadeBy W s) {p : Place} (hp : h.place? = some p) :
    ∃ t, h.table = some t ∧ t.supports .eq = true ∧ h.identity = .reference t p := by
  obtain ⟨t, ht⟩ := made.exists_table hp
  exact ⟨t, ht, (made.supports_eq ht).mpr ⟨p, hp⟩, by simp [identity, ht, hp]⟩

theorem identity_of_place (hp : h.place? = none) : h.identity = .handle h.id := by
  simp [identity, hp]

theorem exists_value_of_place {p : Place} (hp : h.place? = some p) :
    ∃ v, h.payload = .value v ∧ v.place? = some p := by
  simp only [place?] at hp
  split at hp
  · exact ⟨_, by assumption, hp⟩
  · cases hp

theorem kind_of_place {p : Place} (hp : h.place? = some p) : h.payload.kind? = some p.kind := by
  obtain ⟨v, hv, place⟩ := exists_value_of_place hp
  rw [hv]
  cases v <;> first | (cases place; rfl) | cases place

theorem same_iff : (Script.handle h).same (.handle k) = true ↔ h.id = k.id ∨
    ∃ t v w, h.table = some t ∧ k.table = some t ∧ t.supports .eq = true ∧
      h.payload = .value v ∧ k.payload = .value w ∧ v.same w = true := by
  obtain ⟨i, payload, t⟩ := h
  obtain ⟨j, payload', u⟩ := k
  rcases payload with v | _ <;> rcases payload' with w | _ <;> rcases t with _ | t <;>
    rcases u with _ | u <;> simp [Script.same, Script.rawSame]
  grind

theorem MadeBy.same_iff_identity (made : h.MadeBy W s) (made' : k.MadeBy W s') :
    (Script.handle h).same (.handle k) = true ↔ h.identity = k.identity := by
  rw [same_iff]
  constructor
  · rintro (eq | ⟨t, v, w, ht, hk, eq, hv, hw, same⟩)
    · rw [made.eq_of_id made' eq]
    · obtain ⟨p, hp⟩ := (made.supports_eq ht).mp eq
      have place : v.place? = some p := by simpa [place?, hv] using hp
      have hq : k.place? = some p := by
        simpa [place?, hw, place, eq_comm] using (Value.same_iff_place place).mp same
      simp [identity, ht, hk, hp, hq]
  · intro eq
    cases hp : h.place? <;> cases hq : k.place?
    · rw [identity_of_place hp, identity_of_place hq] at eq
      exact .inl (Identity.handle.inj eq)
    · obtain ⟨t, -, -, reference⟩ := made'.identity_eq hq
      rw [identity_of_place hp, reference] at eq
      cases eq
    · obtain ⟨t, -, -, reference⟩ := made.identity_eq hp
      rw [identity_of_place hq, reference] at eq
      cases eq
    · obtain ⟨t, ht, supports, reference⟩ := made.identity_eq hp
      obtain ⟨u, hu, -, reference'⟩ := made'.identity_eq hq
      rw [reference, reference'] at eq
      cases eq
      obtain ⟨v, hv, place⟩ := exists_value_of_place hp
      obtain ⟨w, hw, place'⟩ := exists_value_of_place hq
      have same : v.same w = true := (Value.same_iff_place place).mpr (place.trans place'.symm)
      exact .inr ⟨t, v, w, ht, hu, supports, hv, hw, same⟩

theorem MadeBy.same_iff_table (made : h.MadeBy W s) (made' : k.MadeBy W s') {p q : Place}
    (hp : h.place? = some p) (hq : k.place? = some q) :
    (Script.handle h).same (.handle k) = true ↔ p = q ∧ h.table = k.table := by
  obtain ⟨t, ht, -, reference⟩ := made.identity_eq hp
  obtain ⟨u, hu, -, reference'⟩ := made'.identity_eq hq
  rw [made.same_iff_identity made', reference, reference', ht, hu, Identity.reference.injEq,
    Option.some.injEq, and_comm]

theorem MadeBy.same_iff_place (made : h.MadeBy W s) (made' : k.MadeBy W s)
    (own : ∀ {set}, W.Uses s set → W.sets s = some set) {p q : Place}
    (hp : h.place? = some p) (hq : k.place? = some q) :
    (Script.handle h).same (.handle k) = true ↔ p = q := by
  rw [made.same_iff_table made' hp hq]
  refine and_iff_left_of_imp fun eq => ?_
  obtain ⟨t, ht⟩ := made.exists_table hp
  obtain ⟨u, hu⟩ := made'.exists_table hq
  obtain ⟨kind, uses⟩ := made.table ht
  obtain ⟨kind', uses'⟩ := made'.table hu
  rw [kind_of_place hp] at kind
  rw [kind_of_place hq, ← eq] at kind'
  obtain ⟨set, _⟩ := t
  obtain ⟨set', _⟩ := u
  cases kind
  cases kind'
  cases (own uses).symm.trans (own uses')
  rw [ht, hu]

theorem MadeBy.same_iff_eq (made : h.MadeBy W s) (made' : k.MadeBy W s') (other : h.place? = none) :
    (Script.handle h).same (.handle k) = true ↔ h = k := by
  rw [made.same_iff_identity made']
  refine ⟨fun eq => ?_, fun eq => congrArg identity eq⟩
  rw [identity_of_place other] at eq
  cases hq : k.place? with
  | none =>
    rw [identity_of_place hq] at eq
    exact made.eq_of_id made' (Identity.handle.inj eq)
  | some q =>
    obtain ⟨u, -, -, reference⟩ := made'.identity_eq hq
    rw [reference] at eq
    cases eq

end Handle

namespace Script

def identity : Script → Identity
  | .nil => .nil
  | .bool b => .bool b
  | .number x => .number x.keyBits
  | .string s => .string s
  | .function f => .function f.id
  | .table i => .table i
  | .handle h => h.identity
  | .state i => .state i

def isNaN : Script → Bool
  | .number x => x.isNaN
  | _ => false

theorem same_iff_identity {W : World} {x y : Script} (hx : x.isNaN = false) (hy : y.isNaN = false)
    (made : ∀ h, x = .handle h → ∃ s, h.MadeBy W s)
    (made' : ∀ h, y = .handle h → ∃ s, h.MadeBy W s) :
    x.same y = true ↔ x.identity = y.identity := by
  have other (h : Handle) : h.identity = .handle h.id ∨ ∃ t p, h.identity = .reference t p := by
    simp only [Handle.identity]
    split <;> simp
  cases x with
  | handle h =>
    obtain ⟨s, made⟩ := made h rfl
    cases y with
    | handle k =>
      obtain ⟨s', made'⟩ := made' k rfl
      exact made.same_iff_identity made'
    | _ => obtain eq | ⟨t, p, eq⟩ := other h <;> simp [same, rawSame, identity, eq]
  | number n =>
    cases y with
    | number m => simpa [same, rawSame, identity] using Double.same_iff_keyBits hx hy
    | handle k => obtain eq | ⟨t, p, eq⟩ := other k <;> simp [same, rawSame, identity, eq]
    | _ => simp [same, rawSame, identity]
  | _ =>
    cases y with
    | handle k => obtain eq | ⟨t, p, eq⟩ := other k <;> simp [same, rawSame, identity, eq]
    | _ => simp [same, rawSame, identity]

end Script

theorem Value.toScript_made {W : World} {s : Nat} (hs : s < W.configs.length) {v : Value}
    (hv : v.Typed W) {p : Place} (place : v.place? = some p) :
    Safe (some s) W (v.toScript s) fun W' x =>
      ∃ h : Handle, x = .handle h ∧ h.payload = .value v ∧ h.MadeBy W' s ∧
        (Payload.value v).Typed W' := by
  cases v with
  | chan | map | slice | ptr => exact Handle.make_made hs rfl hv
  | _ => cases place

namespace Session

variable {W : World} {S : Session}

/-- What scripts compare: handles that there are, and any other values except a NaN. -/
def Comparable (S : Session) (x : Script) : Prop :=
  x.isNaN = false ∧ ∀ h, x = .handle h → S.Occurs (.script x)

def Unmoved (S : Session) (as : List Action) (s : Nat) : Prop :=
  ∀ set, ¬S.Forced as s set ∧ ¬S.Lent as s set

/-- Equality of the script language, as scripts of a session know it to which actions `as` have
led. -/
structure Equality (as : List Action) (S : Session) : Prop where
  equivalence : Equivalence fun x y : {x : Script // S.Comparable x} => x.1.same y.1 = true
  references : ∀ {s s' : Nat} {h k : Handle} {v w : Value} {p q : Place}, S.Made s h →
    S.Made s' k → h.payload = .value v → k.payload = .value w → v.place? = some p →
    w.place? = some q →
      ((Script.handle h).same (.handle k) = true ↔ p = q ∧ h.table = k.table) ∧
        (v.same w = true ↔ p = q)
  own : ∀ {s : Nat} {h k : Handle} {p q : Place}, S.Made s h → S.Made s k → h.place? = some p →
    k.place? = some q → (∀ set, ¬S.Forced as s set) →
      ((Script.handle h).same (.handle k) = true ↔ p = q)
  others : ∀ {h k : Handle}, S.Occurs (.script (.handle h)) → S.Occurs (.script (.handle k)) →
    h.place? = none → ((Script.handle h).same (.handle k) = true ↔ h = k)
  apart : ∀ {s s' : Nat} {h k : Handle}, S.Made s h → S.Made s' k → s ≠ s' → S.Unmoved as s →
    S.Unmoved as s' → (Script.handle h).same (.handle k) = false
  conversions : ∀ {s : Nat} {v w : Value} {p q : Place} {x y : Script} {st st' : Store}
    {bs : List Action} {S' : Session}, v.place? = some p → w.place? = some q →
      S.Allows (.convert s v) → v.toScript s S.store = .ok x st →
      Run (S.perform (.convert s v)) bs S' → S'.Allows (.convert s w) →
      w.toScript s S'.store = .ok y st' →
      (∀ set, ¬S'.Forced (as ++ .convert s v :: bs) s set) → (x.same y = true ↔ p = q)

theorem Fits.same_iff_identity (fits : S.Fits W) {x y : Script} (hx : S.Comparable x)
    (hy : S.Comparable y) : x.same y = true ↔ x.identity = y.identity :=
  Script.same_iff_identity hx.1 hy.1 (fun h eq => fits.exists_maker (eq ▸ hx.2 h eq))
    fun h eq => fits.exists_maker (eq ▸ hy.2 h eq)

theorem Fits.convert (fits : S.Fits W) {s : Nat} {v : Value} {p : Place} (place : v.place? = some p)
    (allowed : S.Allows (.convert s v)) {x : Script} {st : Store}
    (eq : v.toScript s S.store = .ok x st) :
    ∃ W' h, W.Extends (some s) W' ∧ (S.perform (.convert s v)).Fits W' ∧ x = .handle h ∧
      h.payload = .value v ∧ h.MadeBy W' s := by
  have hs : s < W.configs.length := Nat.lt_of_lt_of_eq (allowed.2 s rfl) fits.store.states
  have hv : v.Typed W := fits.held _ (allowed.1 (List.mem_singleton_self _))
  have safe := Value.toScript_made hs hv place S.store fits.store
  rw [eq] at safe
  obtain ⟨W', le, ht, h, rfl, payload, made, typed⟩ := safe
  refine ⟨W', h, le, ⟨?_, fits.whole.mono le.toGrows⟩, rfl, payload, made⟩
  have out : Action.run S.host (.convert s v) S.store = .ok [.script (.handle h)] st := bind_ok eq
  simp only [Session.perform, out]
  refine fits.toLives.leave le ht (List.forall_mem_singleton.mpr ?_)
  exact Script.typed_handle.mpr ⟨⟨s, made⟩, payload ▸ typed⟩

theorem Fits.not_swapped (fits : S.Fits W) {as : List Action} (rules : W.rules = .of as) {s : Nat}
    (unforced : ∀ set, ¬S.Forced as s set) {c : Config} (hc : W.configs[s]? = some c) (set : Nat) :
    ¬W.rules.swapped s c.registryKey set := by
  rw [rules]
  intro swapped
  have under : W.Under s (.registrySet s · .tables set ∈ as) := ⟨c, hc, swapped⟩
  exact unforced set (fits.of_under under)

theorem Fits.maker_of_table (fits : S.Fits W) {as : List Action} (rules : W.rules = .of as)
    {s : Nat} (unmoved : S.Unmoved as s) {h : Handle} (made : h.MadeBy W s) {t : OperatorTable}
    (ht : h.table = some t) : S.makers[t.set]? = some (some s) := by
  have built := fits.sets_or_forced rules (made.table ht).2
  exact (fits.maker_or_lent rules (built.resolve_right (unmoved _).1)).resolve_right (unmoved _).2

theorem Fits.same_iff_place (fits : S.Fits W) {as : List Action} (rules : W.rules = .of as)
    {s : Nat} {h k : Handle} (made : S.Made s h) (made' : S.Made s k)
    (unforced : ∀ set, ¬S.Forced as s set) {p q : Place} (hp : h.place? = some p)
    (hq : k.place? = some q) : (Script.handle h).same (.handle k) = true ↔ p = q := by
  have own {set} (uses : W.Uses s set) : W.sets s = some set :=
    (fits.sets_or_forced rules uses).resolve_right (unforced set)
  exact (fits.madeBy made).same_iff_place (fits.madeBy made') own hp hq

/-- Script equality, after any run. -/
theorem Run.equality {host : Host} (hhost : ∀ n, (host n).Checked []) {as : List Action}
    {S : Session} (run : Run { host } as S) : S.Equality as := by
  obtain ⟨W, rules, fits⟩ := run.fits_of hhost
  constructor
  case equivalence =>
    constructor
    · exact fun x => (fits.same_iff_identity x.2 x.2).mpr rfl
    · intro x y h
      exact (fits.same_iff_identity y.2 x.2).mpr ((fits.same_iff_identity x.2 y.2).mp h).symm
    · intro x y z h h'
      have first := (fits.same_iff_identity x.2 y.2).mp h
      exact (fits.same_iff_identity x.2 z.2).mpr
        (first.trans ((fits.same_iff_identity y.2 z.2).mp h'))
  case references =>
    intro s s' h k v w p q made made' hv hw hp hq
    refine ⟨(fits.madeBy made).same_iff_table (fits.madeBy made') ?_ ?_, ?_⟩
    · simpa [Handle.place?, hv] using hp
    · simpa [Handle.place?, hw] using hq
    · simpa [hp, hq] using Value.same_iff_place (w := w) hp
  case own =>
    intro s h k p q made made' hp hq unforced
    exact fits.same_iff_place rules made made' unforced hp hq
  case others =>
    intro h k occurs occurs' other
    obtain ⟨s, made⟩ := fits.exists_maker occurs
    obtain ⟨s', made'⟩ := fits.exists_maker occurs'
    exact made.same_iff_eq made' other
  case apart =>
    intro s s' h k made made' ne unmoved unmoved'
    have made := fits.madeBy made
    have made' := fits.madeBy made'
    refine Bool.eq_false_iff.mpr fun same => ne ?_
    -- they would be one handle or share their tables, and either has one maker
    rcases Handle.same_iff.mp same with eq | ⟨t, _, _, ht, ht', -⟩
    · cases made.maker.symm.trans (eq ▸ made'.maker)
      rfl
    · have maker := fits.maker_of_table rules unmoved made ht
      cases maker.symm.trans (fits.maker_of_table rules unmoved' made' ht')
      rfl
  case conversions =>
    -- the second handle is made in a later world, where the tables of the first one are known
    intro s v w p q x y st st' bs S' hp hq allowed converted between allowed' converted' unforced
    have within : W.rules.Within (.of (as ++ .convert s v :: bs)) :=
      rules ▸ Rules.within_of (by simp)
    obtain ⟨W₁, h, le, fits₁, rfl, hv, made⟩ := (fits.relax within).convert hp allowed converted
    have permitted : ∀ a ∈ bs, W₁.rules.Permits a := fun a ha =>
      le.rules ▸ Rules.permits_of (by simp [ha])
    obtain ⟨W₂, le₁, rules₂, fits₂⟩ := between.fits fits₁ permitted
    obtain ⟨W₃, k, le₂, -, rfl, hw, made'⟩ := fits₂.convert hq allowed' converted'
    have hs : s < W₂.configs.length := Nat.lt_of_lt_of_eq (allowed'.2 s rfl) fits₂.store.states
    have hc := fits₂.store.config (fits₂.store.state hs)
    have unswapped := fits₂.not_swapped (rules₂.trans le.rules) unforced hc
    rw [← le₂.rules] at unswapped
    have own {set} (uses : W₃.Uses s set) : W₃.sets s = some set :=
      uses.built (getElem?_of_isPrefix le₂.below.configs hc) (unswapped set)
    refine ((made.mono le₁).mono le₂.below).same_iff_place made' own ?_ ?_
    · simpa [Handle.place?, hv] using hp
    · simpa [Handle.place?, hw] using hq

theorem equality_views :
    let c : Chan := ⟨.string, .both, 0⟩
    let h : Handle := ⟨1, .value (.chan c), some ⟨0, .chan⟩⟩
    let k : Handle := ⟨2, .value (.chan (c.restrict .send)), some ⟨0, .chan⟩⟩
    let as : List Action := [.newState {}, .host (.makeChan .string 1), .host (.restrict c .send),
      .convert 0 (.chan c), .convert 0 (.chan (c.restrict .send))]
    let S := ((((({ host := fun _ => Body.arguments } : Session).perform (.newState {})).perform
      (.host (.makeChan .string 1))).perform (.host (.restrict c .send))).perform
      (.convert 0 (.chan c))).perform (.convert 0 (.chan (c.restrict .send)))
    S.Equality as ∧ S.Made 0 h ∧ S.Made 0 k ∧ (Script.handle h).same (.handle k) = true := by
  intro c h k as S
  refine ⟨Run.equality (fun _ => Body.checked_arguments)
    (.act (.act (.act (.act (.act (.start _) ?_) ?_) ?_) ?_) ?_), ⟨.held ?_, rfl⟩, ⟨.held ?_, rfl⟩,
    by decide⟩
  · exact allows_of_none (List.nil_subset _) rfl
  · exact allows_of_none (List.nil_subset _) rfl
  · exact allows_of_none (List.Subset.refl _) rfl
  · refine allows_of_some ?_ rfl (by decide)
    exact List.cons_subset.mpr ⟨List.mem_cons_self, List.nil_subset _⟩
  · refine allows_of_some ?_ rfl (by decide)
    exact List.cons_subset.mpr ⟨.tail _ List.mem_cons_self, List.nil_subset _⟩
  · exact .tail _ (.tail _ List.mem_cons_self)
  · exact .tail _ (.tail _ (.tail _ List.mem_cons_self))

/-- A state loses its tables, and they are moved into the slot of another that has built its own.
The handle of a map that this one makes then is not equal to the one it has made before, but to the
one of the first state. -/
theorem equality_moved :
    let m : Map := ⟨.string, .bool, 0⟩
    let key := ({} : Config).registryKey
    ∃ (h k l : Handle) (st : Store), (do
        let _ ← Map.make .string .bool
        let set ← State.operators 0
        let first ← (Value.map m).toScript 0
        let second ← (Value.map m).toScript 1
        State.registrySet 0 key "cache" 7
        let shared := SlotType.isShared (← get) .tables set
        State.registrySet 1 key .tables set
        let third ← (Value.map m).toScript 1
        return (shared, [first, second, third]) : BridgeM (Bool × List Script))
          { states := ⟨#[{}, {}]⟩ } = .ok (false, [.handle h, .handle k, .handle l]) st ∧
      (Script.handle k).same (.handle l) = false ∧ (Script.handle h).same (.handle l) = true := by
  intro m key
  let handle (i set : Nat) : Handle := ⟨i, .value (.map m), some ⟨set, .map⟩⟩
  exact ⟨handle 1 0, handle 3 2, handle 5 0, _, rfl, by decide, by decide⟩

end Session

end HostBridge
