import HostBridge.Proofs.Typing.Session

namespace HostBridge

variable {W : World} {st : Store} {s : Nat}

def Store.spent (st : Store) : Store := { st with fresh := st.fresh + 1 }

def State.HasTables (st : Store) (s set : Nat) : Prop :=
  State.slot? st s (st.state s).config.registryKey = some (.operators set)

namespace State

theorem HasTables.spent {set : Nat} (h : HasTables st s set) : HasTables st.spent s set := h

theorem operators_eq {set : Nat} (h : HasTables st s set) : operators s st = .ok set st := by
  have read : (get : BridgeM Store) st = .ok st st := rfl
  simp only [HasTables] at h
  simp only [operators]
  rw [bind_ok read]
  simp only [h]
  rfl

end State

namespace Handle

theorem make_eq {set : Nat} (h : State.HasTables st s set) (kind : HandleKind)
    (payload : Payload) :
    make s kind payload st = .ok (.handle ⟨st.fresh, payload, some ⟨set, kind⟩⟩) st.spent := by
  simp only [make]
  rw [bind_ok (State.operators_eq h)]
  rfl

def renew (h : Handle) (i : Nat) : Handle := { h with id := i }

end Handle

namespace Value

theorem toScript_eq_make {v : Value} {kind : HandleKind}
    (h : (Payload.value v).kind? = some kind) :
    v.toScript s = Handle.make s kind (.value v) := by
  simp only [Payload.kind?] at h
  split at h <;> cases h <;> simp_all [toScript]

theorem toScript_eq_inert {v : Value}
    (h : (Payload.value v).IsInert (st.state s).config.unsupported) :
    v.toScript s st = .ok (.handle ⟨st.fresh, .value v, none⟩) st.spent := by
  simp only [Payload.IsInert] at h
  split at h
  · rename_i eq
    cases eq
    rfl
  · rename_i eq
    cases eq
    rfl
  · rename_i w x y eq
    cases eq
    have read : (get : BridgeM Store) st = .ok st st := rfl
    simp only [toScript]
    rw [bind_ok read]
    simp only [h]
    rfl
  · exact h.elim

end Value

theorem Double.same_self {x : Double} (h : x.isNaN = false) : x.same x = true := by
  simp [same, h]

theorem Store.TypedBy.hasTables (ht : Store.Typed W st) (hs : s < W.configs.length)
    (kept : W.rules.kept s (st.state s).config.registryKey) {set : Nat}
    (built : W.sets s = some set) : State.HasTables st s set := by
  have fits := ht.slot (ht.state hs)
  unfold State.HasTables State.slot?
  generalize Assoc.find (st.state s).config.registryKey (st.state s).registry = slot at fits ⊢
  match slot with
  | none => cases fits.symm.trans built
  | some (.operators _) =>
    have built' := fits.resolve_right fun forced => forced.1 kept
    cases built'.symm.trans built
    rfl
  | some (.foreign ..) => cases (fits kept).symm.trans built

namespace Script

def isReference : Script → Bool
  | .handle _ | .function _ | .table _ | .state _ => true
  | _ => false

def roundTrip (s : Nat) (hint : Ty) (x : Script) : BridgeM Script := do
  let v ← x.toHost hint
  v.toScript s

/-- What comes back is what was given: a handle with the payload and the table that it had, and
anything else itself. -/
def Returns : Script → Script → Prop
  | .handle h, y => ∃ i, y = .handle (h.renew i)
  | .number n, y => y = .number n ∧ (n.isNaN = false → (number n).rawSame y = true)
  | x, y => y = x ∧ x.rawSame y = true

theorem roundTrip_handle (ht : Store.Typed W st) (hs : s < W.configs.length)
    (kept : W.rules.kept s (st.state s).config.registryKey)
    (own : ∀ set, ¬W.rules.swapped s (st.state s).config.registryKey set) {h : Handle}
    (made : h.MadeBy W s) (hint : Ty) :
    ∃ i st', roundTrip s hint (.handle h) st = .ok (.handle (h.renew i)) st' := by
  obtain ⟨id, payload, table⟩ := h
  have hc := ht.config (ht.state hs)
  cases table with
  | some t =>
    obtain ⟨set, k⟩ := t
    obtain ⟨kind, uses⟩ := made.table rfl
    have tables := ht.hasTables hs kept (World.Uses.built uses hc (own set))
    cases payload with
    | value v =>
      refine ⟨st.fresh, st.spent, ?_⟩
      change v.toScript s st = _
      rw [Value.toScript_eq_make kind, Handle.make_eq tables]
      rfl
    | type u =>
      cases kind
      refine ⟨st.spent.fresh, st.spent.spent, ?_⟩
      change Handle.make s .type (.type u) st.spent = _
      rw [Handle.make_eq tables.spent]
      rfl
  | none =>
    obtain ⟨c, hc', inert⟩ := made.inert rfl
    rw [hc] at hc'
    cases hc'
    cases payload with
    | value v =>
      refine ⟨st.fresh, st.spent, ?_⟩
      change v.toScript s st = _
      rw [Value.toScript_eq_inert inert]
      rfl
    | type u => exact inert.elim

theorem roundTrip_reference {x : Script} (hx : x.isReference = true)
    (other : ∀ h, x ≠ .handle h) (s : Nat) (hint : Ty) (st : Store) :
    roundTrip s hint x st = .ok x st.spent := by
  cases x with
  | handle h => exact absurd rfl (other h)
  | function f => rfl
  | table i => rfl
  | state i => rfl
  | nil | bool _ | number _ | string _ => cases hx

theorem roundTrip_plain {x : Script} (hx : x.isReference = false) (s : Nat) (st : Store) :
    roundTrip s .any x st = .ok x st := by
  cases x with
  | nil | bool _ | number _ | string _ => rfl
  | handle _ | function _ | table _ | state _ => cases hx

end Script

namespace Session

def Owns (S : Session) (s : Nat) : Script → Prop
  | .handle h => S.Occurs (.script (.handle h)) ∧ S.makers[h.id]? = some (some s)
  | _ => True

/-- Script to host to script is the identity. Every value that scripts of a state may have comes
back from the host, as long as nobody has put an object of the host program into the slot of the
operator tables. -/
theorem Run.roundTrip {host : Host} (hhost : ∀ n, (host n).Checked []) {as : List Action}
    {S : Session} (run : Run { host } as S) {s : Nat} (hs : s < S.store.states.size)
    (kept : ∀ type value, .registrySet s (S.store.state s).config.registryKey type value ∉ as)
    {x : Script} (owned : S.Owns s x) {hint : Ty} (fit : hint = .any ∨ x.isReference = true) :
    ∃ y st', x.roundTrip s hint S.store = .ok y st' ∧ x.Returns y := by
  obtain ⟨W, rules, fits⟩ := run.fits_of hhost
  have hs' : s < W.configs.length := Nat.lt_of_lt_of_eq hs fits.store.states
  have kept' : W.rules.kept s (S.store.state s).config.registryKey := by
    rw [rules]
    exact kept
  have own : ∀ set, ¬W.rules.swapped s (S.store.state s).config.registryKey set := by
    rw [rules]
    exact kept .tables
  cases x with
  | handle h =>
    obtain ⟨occurs, maker⟩ := owned
    have typed : (Script.handle h).Typed W := fits.occurs occurs
    obtain ⟨⟨s', made⟩, _⟩ := Script.typed_handle.mp typed
    have eq := made.maker
    rw [← fits.makers, maker] at eq
    cases eq
    obtain ⟨i, st', ran⟩ := Script.roundTrip_handle fits.store hs' kept' own made hint
    exact ⟨_, st', ran, i, rfl⟩
  | function _ | table _ | state _ =>
    refine ⟨_, _, Script.roundTrip_reference rfl (by simp) s hint S.store, rfl, ?_⟩
    simp [Script.rawSame]
  | nil | bool _ | string _ =>
    obtain rfl : hint = .any := by simpa [Script.isReference] using fit
    refine ⟨_, _, Script.roundTrip_plain rfl s S.store, rfl, ?_⟩
    simp [Script.rawSame]
  | number n =>
    obtain rfl : hint = .any := by simpa [Script.isReference] using fit
    exact ⟨_, _, Script.roundTrip_plain rfl s S.store, rfl, Double.same_self⟩

theorem roundTrip_constructor :
    ∃ y st', (Script.handle ⟨1, .type .string, some ⟨0, .type⟩⟩).roundTrip 0 .bool
        ((({ host := fun _ => Body.arguments } : Session).perform (.newState {})).perform
          (.constructor 0 .string)).store = .ok y st' ∧
      (Script.handle ⟨1, .type .string, some ⟨0, .type⟩⟩).Returns y := by
  refine Run.roundTrip (fun _ => Body.checked_arguments) (.act (.act (.start _) ?_) ?_)
    (by decide) (by simp) ?_ (.inr rfl)
  · exact ⟨List.nil_subset _, by simp [Action.state?]⟩
  · exact ⟨List.nil_subset _, by simp [Action.state?]; decide⟩
  · exact ⟨.held (List.mem_singleton_self _), rfl⟩

end Session

end HostBridge
