import HostBridge.Proofs.Session.Independence
import HostBridge.Proofs.Storage.Instance

namespace HostBridge

variable {st st' : Store} {s : Nat} {t : Ty} {v : Value}

theorem Store.Gains.usable {rs : List Ref} (gains : st.Gains st' rs) (usable : State.Usable st s) :
    State.Usable st' s := by
  simpa only [State.Usable, State.slot?, Store.state, gains.states] using usable

structure Ty.Constructed (t : Ty) (st st' : Store) (k : Handle) (v : Value) : Prop where
  payload : k.payload = .value v
  kind : k.kind? = (Payload.value v).kind?
  type : v.type = t.instanceType
  zero : t.IsInstance st' v
  anew : v.Anew st st'

theorem Handle.call_constructor {h : Handle} (kind : h.kind? = some .type)
    (payload : h.payload = .type t) (usable : State.Usable st s) :
    ∃ k v st', h.call s st = .ok [.handle k] st' ∧ t.Constructed st st' k v := by
  obtain ⟨v, st₁, r, zs, made, zero, holds, zeros, gains⟩ := t.instantiate_gains st
  obtain ⟨kind', reference⟩ := zero.exists_kind
  obtain ⟨x, st₂, converted, -⟩ := exists_make (gains.usable usable) kind' (.value v)
  obtain ⟨id, set, rfl⟩ := eq_of_make converted
  rw [← Value.toScript_eq_make reference] at converted
  have wider := Store.Wider.of_grown ((Value.mild_toScript v).of_ok converted)
  refine ⟨⟨id, .value v, some ⟨set, kind'⟩⟩, v, st₂, ?_, rfl, reference.symm, zero.type,
    zero.mono wider, (holds.anew zeros gains).trans wider⟩
  have run : (liftM t.instantiate : BridgeM Value) st = .ok v st₁ :=
    congrArg (fun out : Value × Store => EStateM.Result.ok out.1 out.2) made
  simp only [call, kind, payload]
  rw [bind_ok run, bind_ok converted]
  rfl

theorem Script.call_handle (host : Host) (s : Nat) (h : Handle) (args : List Script) :
    (Script.handle h).call host s args = h.call s := by
  unfold call
  rfl

def Store.Apart (st : Store) (i j : Item) : Prop := ∀ r, i.Reaches st r → ¬j.Reaches st r

theorem Value.Anew.apart {st₁ st₂ : Store} {w : Value} (first : v.Anew st st₁)
    (wider : st₁.Wider st₂) (second : w.Anew st₂ st') : st'.Apart (.value v) (.value w) := by
  intro r reached shared
  have named := ((first.trans (wider.trans second.toWider)).reaches r).mp reached
  rw [first.spots_eq (wider.trans second.toWider)] at named
  exact (second.new r ((second.reaches r).mp shared)).1 (wider.has (first.new r named).2)

structure Constructors : Prop where
  call : ∀ {st : Store} {s : Nat} {h : Handle} {t : Ty}, h.kind? = some .type →
    h.payload = .type t → State.Usable st s → ∃ k v st',
      (∀ host args, (Script.handle h).call host s args st = .ok [.handle k] st') ∧
        t.Constructed st st' k v
  apart : ∀ {st st₁ st₂ st₃ : Store} {v w : Value}, v.Anew st st₁ → st₁.Wider st₂ →
    w.Anew st₂ st₃ → st₃.Apart (.value v) (.value w)
  withCapacity : ∀ elem len cap st, ∃ w st', Slice.withCapacity elem len cap st = (w, st') ∧
    w.Blank st' elem len (max cap len) ∧ (Value.slice w).Anew st st'
  append : ∀ {st st' : Store} {w w' : Slice} {vs : List Value}, w.cap < w.len + vs.length →
    w.append vs st = .ok w' st' → ∃ old spare, Slice.Outgrown st st' w vs w' old spare
  exists_append : ∀ {st : Store} {w : Slice} {vs : List Value},
    (∀ v ∈ vs, w.elem.accepts v = true) → w.cap < w.len + vs.length →
      w.len + vs.length < 2 ^ 63 → ∃ w' st', w.append vs st = .ok w' st'

theorem constructors : Constructors where
  call kind payload usable := by
    obtain ⟨k, v, st', eq, constructed⟩ := Handle.call_constructor kind payload usable
    refine ⟨k, v, st', fun host args => ?_, constructed⟩
    rw [Script.call_handle, eq]
  apart := Value.Anew.apart
  withCapacity := Slice.withCapacity_anew
  append := Slice.outgrown_of_append
  exists_append := Slice.exists_append

namespace Session

variable {W : World} {S S' T T' : Session}

structure Instances (S : Session) : Prop where
  apart : ∀ {s : Nat} {h : Handle} {t : Ty} {args : List Script},
    S.Allows (.call s (.handle h) args) → h.kind? = some .type → h.payload = .type t →
      State.Usable S.store s → ∃ k v,
        (S.perform (.call s (.handle h) args)).held = S.held ++ [.script (.handle k)] ∧
          t.Constructed S.store (S.perform (.call s (.handle h) args)).store k v ∧
            ∀ i, S.Occurs i → (S.perform (.call s (.handle h) args)).store.Apart i (.value v)
  /-- Whatever is done by those who reach nothing of what an instance leads to, all of it stays,
  and they do not come to reach it. -/
  untouched : ∀ {i : Item} {T T' : Session} {as : List Action}, S.Occurs i → S.Part T →
    (∀ r, i.Reaches S.store r → ¬T.Reaches as r) → Run T as T' → ∀ r,
      (i.Reaches T'.store r ↔ i.Reaches S.store r) ∧
        (i.Reaches S.store r → S.store.SameAt T'.store r ∧ ¬T'.Reaches as r)

theorem Fits.has_of_reaches (fits : S.Fits W) {i : Item} (occurs : S.Occurs i) {r : Ref}
    (reached : i.Reaches S.store r) : S.store.Has r :=
  ((fits.occurs occurs).declares_of_reaches fits.store reached).has fits.store

theorem Fits.apart (fits : S.Fits W) {st : Store} {v : Value} (anew : v.Anew S.store st) {i : Item}
    (occurs : S.Occurs i) : st.Apart i (.value v) := by
  intro r reached new
  have same : ∀ r, i.Reaches S.store r → S.store.SameAt st r := fun r h =>
    anew.same (fits.has_of_reaches occurs h)
  have there := fits.has_of_reaches occurs ((Item.Reaches.iff_of_same same).mp reached)
  exact (anew.new r ((anew.reaches r).mp new)).1 there

/-- Type constructors make independent instances, after any run. -/
theorem Run.instances {host : Host} (hhost : ∀ n, (host n).Checked []) {as : List Action}
    {S : Session} (run : Run { host } as S) : Constructors ∧ S.Instances := by
  obtain ⟨W, rules, fits⟩ := run.exists_fits hhost
  refine ⟨constructors, ?_, ?_⟩
  · intro s h t args allowed kind payload usable
    obtain ⟨k, v, st, called, constructed⟩ := constructors.call kind payload usable
    have out : Action.run S.host (.call s (.handle h) args) S.store =
      .ok [.script (.handle k)] st := bind_ok (called S.host args)
    simp only [perform, out]
    exact ⟨k, v, rfl, constructed, fun i occurs => fits.apart constructed.anew occurs⟩
  · intro i T T' bs occurs part apart run' r
    have stays {r : Ref} (h : i.Reaches S.store r) :
        S.store.SameAt T'.store r ∧ ¬T'.Reaches bs r :=
      part.untouched fits rules run' (fits.has_of_reaches occurs h) (apart r h)
    exact ⟨Item.Reaches.iff_of_same fun r h => (stays h).1, stays⟩

theorem instances_structs :
    let t : Ty := .struct ⟨"Box", [⟨"Items", .map .string .any, true⟩], []⟩
    let h : Handle := ⟨1, .type t, some ⟨0, .type⟩⟩
    let k : Handle := ⟨2, .value (.ptr ⟨t, some 0⟩), some ⟨0, .ptr⟩⟩
    let S := ((({ host := fun _ => Body.arguments } : Session).perform (.newState {})).perform
      (.constructor 0 t)).perform (.call 0 (.handle h) [])
    (Constructors ∧ S.Instances) ∧ State.Usable S.store 0 ∧
      S.Allows (.call 0 (.handle h) [.handle k]) ∧ S.Occurs (.script (.handle k)) := by
  intro t h k S
  have first : Item.script (.handle k) ∈ S.held := .tail _ List.mem_cons_self
  refine ⟨Run.instances (fun _ => Body.checked_arguments)
    (.act (.act (.act (.start _) ?_) ?_) ?_), trivial, ?_, .held first⟩
  · exact allows_of_none (List.nil_subset _) rfl
  · exact allows_of_some (List.nil_subset _) rfl (by decide)
  · exact allows_of_some (List.Subset.refl _) rfl (by decide)
  · refine allows_of_some ?_ rfl (by decide)
    exact List.cons_subset.mpr ⟨List.mem_cons_self, List.cons_subset.mpr ⟨first, List.nil_subset _⟩⟩

end Session

end HostBridge
