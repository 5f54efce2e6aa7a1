import HostBridge.Bridge.Call
import HostBridge.Proofs.Assignment.Frame
import HostBridge.Proofs.Conversion.Form

namespace HostBridge

structure Picky {α ε : Type} (refusal : String → String → ε) (x : EStateM (Stop ε) Store α) :
    Prop where
  mild : Mild x
  refused : ∀ {st stop st'}, x st = .error stop st' →
    ∃ expected got, stop = .error (refusal expected got)

namespace Picky

variable {α β ε : Type} {refusal : String → String → ε}

theorem pure (a : α) : Picky refusal (Pure.pure a) := ⟨Mild.pure a, fun h => nomatch h⟩

theorem lift {x : StateM Store α} (hx : ∀ st : Store, st.Grown (x st).2) :
    Picky refusal (liftM x) := ⟨Mild.lift hx, fun h => nomatch h⟩

theorem refuse (expected got : String) :
    Picky refusal (throw (.error (refusal expected got)) : EStateM (Stop ε) Store α) where
  mild _ := Yields.throw
  refused h := by
    cases h
    exact ⟨expected, got, rfl⟩

theorem bind {x : EStateM (Stop ε) Store α} {f : α → EStateM (Stop ε) Store β}
    (hx : Picky refusal x) (hf : ∀ a, Picky refusal (f a)) : Picky refusal (x >>= f) where
  mild := hx.mild.bind fun a => (hf a).mild
  refused {st stop st'} h := by
    cases eq : x st with
    | ok a st₁ =>
      rw [bind_ok eq] at h
      exact (hf a).refused h
    | error stop₁ st₁ =>
      rw [bind_error eq] at h
      cases h
      exact hx.refused eq

theorem host {x : HostM α} (hx : Picky .typeMismatch x) :
    Picky .typeMismatch (liftM x : BridgeM α) where
  mild st := by
    cases eq : x st with
    | ok a st' =>
      rw [Yields, host_ok eq]
      exact ⟨hx.mild.of_ok eq, trivial⟩
    | error stop st' =>
      obtain ⟨expected, got, rfl⟩ := hx.refused eq
      rw [Yields, host_error eq]
      exact ⟨hx.mild.of_error eq, _, rfl⟩
  refused {st stop st'} h := by
    cases eq : x st with
    | ok a st₁ =>
      rw [host_ok eq] at h
      cases h
    | error stop₁ st₁ =>
      obtain ⟨expected, got, rfl⟩ := hx.refused eq
      rw [host_error eq] at h
      cases h
      exact ⟨expected, got, rfl⟩

end Picky

namespace Script

theorem mismatch_of_toHost {hint : Ty} {x : Script} {stop : Stop BridgeError} {st st' : Store}
    (h : x.toHost hint st = .error stop st') :
    stop = .error (.typeMismatch hint.text x.typeText) := by
  match x, h with
  | .nil, h | .handle ⟨_, .value _, _⟩, h | .handle ⟨_, .type _, _⟩, h | .function _, h
  | .table _, h | .state _, h => cases h
  | .bool b, h =>
    simp only [toHost] at h
    split at h
    · cases h
    · cases h
    · cases h
      rfl
  | .number n, h =>
    simp only [toHost, Ty.ofNumber] at h
    split at h
    case h_6 =>
      cases h
      rfl
    all_goals cases h
  | .string t, h =>
    simp only [toHost] at h
    split at h
    · cases h
    · cases h
    · cases h
      rfl

theorem picky_toHost (hint : Ty) (x : Script) : Picky .typeMismatch (x.toHost hint) where
  mild := mild_toHost hint x
  refused h := ⟨_, _, mismatch_of_toHost h⟩

theorem picky_toHosts (ts : List Ty) (xs : List Script) : Picky .typeMismatch (toHosts ts xs) := by
  induction ts generalizing xs with
  | nil => exact Picky.pure _
  | cons t ts ih =>
    cases xs with
    | nil => exact Picky.pure _
    | cons x xs =>
      exact (picky_toHost t x).bind fun v => (ih xs).bind fun vs => Picky.pure _

end Script

namespace Slice

theorem picky_checkAll (elem : Ty) (vs : List Value) :
    Picky .typeMismatch (checkAll elem vs) := by
  induction vs with
  | nil => exact Picky.pure _
  | cons v vs ih =>
    refine Picky.bind ?_ fun _ => ih
    simp only [HostM.check]
    split
    · exact Picky.pure _
    · exact Picky.refuse _ _

theorem picky_ofList (elem : Ty) (vs : List Value) : Picky .typeMismatch (ofList elem vs) :=
  (picky_checkAll elem vs).bind fun _ =>
    (Picky.lift (Store.grown_newBacking _)).bind fun _ => Picky.pure _

end Slice

namespace Value

theorem toScript_ne_arity {v : Value} {st st' : Store} {s : Nat} {name : String}
    {expected got : Nat} :
    v.toScript s st ≠ .error (.error (.arity name expected got)) st' := by
  intro h
  by_cases form : v.HasForm st s
  · obtain ⟨x, st₁, converted, _⟩ := exists_toScript form
    cases converted.symm.trans h
  · match v, form with
    | .complex w x y, fatal =>
      simp only [toScript] at h
      rw [get_bind] at h
      cases policy : (st.state s).config.unsupported with
      | fatal =>
        simp only [policy] at h
        cases h
      | inert => exact fatal policy
    | .chan _, taken | .map _, taken | .slice _, taken | .struct .., taken | .ptr _, taken
    | .boxed ⟨_, .type _⟩, taken => cases (Handle.make_of_not_usable taken _ _).symm.trans h
    | .nil, formless | .bool _, formless | .int .., formless | .uint .., formless
    | .float .., formless | .string _, formless | .func _, formless | .address _, formless
    | .boxed ⟨_, .script _⟩, formless | .boxed ⟨_, .foreign _⟩, formless =>
      exact formless trivial

theorem toScripts_ne_arity {vs : List Value} {st st' : Store} {s : Nat} {name : String}
    {expected got : Nat} :
    toScripts s vs st ≠ .error (.error (.arity name expected got)) st' := by
  intro h
  induction vs generalizing st with
  | nil => cases h
  | cons v vs ih =>
    simp only [toScripts] at h
    cases first : v.toScript s st with
    | ok x st₁ =>
      rw [bind_ok first] at h
      cases rest : toScripts s vs st₁ with
      | ok xs st₂ =>
        rw [bind_ok rest] at h
        cases h
      | error stop st₂ =>
        rw [bind_error rest] at h
        cases h
        exact ih rest
    | error stop st₁ =>
      rw [bind_error first] at h
      cases h
      exact toScript_ne_arity first

end Value

end HostBridge
