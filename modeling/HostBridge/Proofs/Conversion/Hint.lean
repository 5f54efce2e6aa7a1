import HostBridge.Proofs.Assignment.Alike
import HostBridge.Proofs.Conversion.Deep
import HostBridge.Proofs.Function.Arguments
import HostBridge.Proofs.Pointer.Classification
import HostBridge.Proofs.Storage.Fresh

namespace HostBridge

variable {st : Store}

/-- The hinted type has values of the kind of the script value. Nil goes with every type. -/
def Script.suits : Script → Ty → Bool
  | .nil, _ | _, .any => true
  | .bool _, .bool | .string _, .string => true
  | .number _, t => t.isNumeric
  | _, _ => false

mutual

def Value.Regular : Value → Prop
  | .int w i => w.Signed i.toInt
  | .uint w u => w.Unsigned u.toNat
  | .struct t vs => AllRegular t.fields vs
  | _ => True

def Value.AllRegular : List Field → List Value → Prop
  | [], [] => True
  | f :: fs, v :: vs => (f.type.accepts v = true ∧ v.Regular) ∧ AllRegular fs vs
  | _, _ => False

end

mutual

theorem Ty.IsZero.regular {t : Ty} {v : Value} (h : t.IsZero st v) :
    t.accepts v = true ∧ v.Regular := by
  cases t with
  | int w =>
    cases h
    exact ⟨Value.accepts_type (.int w 0), w.signed_zero⟩
  | uint w =>
    cases h
    exact ⟨Value.accepts_type (.uint w 0), w.unsigned_zero⟩
  | map k e =>
    obtain ⟨i, rfl, -⟩ := h
    exact ⟨Value.accepts_type (.map _), trivial⟩
  | slice e =>
    obtain ⟨i, rfl, -⟩ := h
    exact ⟨Value.accepts_type (.slice _), trivial⟩
  | struct t => exact StructTy.IsZero.regular h
  | ptr e =>
    cases h
    exact ⟨Value.accepts_type (.ptr _), trivial⟩
  | bool | float _ | complex _ | string =>
    cases h
    exact ⟨by simp [Ty.accepts, Value.type], trivial⟩
  | func _ | chan _ _ | any | address =>
    cases h
    exact ⟨rfl, trivial⟩

theorem StructTy.IsZero.regular {t : StructTy} {v : Value} (h : t.IsZero st v) :
    (Ty.struct t).accepts v = true ∧ v.Regular := by
  obtain ⟨name, fields, methods⟩ := t
  obtain ⟨vs, rfl, zeros⟩ := h
  exact ⟨Ty.accepts_struct, Field.AreZero.regular zeros⟩

theorem Field.AreZero.regular {fs : List Field} {vs : List Value} (h : Field.AreZero st fs vs) :
    Value.AllRegular fs vs := by
  match fs with
  | [] =>
    cases h
    trivial
  | ⟨_, t, _⟩ :: fs =>
    obtain ⟨v, ws, rfl, zero, zeros⟩ := h
    exact ⟨Ty.IsZero.regular zero, Field.AreZero.regular zeros⟩

end

theorem Ty.regular_of_ofNumber {t : Ty} {n : Double} {v : Value} (h : t.ofNumber n = .ok v) :
    t.accepts v = true ∧ v.Regular := by
  have proper : v.Proper {} := (deep_ofNumber h).proper
  cases t with
  | int w | uint w =>
    cases h
    exact ⟨by simp [accepts, Value.type], proper⟩
  | float w =>
    cases w with
    | w32 | w64 =>
      cases h
      exact ⟨rfl, trivial⟩
  | any =>
    cases h
    exact ⟨rfl, trivial⟩
  | _ => cases h

structure Ty.Takes (t : Ty) (v : Value) : Prop where
  accepts : t.accepts v = true
  key : ∀ {m : Map} {value : Value} {st st' : Store} {e : HostError}, m.key = t →
    m.insert v value st = .error (.error e) st' → (∃ type, e = .unhashable type) ∨
      m.elem.accepts value = false ∧ e = .typeMismatch m.elem.text value.typeText
  elem : ∀ {m : Map} {key : Value} {st st' : Store} {e : HostError}, m.elem = t →
    m.insert key v st = .error (.error e) st' → m.keyOf key = .error e
  item : ∀ {w : Slice} {i : Nat} {st st' : Store} {e : HostError}, w.elem = t →
    w.set i v st = .error (.error e) st' → e = .indexOutOfRange i w.len
  field : ∀ {u : StructTy} {vs : List Value} {i : Nat} {f : Field}, u.fields[i]? = some f →
    f.type = t → u.setAt vs i v = .ok (vs.set i v)
  named : ∀ {u : StructTy} {vs : List Value} {name : String} {i : Nat} {f : Field},
    u.field? name = some (i, f) → f.type = t → u.set vs name v = .ok (vs.set i v)
  pointee : ∀ {p : Pointer} {st st' : Store} {e : HostError}, p.elem = t →
    p.store v st = .error (.error e) st' → e = .nilPointer
  sent : ∀ {c : Chan} {e : HostError}, c.elem = t → c.maySend v = .error e →
    e = .direction .send c.type.text
  argument : ∀ {f : Function} {vs : List Value} {i : Nat} {e : HostError},
    f.sig.params[i]? = some t → vs[i]? = some v → f.admits vs = .error e →
      e = .arity f.sig.params.length vs.length ∨
        ∃ j u w, j ≠ i ∧ f.sig.params[j]? = some u ∧ vs[j]? = some w ∧ u.accepts w = false ∧
          e = .typeMismatch u.text w.typeText

theorem Ty.takes_of_accepts {t : Ty} {v : Value} (accepted : t.accepts v = true) : t.Takes v where
  accepts := accepted
  key := by
    rintro m value st st' e rfl failed
    rw [Map.insert_eq, Map.keyOf, if_pos accepted] at failed
    split at failed
    · rename_i unkeyed
      cases failed
      exact .inl (Key.unhashable_of_ofValue unkeyed)
    · split at failed
      · cases failed
      · rename_i refused
        cases failed
        exact .inr ⟨Bool.eq_false_iff.mpr refused, rfl⟩
  elem := by
    rintro m key st st' e rfl failed
    rw [Map.insert_eq] at failed
    split at failed
    · rename_i unkeyed
      cases failed
      exact unkeyed
    · rw [if_pos accepted] at failed
      cases failed
  item := by
    rintro w i st st' e rfl failed
    rw [Slice.set_eq, if_pos accepted] at failed
    split at failed
    · split at failed <;> cases failed
    · cases failed
      rfl
  field := by
    rintro u vs i f declared rfl
    simp only [StructTy.setAt, declared, if_pos accepted]
  named := by
    rintro u vs name i f found rfl
    simp only [StructTy.set, found, StructTy.setAt, StructTy.declared_of_field? found,
      if_pos accepted]
  pointee := by
    rintro p st st' e rfl failed
    simp only [Pointer.store, HostM.check, if_pos accepted] at failed
    cases cell : p.cell with
    | some c =>
      simp only [Pointer.write, cell] at failed
      cases failed
    | none =>
      simp only [Pointer.write, cell] at failed
      cases failed
      rfl
  sent := by
    rintro c e rfl refused
    simp only [Chan.maySend, accepted] at refused
    split at refused
    · cases refused
      rfl
    · cases refused
  argument := by
    rintro f vs i e declared given refused
    obtain ⟨-, rfl⟩ | ⟨j, u, w, hu, hw, mismatch, rfl⟩ := Function.refused_of_admits refused
    · exact .inl rfl
    · refine .inr ⟨j, u, w, ?_, hu, hw, mismatch, rfl⟩
      rintro rfl
      cases declared.symm.trans hu
      cases given.symm.trans hw
      cases mismatch.symm.trans accepted

namespace Script

structure Suited (x : Script) (hint : Ty) (st : Store) : Prop where
  converted : x.suits hint = true →
    ∃ v st', x.toHost hint st = .ok v st' ∧ hint.Takes v ∧ v.Regular
  refused : x.suits hint = false →
    x.toHost hint st = .error (.error (.typeMismatch hint.text x.typeText)) st

section

variable {x : Script} {hint : Ty} {v : Value} {st' : Store}

theorem suited_of_ok (suits : x.suits hint = true) (converted : x.toHost hint st = .ok v st')
    (good : hint.accepts v = true ∧ v.Regular) : x.Suited hint st where
  converted _ := ⟨v, st', converted, Ty.takes_of_accepts good.1, good.2⟩
  refused unsuited := absurd (suits.symm.trans unsuited) Bool.noConfusion

theorem suited_of_error (unsuited : x.suits hint = false)
    (refused : x.toHost hint st = .error (.error (.typeMismatch hint.text x.typeText)) st) :
    x.Suited hint st where
  converted suits := absurd (suits.symm.trans unsuited) Bool.noConfusion
  refused _ := refused

end

/-- A conversion under a hint fails exactly for the values of another kind. What it gives for the
others goes wherever the hinted type does. -/
theorem suited {x : Script} (plain : x.isReference = false) (hint : Ty) (st : Store) :
    x.Suited hint st := by
  cases x with
  | nil => exact suited_of_ok rfl rfl (hint.zero_gains st).1.regular
  | bool b =>
    cases hint with
    | bool | any => exact suited_of_ok rfl rfl ⟨rfl, trivial⟩
    | _ => exact suited_of_error rfl rfl
  | string t =>
    cases hint with
    | string | any => exact suited_of_ok rfl rfl ⟨rfl, trivial⟩
    | _ => exact suited_of_error rfl rfl
  | number n =>
    cases hint with
    | int _ | uint _ | any => exact suited_of_ok rfl rfl (Ty.regular_of_ofNumber rfl)
    | float w =>
      cases w with
      | w32 | w64 => exact suited_of_ok rfl rfl (Ty.regular_of_ofNumber rfl)
    | _ => exact suited_of_error rfl rfl
  | handle _ | function _ | table _ | state _ => cases plain

theorem suited_nil :
    Suited .nil (.struct ⟨"Port", [⟨"In", .chan .receive (.int .w64), true⟩,
      ⟨"On", .struct ⟨"Hooks", [⟨"Done", .func ⟨[], [], false⟩, true⟩], []⟩, true⟩], []⟩) {} :=
  suited rfl _ {}

end Script

end HostBridge
