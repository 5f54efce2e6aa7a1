import HostBridge.Proofs.Map.Key
import HostBridge.Proofs.Typing.Allocation

namespace HostBridge

variable {D : String → StructTy}

mutual

/-- Whether there is no interface in what keys of the type are compared by. A name stands for one
struct type, which `D` gives. -/
def Ty.Keyable (D : String → StructTy) : Ty → Prop
  | .any => False
  | .struct t => t.Keyable D
  | _ => True

def StructTy.Keyable (D : String → StructTy) : StructTy → Prop
  | ⟨name, fields, methods⟩ => D name = ⟨name, fields, methods⟩ ∧ Field.AllKeyable D fields

def Field.AllKeyable (D : String → StructTy) : List Field → Prop
  | [] => True
  | ⟨_, t, _⟩ :: fs => t.Keyable D ∧ Field.AllKeyable D fs

end

mutual

def Value.Declared (D : String → StructTy) : Value → Prop
  | .struct t vs => D t.name = t ∧ Field.Accept t.fields vs ∧ Value.AllDeclared D vs
  | _ => True

def Value.AllDeclared (D : String → StructTy) : List Value → Prop
  | [] => True
  | v :: vs => v.Declared D ∧ Value.AllDeclared D vs

end

structure Value.Admissible (D : String → StructTy) (v : Value) : Prop where
  nanFree : v.nanFree = true
  declared : v.Declared D

def Ty.Shapes : Ty → Value → Prop
  | .bool, v => ∃ b, v = .bool b
  | .int w, v => ∃ i, v = .int w i
  | .uint w, v => ∃ u, v = .uint w u
  | .float w, v => ∃ x, v = .float w x
  | .complex w, v => ∃ x y, v = .complex w x y
  | .string, v => ∃ s, v = .string s
  | .func _, v => ∃ f, v = .func f
  | .chan .., v => ∃ c, v = .chan c
  | .map .., v => ∃ m, v = .map m
  | .slice _, v => ∃ w, v = .slice w
  | .struct t, v => ∃ u vs, v = .struct u vs ∧ u.name = t.name
  | .ptr _, v => ∃ p, v = .ptr p
  | .address, v => ∃ a, v = .address a
  | .any, _ => True

theorem Signature.ident_eq (s : Signature) :
    s.ident = .func (Ty.idents s.params) (Ty.idents s.results) s.variadic := by
  cases s
  rfl

theorem Ty.shapes_of_accepts {t : Ty} {v : Value} (h : t.accepts v = true) :
    v = .nil ∨ t.Shapes v := by
  cases t <;> cases v <;>
    simp_all [accepts, Shapes, Value.type, ident, Signature.ident_eq, Chan.type, Map.type,
      Slice.type, Pointer.type]

theorem Key.eq_nil_of_ofValue {v : Value} (h : ofValue v = .ok .nil) : v = .nil := by
  cases v with
  | nil => rfl
  | struct t vs =>
    obtain ⟨ks, _, eq⟩ := ofValue_struct h
    cases eq
  | _ => cases h

theorem Field.accept_cons_iff {f : Field} {fs : List Field} {v : Value} {vs : List Value} :
    Accept (f :: fs) (v :: vs) ↔ f.type.accepts v = true ∧ Accept fs vs := by
  refine ⟨fun h => ⟨h.2 0 f v rfl rfl, by simpa using h.1, fun i => h.2 (i + 1)⟩,
    fun h => accept_cons h.1 h.2⟩

mutual

theorem Ty.alike_of_accepts (t : Ty) {a b : Value} (keyable : t.Keyable D) (ha : t.accepts a = true)
    (hb : t.accepts b = true) (da : a.Declared D) (db : b.Declared D) {k : Key}
    (ka : Key.ofValue a = .ok k) (kb : Key.ofValue b = .ok k) : a.alike b = true := by
  -- only nil has the key of nil, so both values are nil or none is
  obtain rfl | shapeA := Ty.shapes_of_accepts ha
  · cases ka
    rw [Key.eq_nil_of_ofValue kb, Value.alike]
  obtain rfl | shapeB := Ty.shapes_of_accepts hb
  · cases kb
    rw [Key.eq_nil_of_ofValue ka, Value.alike]
  cases t with
  | any => exact keyable.elim
  | struct t =>
    obtain ⟨u, vs, rfl, nameA⟩ := shapeA
    obtain ⟨u', ws, rfl, nameB⟩ := shapeB
    exact StructTy.alike_of_name t keyable nameA nameB da db ka kb
  | complex w =>
    obtain ⟨x, y, rfl⟩ := shapeA
    obtain ⟨x', y', rfl⟩ := shapeB
    simp [Value.alike]
  | _ =>
    obtain ⟨x, rfl⟩ := shapeA
    obtain ⟨y, rfl⟩ := shapeB
    simp [Value.alike]

theorem StructTy.alike_of_name (t : StructTy) (keyable : t.Keyable D) {u u' : StructTy}
    {vs ws : List Value} (nameA : u.name = t.name) (nameB : u'.name = t.name)
    (da : (Value.struct u vs).Declared D) (db : (Value.struct u' ws).Declared D) {k : Key}
    (ka : Key.ofValue (.struct u vs) = .ok k)
    (kb : Key.ofValue (.struct u' ws) = .ok k) :
    (Value.struct u vs).alike (.struct u' ws) = true := by
  obtain ⟨name, fields, methods⟩ := t
  obtain ⟨declA, acceptA, partsA⟩ := da
  obtain ⟨declB, acceptB, partsB⟩ := db
  obtain ⟨decl, keyableFields⟩ := keyable
  rw [nameA, decl] at declA
  rw [nameB, decl] at declB
  subst declA declB
  obtain ⟨ks, kv, rfl⟩ := Key.ofValue_struct ka
  obtain ⟨ls, kw, eq⟩ := Key.ofValue_struct kb
  cases eq
  have fieldwise :=
    Field.alikeAll_of_accept fields keyableFields acceptA acceptB partsA partsB kv kw
  simp [Value.alike, fieldwise]

theorem Field.alikeAll_of_accept (fs : List Field) {vs ws : List Value}
    (keyable : Field.AllKeyable D fs) (hv : Field.Accept fs vs) (hw : Field.Accept fs ws)
    (dv : Value.AllDeclared D vs) (dw : Value.AllDeclared D ws) {ks : Keys}
    (kv : Keys.ofValues vs = .ok ks) (kw : Keys.ofValues ws = .ok ks) :
    Value.alikeAll vs ws = true := by
  match fs with
  | [] =>
    rw [List.eq_nil_of_length_eq_zero hv.1, List.eq_nil_of_length_eq_zero hw.1, Value.alikeAll]
  | ⟨_, t, _⟩ :: fs =>
    obtain ⟨v, vs, rfl⟩ := List.exists_cons_of_length_eq_add_one hv.1
    obtain ⟨w, ws, rfl⟩ := List.exists_cons_of_length_eq_add_one hw.1
    obtain ⟨hv, hvs⟩ := Field.accept_cons_iff.mp hv
    obtain ⟨hw, hws⟩ := Field.accept_cons_iff.mp hw
    obtain ⟨k, ks, headV, tailV, rfl⟩ := Keys.ofValues_cons kv
    obtain ⟨l, ls, headW, tailW, eq⟩ := Keys.ofValues_cons kw
    cases eq
    simp only [Value.alikeAll, Bool.and_eq_true]
    exact ⟨Ty.alike_of_accepts t keyable.1 hv hw dv.1 dw.1 headV headW,
      Field.alikeAll_of_accept fs keyable.2 hvs hws dv.2 dw.2 tailV tailW⟩

end

/-- Under a type without interfaces one key means equal values. -/
theorem Ty.same_iff_key {t : Ty} {a b : Value} (keyable : t.Keyable D) (ha : t.accepts a = true)
    (hb : t.accepts b = true) (da : a.Admissible D) (db : b.Admissible D) {k l : Key}
    (ka : Key.ofValue a = .ok k) (kb : Key.ofValue b = .ok l) : a.same b = true ↔ k = l := by
  constructor
  · intro h
    exact (Value.same_iff_key (Value.alike_of_same h) da.nanFree db.nanFree ka kb).mp h
  · rintro rfl
    have alike := t.alike_of_accepts keyable ha hb da.declared db.declared ka kb
    exact (Value.same_iff_key alike da.nanFree db.nanFree ka kb).mpr rfl

end HostBridge
