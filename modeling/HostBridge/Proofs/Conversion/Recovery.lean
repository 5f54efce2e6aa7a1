import HostBridge.Proofs.Assignment.Atomic
import HostBridge.Proofs.Conversion.RoundTrip
import HostBridge.Proofs.Number.Precision

namespace HostBridge

namespace IntWidth

theorem wrapSigned_of_signed {w : IntWidth} {n : Int} (h : w.Signed n) : w.wrapSigned n = n := by
  obtain ⟨low, high⟩ := h
  apply Int.bmod_eq_of_le low
  cases w <;> simp only [count] at high ⊢ <;> omega

theorem wrapUnsigned_of_unsigned {w : IntWidth} {n : Int} (h : w.Unsigned n) :
    w.wrapUnsigned n = n :=
  Int.emod_eq_of_lt h.1 h.2

end IntWidth

namespace Ty

theorem ofNumber_int {w : IntWidth} {i : Int64} (inside : w.Signed i.toInt)
    (exact : i.toInt.natAbs ≤ 2 ^ 53) :
    (Ty.int w).ofNumber (.ofInt i.toInt) = .ok (.int w i) := by
  have truncated : (Double.ofInt i.toInt).toInt64 = i.toInt :=
    Double.truncate_ofInt exact (by omega) (by omega)
  simp only [ofNumber, truncated, IntWidth.wrapSigned_of_signed inside, Int64.ofInt_toInt]

theorem ofNumber_uint {w : IntWidth} {u : UInt64} (inside : w.Unsigned u.toNat)
    (exact : u.toNat ≤ 2 ^ 53) :
    (Ty.uint w).ofNumber (.ofInt u.toNat) = .ok (.uint w u) := by
  have value : (Double.ofInt u.toNat).toRat? = some (u.toNat : ℚ) := Double.toRat?_ofInt exact
  have positive : (Double.ofInt u.toNat).isNegative = false := by
    rw [Double.isNegative_eq value]
    simp
  have truncated : (Double.ofInt u.toNat).toUInt64 = u.toNat :=
    Double.truncate_ofInt exact (by omega) (by omega)
  simp [ofNumber, positive, truncated, IntWidth.wrapUnsigned_of_unsigned inside]

end Ty

namespace Value

def isData : Value → Bool
  | .func _ | .boxed ⟨_, .script _⟩ => false
  | _ => true

def isHandled : Value → Bool
  | .chan _ | .map _ | .slice _ | .struct .. | .ptr _ | .address _ | .complex .. => true
  | .boxed ⟨_, .type _⟩ | .boxed ⟨_, .foreign _⟩ => true
  | _ => false

/-- What a value is when it comes back: itself. A number keeps its width, and all of its content if
both that width and a double hold it. A boxed type comes in a box of its own. -/
def Recovers : Value → Value → Prop
  | .int w i, u => ∃ j, u = .int w j ∧ (w.Signed i.toInt → i.toInt.natAbs ≤ 2 ^ 53 → j = i)
  | .uint w n, u => ∃ k, u = .uint w k ∧ (w.Unsigned n.toNat → n.toNat ≤ 2 ^ 53 → k = n)
  | .float .w32 x, u => ∃ y, u = .float .w32 y ∧ ((∃ z : Single, z.toDouble = x) → y = x)
  | .boxed ⟨_, .type t⟩, u => ∃ i, u = .boxed ⟨i, .type t⟩
  | v, u => u = v

theorem toScript_value {v : Value} (handled : v.isHandled = true)
    (notType : ∀ i t, v ≠ .boxed ⟨i, .type t⟩) {s : Nat} {st st' : Store} {x : Script}
    (h : v.toScript s st = .ok x st') : ∃ id table, x = .handle ⟨id, .value v, table⟩ := by
  match v with
  | .chan _ | .map _ | .slice _ | .struct .. | .ptr _ =>
    simp only [toScript] at h
    obtain ⟨id, set, rfl⟩ := Handle.eq_of_make h
    exact ⟨id, _, rfl⟩
  | .address _ | .boxed ⟨_, .foreign _⟩ =>
    cases h
    exact ⟨st.fresh, none, rfl⟩
  | .complex w a b =>
    have read : (get : BridgeM Store) st = .ok st st := rfl
    simp only [toScript] at h
    rw [bind_ok read] at h
    cases policy : (st.state s).config.unsupported with
    | fatal =>
      simp only [policy] at h
      cases h
    | inert =>
      simp only [policy] at h
      cases h
      exact ⟨st.fresh, none, rfl⟩
  | .boxed ⟨i, .type t⟩ => exact absurd rfl (notType i t)

/-- Host to script to host is the identity at the type of the value. A value that scripts get a
handle of comes back under every other type as well. -/
theorem toHost_toScript {v : Value} (data : v.isData = true) {s : Nat} {st st' : Store} {x : Script}
    (converted : v.toScript s st = .ok x st') :
    ∃ u st'', x.toHost v.type st' = .ok u st'' ∧ v.Recovers u ∧
      (v.isHandled = true → ∀ hint, x.toHost hint st' = .ok u st'') := by
  match v with
  | .nil | .bool _ | .string _ =>
    cases converted
    exact ⟨_, st, rfl, rfl, by simp [isHandled]⟩
  | .int w i =>
    cases converted
    refine ⟨_, st, rfl, ⟨_, rfl, fun inside exact => ?_⟩, by simp [isHandled]⟩
    simpa [Ty.ofNumber] using Ty.ofNumber_int inside exact
  | .uint w n =>
    cases converted
    refine ⟨_, st, rfl, ⟨_, rfl, fun inside exact => ?_⟩, by simp [isHandled]⟩
    simpa [Ty.ofNumber] using Ty.ofNumber_uint inside exact
  | .float .w32 y =>
    cases converted
    refine ⟨_, st, rfl, ⟨_, rfl, ?_⟩, by simp [isHandled]⟩
    rintro ⟨z, rfl⟩
    exact z.toDouble_toSingle_toDouble
  | .float .w64 y =>
    cases converted
    exact ⟨_, st, rfl, rfl, by simp [isHandled]⟩
  | .boxed ⟨i, .type t⟩ =>
    simp only [toScript] at converted
    obtain ⟨id, set, rfl⟩ := Handle.eq_of_make converted
    exact ⟨_, st'.spent, rfl, ⟨_, rfl⟩, fun _ _ => rfl⟩
  | .chan _ | .map _ | .slice _ | .struct .. | .ptr _ | .address _ | .complex ..
  | .boxed ⟨_, .foreign _⟩ =>
    obtain ⟨id, table, rfl⟩ := toScript_value rfl (by simp) converted
    exact ⟨_, st', rfl, rfl, fun _ _ => rfl⟩

theorem toHost_toScript_least :
    ∃ u st'', (Script.number (.ofInt (-0x20000000000000))).toHost (.int .word) {} = .ok u st'' ∧
      (Value.int .word (-0x20000000000000)).Recovers u ∧
        ((Value.int .word (-0x20000000000000)).isHandled = true → ∀ hint,
          (Script.number (.ofInt (-0x20000000000000))).toHost hint {} = .ok u st'') :=
  toHost_toScript (v := .int .word (-0x20000000000000)) (s := 0) rfl rfl

end Value

end HostBridge
