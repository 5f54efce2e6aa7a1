import HostBridge.Bridge.Index
import HostBridge.Proofs.Number.Integral

namespace HostBridge

namespace Script

variable {key : Script} {len j : Nat} {n : Int}

def clamp (n : Int) : Int := max (-2 ^ 63) (min (2 ^ 63 - 1) n)

theorem position_of_isNumber (h : key.IsNumber n) : key.position len =
    if clamp n < 1 ∨ (len : Int) < clamp n then .error (.indexOutOfRange (clamp n) len)
    else .ok (clamp n - 1).toNat := by
  obtain ⟨x, rfl, value⟩ := h
  simp only [position, if_pos (Double.isIntegral_iff.mpr ⟨n, value⟩), Double.toInt64_eq value,
    Double.towardZero_intCast]
  rfl

theorem position_lt (h : key.position len = .ok j) : j < len := by
  cases key with
  | number x =>
    simp only [position] at h
    split at h
    · split at h
      · cases h
      · cases h
        omega
    · cases h
  | _ => cases h

theorem position_inside (small : len < 2 ^ 63 - 1) (h : key.IsNumber (j + 1 : Nat))
    (inside : j < len) : key.position len = .ok j := by
  have same : clamp (j + 1 : Nat) = (j + 1 : Nat) := by
    simp only [clamp]
    omega
  rw [position_of_isNumber h, same, if_neg (by omega)]
  exact congrArg _ (by omega)

theorem position_outside (small : len < 2 ^ 63 - 1) (h : key.IsNumber n)
    (outside : n < 1 ∨ (len : Int) < n) :
    key.position len = .error (.indexOutOfRange (clamp n) len) := by
  rw [position_of_isNumber h, if_pos]
  simp only [clamp]
  omega

theorem position_fraction {x : Double} (h : ∀ n, ¬(number x).IsNumber n) (len : Nat) :
    (number x).position len = .error (.typeMismatch "integer index" "number") := by
  have fraction : ¬x.isIntegral = true :=
    fun integral => let ⟨n, value⟩ := Double.isIntegral_iff.mp integral; h n ⟨x, rfl, value⟩
  simp only [position, if_neg fraction]

theorem position_other (h : ∀ x, key ≠ .number x) (len : Nat) :
    key.position len = .error (.typeMismatch "integer index" key.typeText) := by
  cases key with
  | number x => exact absurd rfl (h x)
  | _ => rfl

theorem position_eq_ok (small : len < 2 ^ 63 - 1) :
    key.position len = .ok j ↔ key.IsNumber (j + 1 : Nat) ∧ j < len := by
  refine ⟨fun h => ?_, fun ⟨integral, inside⟩ => position_inside small integral inside⟩
  by_cases numeric : ∃ x, key = .number x
  · obtain ⟨x, rfl⟩ := numeric
    by_cases integral : ∃ n, (Script.number x).IsNumber n
    · obtain ⟨n, integral⟩ := integral
      by_cases inside : 1 ≤ n ∧ n ≤ len
      · obtain ⟨k, rfl⟩ : ∃ k : Nat, n = (k + 1 : Nat) := ⟨(n - 1).toNat, by omega⟩
        rw [position_inside small integral (by omega)] at h
        cases h
        exact ⟨integral, by omega⟩
      · rw [position_outside small integral (by omega)] at h
        cases h
    · rw [position_fraction (not_exists.mp integral)] at h
      cases h
  · rw [position_other (not_exists.mp numeric)] at h
    cases h

end Script

end HostBridge
