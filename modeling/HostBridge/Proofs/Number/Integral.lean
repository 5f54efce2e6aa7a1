import HostBridge.Proofs.Map.Key
import HostBridge.Proofs.Number.Exact

namespace HostBridge

namespace Format

variable {f : Format} {m m' : Nat} {q q' : Int}

theorem Canonical.scale_le (h : f.Canonical m q) (h' : f.Canonical m' q')
    (eq : (m * 2 ^ q : ℚ) = m' * 2 ^ q') : q' ≤ q := by
  by_contra larger
  obtain ⟨k, rfl⟩ : ∃ k : Nat, q' = q + (k + 1 : Nat) := ⟨(q' - q - 1).toNat, by omega⟩
  have product : m = m' * 2 ^ (k + 1) := by
    have power : (2 : ℚ) ^ q ≠ 0 := by positivity
    rw [zpow_add₀ two_ne_zero, zpow_natCast, mul_left_comm, mul_comm (m : ℚ)] at eq
    exact_mod_cast mul_left_cancel₀ power eq
  have normal : 2 ^ f.fraction ≤ m' := h'.normal.resolve_left (by have := h.low; omega)
  have small := h.small
  have := Nat.mul_le_mul normal (Nat.pow_le_pow_right two_pos (Nat.le_add_left 1 k))
  rw [pow_succ] at small
  omega

theorem Canonical.unique (h : f.Canonical m q) (h' : f.Canonical m' q')
    (eq : (m * 2 ^ q : ℚ) = m' * 2 ^ q') : m = m' ∧ q = q' := by
  obtain rfl : q = q' := le_antisymm (h'.scale_le h eq.symm) (h.scale_le h' eq)
  have power : (2 : ℚ) ^ q ≠ 0 := by positivity
  exact ⟨by exact_mod_cast mul_right_cancel₀ power eq, rfl⟩

end Format

namespace Double

variable {x y : Double} {r : ℚ}

theorem exists_datum (h : x.toRat? = some r) : ∃ negative m q, x.datum = .finite negative m q ∧
    Format.double.Canonical m q ∧ (if negative then -1 else 1) * (m * 2 ^ q : ℚ) = r := by
  simp only [toRat?] at h
  cases hd : x.datum with
  | finite negative m q =>
    refine ⟨negative, m, q, rfl, Format.canonical_of_decode wide x.bits.toNat_lt hd, ?_⟩
    simpa [hd, Datum.toRat?] using h
  | infinite negative => simp [hd, Datum.toRat?] at h
  | nan negative payload => simp [hd, Datum.toRat?] at h

theorem eq_of_datum (h : x.datum = y.datum) : x = y := by
  have bits : x.bits.toNat = y.bits.toNat := by
    rw [← Format.encode_decode wide x.bits.toNat_lt, ← Format.encode_decode wide y.bits.toNat_lt]
    exact congrArg Format.double.encode h
  cases x
  cases y
  cases UInt64.toNat_inj.mp bits
  rfl

theorem isNaN_of_toRat? (h : x.toRat? = some r) : x.isNaN = false := by
  obtain ⟨negative, m, q, hd, -⟩ := exists_datum h
  simp [isNaN, hd]

theorem isZero_iff (h : x.toRat? = some r) : x.isZero = true ↔ r = 0 := by
  obtain ⟨negative, m, q, hd, -, rfl⟩ := exists_datum h
  have power : (2 : ℚ) ^ q ≠ 0 := by positivity
  cases negative <;> simp [isZero, hd, power]

theorem sign_eq {negative : Bool} {a : ℚ} (nonzero : r ≠ 0) (pos : 0 ≤ a)
    (value : (if negative then -1 else 1) * a = r) : negative = decide (r < 0) := by
  subst value
  cases negative with
  | false => simp [pos]
  | true => simpa [eq_comm] using lt_of_le_of_ne pos (by simpa [eq_comm] using nonzero)

/-- Numbers are equal that have one exact value, of whichever sign a zero is. -/
theorem same_iff_toRat? (h : x.toRat? = some r) : x.same y = true ↔ y.toRat? = some r := by
  constructor
  · intro same
    simp only [Double.same, Bool.and_eq_true, Bool.or_eq_true, beq_iff_eq] at same
    obtain ⟨-, bits | ⟨zx, zy⟩⟩ := same
    · cases x
      cases y
      cases bits
      exact h
    · rw [(isZero_iff h).mp zx]
      simp only [isZero] at zy
      cases hd : y.datum <;> simp_all [toRat?, Datum.toRat?]
  · intro h'
    rw [same_iff_keyBits (isNaN_of_toRat? h) (isNaN_of_toRat? h')]
    by_cases zero : r = 0
    · simp [keyBits, (isZero_iff h).mpr zero, (isZero_iff h').mpr zero]
    · obtain ⟨negative, m, q, hd, canonical, value⟩ := exists_datum h
      obtain ⟨negative', m', q', hd', canonical', value'⟩ := exists_datum h'
      obtain rfl : negative = negative' :=
        (sign_eq zero (by positivity) value).trans (sign_eq zero (by positivity) value').symm
      have magnitude : (m * 2 ^ q : ℚ) = m' * 2 ^ q' := by
        cases negative <;> simpa using value.trans value'.symm
      obtain ⟨rfl, rfl⟩ := canonical.unique canonical' magnitude
      rw [eq_of_datum (hd.trans hd'.symm)]

theorem same_ofInt_iff {n : Int} (small : n.natAbs ≤ 2 ^ 53) :
    (ofInt n).same x = true ↔ x.toRat? = some (n : ℚ) := same_iff_toRat? (toRat?_ofInt small)

theorem isIntegral_iff : x.isIntegral = true ↔ ∃ n : Int, x.toRat? = some (n : ℚ) := by
  simp only [isIntegral, toRat?]
  cases x.datum with
  | finite negative m q =>
    have signed (a : ℚ) : (∃ n : Int, (if negative then -1 else 1) * a = n) ↔ ∃ n : Int, a = n := by
      cases negative with
      | false => simp
      | true =>
        simp only [if_true, neg_mul, one_mul]
        constructor
        · rintro ⟨n, h⟩
          exact ⟨-n, by push_cast; linarith⟩
        · rintro ⟨n, h⟩
          exact ⟨-n, by push_cast; linarith⟩
    simp only [Datum.toRat?, Option.some.injEq, signed, beq_iff_eq, Nat.one_shiftLeft]
    obtain ⟨k, rfl | rfl⟩ := q.eq_nat_or_neg
    · exact iff_of_true (by simp [Nat.mod_one]) ⟨m * 2 ^ k, by push_cast; rw [zpow_natCast]⟩
    · have power : (2 : ℚ) ^ k ≠ 0 := by positivity
      rw [neg_neg, Int.toNat_natCast, ← Nat.dvd_iff_mod_eq_zero, ← Int.natCast_dvd_natCast]
      simp only [zpow_neg, zpow_natCast, ← div_eq_mul_inv, div_eq_iff power]
      refine exists_congr fun n => ?_
      rw [← @Int.cast_inj ℚ, mul_comm]
      push_cast
      rfl
  | infinite negative => simp [Datum.toRat?]
  | nan negative payload => simp [Datum.toRat?]

theorem toInt64_eq (h : x.toRat? = some r) :
    x.toInt64 = max (-2 ^ 63) (min (2 ^ 63 - 1) (towardZero r)) :=
  truncate_eq h _ _

end Double

namespace Script

variable {key : Script} {n n' : Int}

/-- The key is a number of the exact value `n`. -/
def IsNumber (key : Script) (n : Int) : Prop := ∃ x, key = .number x ∧ x.toRat? = some (n : ℚ)

theorem IsNumber.unique (h : key.IsNumber n) (h' : key.IsNumber n') : n = n' := by
  obtain ⟨x, rfl, value⟩ := h
  obtain ⟨y, eq, value'⟩ := h'
  cases eq
  exact_mod_cast Option.some.inj (value.symm.trans value')

theorem isNumber_ofInt (small : n.natAbs ≤ 2 ^ 53) : (number (.ofInt n)).IsNumber n :=
  ⟨_, rfl, Double.toRat?_ofInt small⟩

theorem rawSame_ofInt_iff (small : n.natAbs ≤ 2 ^ 53) :
    (number (.ofInt n)).rawSame key = true ↔ key.IsNumber n := by
  cases key with
  | number x => simp [rawSame, IsNumber, Double.same_ofInt_iff small]
  | _ => simp [rawSame, IsNumber]

end Script

end HostBridge
