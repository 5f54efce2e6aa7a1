import HostBridge.Number.Double
import HostBridge.Proofs.Number.Pattern
import Mathlib.Algebra.Order.Field.Power
import Mathlib.Data.Rat.Floor

namespace HostBridge

def Datum.toRat? : Datum → Option ℚ
  | .finite negative m q => some ((if negative then -1 else 1) * (m * 2 ^ q))
  | _ => none

namespace Format

@[simp] theorem fraction_double : double.fraction = 52 := rfl

@[simp] theorem minScale_double : double.minScale = -1074 := rfl

@[simp] theorem topField_double : double.topField = 2047 := rfl

variable {f : Format}

theorem withSign_lt {magnitude : Nat} (h : magnitude < 2 ^ (f.fraction + f.exponent))
    (negative : Bool) : f.withSign negative magnitude < 2 ^ (f.fraction + f.exponent + 1) := by
  rw [pow_succ]
  cases negative
  · simp [withSign]
    omega
  · simp [withSign, Nat.one_shiftLeft]
    omega

theorem encode_lt (d : Datum) : f.encode d < 2 ^ (f.fraction + f.exponent + 1) := by
  have top : f.topField * 2 ^ f.fraction + 2 ^ f.fraction ≤ 2 ^ (f.fraction + f.exponent) := by
    rw [← Nat.succ_mul, Nat.add_comm f.fraction, pow_add]
    exact Nat.mul_le_mul_right _ f.topField_lt
  have pos : 0 < 2 ^ f.fraction := by positivity
  cases d with
  | finite negative m q =>
    apply withSign_lt
    simp only [magnitude, Nat.shiftLeft_eq]
    split
    · positivity
    · exact lt_of_le_of_lt (min_le_right ..) (by omega)
  | infinite negative =>
    apply withSign_lt
    rw [Nat.shiftLeft_eq]
    omega
  | nan negative payload =>
    apply withSign_lt
    have := Nat.mod_lt payload pos
    rw [Nat.shiftLeft_eq, Nat.one_shiftLeft]
    omega

theorem decode_encode_scaled (wide : 1 < f.topField) {negative : Bool} {m k : Nat} {q : Int}
    (h : f.Canonical (m * 2 ^ k) (q - k)) :
    f.decode (f.encode (.finite negative m q)) = .finite negative (m * 2 ^ k) (q - k) := by
  have same :
      f.encode (.finite negative m q) = f.encode (.finite negative (m * 2 ^ k) (q - k)) := by
    simp only [encode, magnitude_mul_pow, sub_add_cancel]
  rw [same, decode_encode wide h]

theorem canonical_shifted {m : Nat} {q : Int} (nonzero : m ≠ 0) (small : m.log2 ≤ f.fraction)
    (low : f.minScale ≤ q - (f.fraction - m.log2 : Nat))
    (high : (q - (f.fraction - m.log2 : Nat) - f.minScale).toNat + 1 < f.topField) :
    f.Canonical (m * 2 ^ (f.fraction - m.log2)) (q - (f.fraction - m.log2 : Nat)) where
  low := low
  small := by
    apply (Nat.log2_lt (by positivity)).mp
    rw [log2_mul_pow nonzero]
    omega
  normal := by
    right
    apply (Nat.le_log2 (by positivity)).mp
    rw [log2_mul_pow nonzero]
    omega
  high := high

end Format

namespace Double

def toRat? (x : Double) : Option ℚ := x.datum.toRat?

theorem datum_ofDatum (d : Datum) :
    (ofDatum d).datum = Format.double.decode (Format.double.encode d) := by
  have inside : Format.double.encode d < 2 ^ 64 := Format.encode_lt d
  simp only [datum, ofDatum, UInt64.toNat_ofNat', Nat.mod_eq_of_lt inside]

theorem wide : 1 < Format.double.topField := by decide

theorem canonical_zero : Format.double.Canonical 0 Format.double.minScale :=
  Format.canonical_subnormal wide (by decide)

theorem datum_ofInt {n : Int} (h : n.natAbs ≤ 2 ^ 53) :
    ∃ m q, (ofInt n).datum = .finite (n < 0) m q ∧ (m * 2 ^ q : ℚ) = n.natAbs := by
  simp only [ofInt, datum_ofDatum]
  generalize n.natAbs = a at h
  by_cases zero : a = 0
  · subst zero
    refine ⟨0, Format.double.minScale, ?_, by simp⟩
    rw [Format.encode_zero, ← Format.encode_zero, Format.decode_encode wide canonical_zero]
  have bits : a.log2 ≤ 53 := by
    rw [← Nat.lt_succ_iff, Nat.log2_lt zero]
    omega
  rcases Nat.lt_or_eq_of_le bits with short | long
  · have canonical := Format.canonical_shifted (f := .double) (q := 0) zero
      (by simpa using Nat.lt_succ_iff.mp short) (by simp; omega) (by simp; omega)
    refine ⟨_, _, Format.decode_encode_scaled wide canonical, ?_⟩
    push_cast
    rw [mul_assoc, ← zpow_natCast, ← zpow_add₀ two_ne_zero]
    simp
  · -- the one number of 54 bits is a power of two
    have eq : a = 2 ^ 52 * 2 ^ 1 := by
      have := Nat.log2_self_le zero
      rw [long] at this
      omega
    have canonical : Format.double.Canonical (2 ^ 52) 1 :=
      ⟨by simp, by simp, .inr le_rfl, by simp⟩
    have same (negative : Bool) : Format.double.encode (.finite negative (2 ^ 52 * 2 ^ 1) 0) =
        Format.double.encode (.finite negative (2 ^ 52) 1) := by
      simp only [Format.encode, Format.magnitude_mul_pow]
      rfl
    refine ⟨2 ^ 52, 1, ?_, by norm_num [eq]⟩
    rw [eq, same, Format.decode_encode wide canonical]

theorem toRat?_ofInt {n : Int} (h : n.natAbs ≤ 2 ^ 53) : (ofInt n).toRat? = some (n : ℚ) := by
  obtain ⟨m, q, eq, value⟩ := datum_ofInt h
  simp only [toRat?, eq, Datum.toRat?, value, Option.some.injEq]
  by_cases negative : n < 0
  · simp only [negative, decide_true, if_true, Nat.cast_natAbs, abs_of_neg negative]
    push_cast
    ring
  · simp only [negative, decide_false, Bool.false_eq_true, if_false, Nat.cast_natAbs,
      abs_of_nonneg (not_lt.mp negative), one_mul]

theorem floorScaled_eq (m : Nat) (q : Int) : (floorScaled m q : Int) = ⌊(m * 2 ^ q : ℚ)⌋ := by
  simp only [floorScaled, Nat.shiftLeft_eq, Nat.shiftRight_eq_div_pow]
  obtain ⟨k, rfl | rfl⟩ := q.eq_nat_or_neg
  · have whole : (m * 2 ^ (k : Int) : ℚ) = ((m * 2 ^ k : Nat) : ℚ) := by
      push_cast
      rw [zpow_natCast]
    rw [whole, Int.floor_natCast]
    simp
  · have quotient : (m * 2 ^ (-k : Int) : ℚ) = (m : ℚ) / ((2 ^ k : Nat) : ℚ) := by
      push_cast
      rw [zpow_neg, zpow_natCast, div_eq_mul_inv]
    rw [quotient, Rat.floor_natCast_div_natCast]
    simp

def towardZero (r : ℚ) : Int := if r < 0 then ⌈r⌉ else ⌊r⌋

@[simp] theorem towardZero_intCast (n : Int) : towardZero n = n := by
  rw [towardZero, Int.ceil_intCast, Int.floor_intCast, ite_self]

/-- Truncation of the exact value toward zero, within the bounds. -/
theorem truncate_eq {x : Double} {r : ℚ} (h : x.toRat? = some r) (low high : Int) :
    x.truncate low high = max low (min high (towardZero r)) := by
  simp only [toRat?] at h
  simp only [truncate, towardZero]
  cases hd : x.datum with
  | finite negative m q =>
    simp only [hd, Datum.toRat?, Option.some.injEq] at h
    subst h
    have pos : (0 : ℚ) ≤ m * 2 ^ q := by positivity
    simp only [floorScaled_eq]
    congr 2
    cases negative with
    | false => simp [pos.not_gt]
    | true =>
      rcases pos.lt_or_eq with pos | zero
      · simp [pos, Int.ceil_neg]
      · simp [← zero]
  | infinite negative => simp [hd, Datum.toRat?] at h
  | nan negative payload => simp [hd, Datum.toRat?] at h

theorem truncate_ofInt {n low high : Int} (h : n.natAbs ≤ 2 ^ 53) (hlow : low ≤ n)
    (hhigh : n ≤ high) : (ofInt n).truncate low high = n := by
  rw [truncate_eq (toRat?_ofInt h)]
  simp [hlow, hhigh]

theorem isNegative_eq {x : Double} {r : ℚ} (h : x.toRat? = some r) :
    x.isNegative = decide (r < 0) := by
  simp only [toRat?] at h
  simp only [isNegative]
  cases hd : x.datum with
  | finite negative m q =>
    simp only [hd, Datum.toRat?, Option.some.injEq] at h
    subst h
    have power : (0 : ℚ) < 2 ^ q := by positivity
    cases negative with
    | false =>
      have : (0 : ℚ) ≤ m * 2 ^ q := by positivity
      simp [this]
    | true => by_cases zero : m = 0 <;> simp [power, Nat.pos_iff_ne_zero, zero]
  | infinite negative => simp [hd, Datum.toRat?] at h
  | nan negative payload => simp [hd, Datum.toRat?] at h

end Double

end HostBridge
