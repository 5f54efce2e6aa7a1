import HostBridge.Proofs.Conversion.Deep
import HostBridge.Proofs.Number.Integral
import Mathlib.Data.Int.ModEq

namespace HostBridge

namespace Double

variable {x : Double} {r : ℚ}

theorem two_dvd_towardZero (h : x.toRat? = some r) (large : 2 ^ 53 ≤ towardZero r) :
    2 ∣ towardZero r := by
  obtain ⟨negative, m, q, -, canonical, rfl⟩ := exists_datum h
  have pos : (0 : ℚ) ≤ m * 2 ^ q := by positivity
  cases negative with
  | true =>
    have small : towardZero (-(m * 2 ^ q : ℚ)) ≤ 0 := by
      rw [towardZero]
      split
      · exact Int.ceil_le.mpr (by simpa using pos)
      · exact (Int.floor_le_ceil _).trans (Int.ceil_le.mpr (by simpa using pos))
    simp only [if_true, neg_mul, one_mul] at large
    omega
  | false =>
    simp only [Bool.false_eq_true, if_false, one_mul, towardZero, if_neg pos.not_gt] at large ⊢
    rw [← floorScaled_eq] at large ⊢
    have short : m < 2 ^ 53 := canonical.small
    obtain scaled | ⟨k, rfl⟩ : q ≤ 0 ∨ ∃ k : Nat, q = k + 1 := by
      rcases le_or_gt q 0 with low | high
      · exact .inl low
      · exact .inr ⟨(q - 1).toNat, by omega⟩
    · have shrunk : floorScaled m q ≤ m := by
        rw [floorScaled, Int.toNat_of_nonpos scaled, Nat.shiftLeft_zero]
        exact Nat.shiftRight_le ..
      omega
    · have whole : floorScaled m (k + 1) = 2 * (m * 2 ^ k) := by
        have up : ((k : Int) + 1).toNat = k + 1 := by omega
        have down : (-((k : Int) + 1)).toNat = 0 := by omega
        rw [floorScaled, up, down, Nat.shiftRight_zero, Nat.shiftLeft_eq, pow_succ]
        ring
      rw [whole]
      exact ⟨_, Nat.cast_mul ..⟩

end Double

def nearest (top n : Int) : Int := max (-2 ^ 63) (min top n)

namespace Double

variable {x : Double} {r : ℚ}

theorem bits_eq (h : x.toRat? = some r) :
    (if x.isNegative then x.toInt64 else x.toUInt64) = nearest (2 ^ 64 - 1) (towardZero r) := by
  rw [isNegative_eq h, toInt64_eq h, toUInt64, truncate_eq h]
  by_cases negative : r < 0
  · have below : ⌈r⌉ ≤ 0 := Int.ceil_le.mpr (by exact_mod_cast negative.le)
    simp only [negative, decide_true, if_true, nearest, towardZero]
    omega
  · have above : 0 ≤ ⌊r⌋ := Int.floor_nonneg.mpr (not_lt.mp negative)
    simp only [negative, decide_false, Bool.false_eq_true, if_false, nearest, towardZero]
    omega

end Double

namespace IntWidth

variable {w : IntWidth} {range : Int → Prop} {top n m i u : Int}

theorem two_dvd_count (w : IntWidth) : (2 : Int) ∣ w.count := by cases w <;> decide

/-- What `n` becomes in a range of integers of the width, when it is converted to 64 bits first. -/
structure Wrapped (w : IntWidth) (range : Int → Prop) (top n m : Int) : Prop where
  inside : range m
  eq_iff : ∀ k, range k → (k ≡ nearest top n [ZMOD w.count] ↔ k = m)
  congruent_iff : m ≡ n [ZMOD w.count] ↔
    n ≤ top ∧ (-2 ^ 63 ≤ n ∨ n ≡ -2 ^ 63 [ZMOD w.count])

theorem Wrapped.of_congruent (narrow : ∀ k m, range k → range m → k - m < w.count)
    (odd : ¬2 ∣ top) (wide : 2 ^ 53 ≤ top) (even : 2 ^ 53 ≤ n → 2 ∣ n) (inside : range m)
    (congruent : m ≡ nearest top n [ZMOD w.count]) : w.Wrapped range top n m where
  inside := inside
  eq_iff k within := by
    constructor
    · intro congruent'
      have above := narrow k m within inside
      have below := narrow m k inside within
      have dvd : (w.count : Int) ∣ k - m := (congruent.trans congruent'.symm).dvd
      exact sub_eq_zero.mp (Int.eq_zero_of_abs_lt_dvd dvd (abs_lt.mpr ⟨by omega, above⟩))
    · rintro rfl
      exact congruent
  congruent_iff := by
    have kept : m ≡ n [ZMOD w.count] ↔ n ≡ nearest top n [ZMOD w.count] :=
      ⟨fun h => h.symm.trans congruent, fun h => congruent.trans h.symm⟩
    rw [kept]
    by_cases high : n ≤ top
    · by_cases low : -2 ^ 63 ≤ n
      · have same : nearest top n = n := by
          rw [nearest]
          omega
        rw [same]
        exact iff_of_true rfl ⟨high, .inl low⟩
      · have bottom : nearest top n = -2 ^ 63 := by
          rw [nearest]
          omega
        rw [bottom]
        exact ⟨fun congruent => ⟨high, .inr congruent⟩, fun h => h.2.resolve_left low⟩
    · have last : nearest top n = top := by
        rw [nearest]
        omega
      rw [last]
      refine iff_of_false (fun congruent => odd ?_) fun h => high h.1
      have dvd := w.two_dvd_count.trans congruent.dvd
      have := even (by omega)
      omega

structure Coerced (w : IntWidth) (n i u : Int) : Prop where
  signed : w.Wrapped w.Signed (2 ^ 63 - 1) n i
  unsigned : w.Wrapped w.Unsigned (2 ^ 64 - 1) n u
  agree_iff : i ≡ u [ZMOD w.count] ↔ n < 2 ^ 63 ∨ 2 ^ 64 ≤ n ∧ (w.count : Int) ∣ 2 ^ 63

theorem dvd_sub_nearest_iff (w : IntWidth) (even : 2 ^ 53 ≤ n → 2 ∣ n) :
    (w.count : Int) ∣ nearest (2 ^ 64 - 1) n - nearest (2 ^ 63 - 1) n ↔
      n < 2 ^ 63 ∨ 2 ^ 64 ≤ n ∧ (w.count : Int) ∣ 2 ^ 63 := by
  rcases lt_or_ge n (2 ^ 63) with small | large
  · have none : nearest (2 ^ 64 - 1) n - nearest (2 ^ 63 - 1) n = 0 := by
      simp only [nearest]
      omega
    rw [none]
    exact iff_of_true (dvd_zero _) (.inl small)
  · rcases lt_or_ge n (2 ^ 64) with between | beyond
    · have rest : nearest (2 ^ 64 - 1) n - nearest (2 ^ 63 - 1) n = n - (2 ^ 63 - 1) := by
        simp only [nearest]
        omega
      rw [rest]
      refine iff_of_false (fun dvd => ?_) (by omega)
      -- the difference is odd
      have := w.two_dvd_count.trans dvd
      have := even (by omega)
      omega
    · have half : nearest (2 ^ 64 - 1) n - nearest (2 ^ 63 - 1) n = 2 ^ 63 := by
        simp only [nearest]
        omega
      rw [half]
      exact ⟨fun dvd => .inr ⟨beyond, dvd⟩, fun h => (h.resolve_left (by omega)).2⟩

theorem coerced_of_nearest (w : IntWidth) (even : 2 ^ 53 ≤ n → 2 ∣ n) :
    w.Coerced n (w.wrapSigned (nearest (2 ^ 63 - 1) n))
      (w.wrapUnsigned (nearest (2 ^ 64 - 1) n)) := by
  have signed : w.wrapSigned (nearest (2 ^ 63 - 1) n) ≡ nearest (2 ^ 63 - 1) n [ZMOD w.count] :=
    Int.bmod_emod
  have unsigned : w.wrapUnsigned (nearest (2 ^ 64 - 1) n) ≡
      nearest (2 ^ 64 - 1) n [ZMOD w.count] := Int.mod_modEq ..
  constructor
  case signed =>
    refine .of_congruent ?_ (by decide) (by decide) even (signed_wrapSigned ..) signed
    rintro k m ⟨_, _⟩ ⟨_, _⟩
    omega
  case unsigned =>
    refine .of_congruent ?_ (by decide) (by decide) even (unsigned_wrapUnsigned ..) unsigned
    rintro k m ⟨_, _⟩ ⟨_, _⟩
    omega
  case agree_iff =>
    rw [← w.dvd_sub_nearest_iff even, ← Int.modEq_iff_dvd]
    exact ⟨fun h => (signed.symm.trans h).trans unsigned,
      fun h => (signed.trans h).trans unsigned.symm⟩

end IntWidth

/-- A number becomes the integer of the width that is congruent to what it is without its fraction,
as long as 64 bits hold that. -/
theorem Script.coerces {x : Double} {r : ℚ} (value : x.toRat? = some r) (w : IntWidth)
    (st : Store) : ∃ (i : Int64) (u : UInt64),
      (number x).toHost (.int w) st = .ok (.int w i) st ∧
        (number x).toHost (.uint w) st = .ok (.uint w u) st ∧
          w.Coerced (Double.towardZero r) i.toInt u.toNat := by
  refine ⟨_, _, rfl, rfl, ?_⟩
  rw [IntWidth.signed_toInt (IntWidth.signed_wrapSigned ..),
    IntWidth.unsigned_toNat (IntWidth.unsigned_wrapUnsigned ..), Double.bits_eq value,
    Double.toInt64_eq value]
  exact w.coerced_of_nearest (Double.two_dvd_towardZero value)

theorem Script.coerces_fraction : ∃ (i : Int64) (u : UInt64),
    (number ⟨0xbff8000000000000⟩).toHost (.int .w8) {} = .ok (.int .w8 i) {} ∧
      (number ⟨0xbff8000000000000⟩).toHost (.uint .w8) {} = .ok (.uint .w8 u) {} ∧
        IntWidth.w8.Coerced (Double.towardZero (-3 / 2)) i.toInt u.toNat := by
  have datum : Double.datum ⟨0xbff8000000000000⟩ = .finite true (3 * 2 ^ 51) (-52) := by decide
  refine coerces ?_ .w8 {}
  rw [Double.toRat?, datum, Datum.toRat?]
  norm_num

/-- The first integer beyond 64 bits with a sign is even, and what it becomes with a sign is odd.
Nor is that congruent to what it becomes without one. -/
theorem Script.coerces_beyond :
    Double.toRat? ⟨0x43e0000000000000⟩ = some (2 ^ 63) ∧
      (number ⟨0x43e0000000000000⟩).toHost (.int .w8) {} = .ok (.int .w8 (-1)) {} ∧
        (number ⟨0x43e0000000000000⟩).toHost (.uint .w8) {} = .ok (.uint .w8 0) {} ∧
          ¬(-1 : Int64).toInt ≡ Double.towardZero (2 ^ 63) [ZMOD IntWidth.w8.count] ∧
            ¬(-1 : Int64).toInt ≡ (0 : UInt64).toNat [ZMOD IntWidth.w8.count] := by
  have datum : Double.datum ⟨0x43e0000000000000⟩ = .finite false (2 ^ 52) 11 := by decide
  have whole : Double.towardZero (2 ^ 63) = 2 ^ 63 := by
    norm_num [Double.towardZero]
  refine ⟨?_, rfl, rfl, ?_, by decide⟩
  · rw [Double.toRat?, datum, Datum.toRat?]
    norm_num
  · rw [whole]
    decide

end HostBridge
