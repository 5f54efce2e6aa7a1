import HostBridge.Proofs.Number.Exact

namespace HostBridge

/-- What is not a number becomes quiet on its way to another format. -/
def Datum.quiet (source target : Format) : Datum → Datum
  | .nan negative payload => .nan negative (source.quietPayload target payload)
  | d => d

namespace Datum

variable (source target : Format)

@[simp] theorem quiet_finite (negative : Bool) (m : Nat) (q : Int) :
    (finite negative m q).quiet source target = .finite negative m q := rfl

@[simp] theorem quiet_infinite (negative : Bool) :
    (infinite negative).quiet source target = .infinite negative := rfl

@[simp] theorem quiet_nan (negative : Bool) (payload : Nat) :
    (nan negative payload).quiet source target =
      .nan negative (source.quietPayload target payload) := rfl

end Datum

namespace Format

@[simp] theorem fraction_single : single.fraction = 23 := rfl

@[simp] theorem minScale_single : single.minScale = -149 := rfl

@[simp] theorem topField_single : single.topField = 255 := rfl

theorem convert_eq (source target : Format) (bits : Nat) :
    source.convert target bits = target.encode ((source.decode bits).quiet source target) := by
  simp only [convert]
  cases source.decode bits <;> rfl

theorem quietPayload_widen (payload : Nat) :
    single.quietPayload double payload = payload <<< 29 ||| 2 ^ 51 := by
  have shifted : payload <<< 52 >>> 23 = payload <<< 29 := by
    rw [show 52 = 29 + 23 from rfl, Nat.shiftLeft_add, Nat.shiftLeft_shiftRight]
  simp [quietPayload, shifted]

theorem quietPayload_narrow (payload : Nat) :
    double.quietPayload single payload = payload >>> 29 ||| 2 ^ 22 := by
  have shifted : payload <<< 23 >>> 52 = payload >>> 29 := by
    rw [show 52 = 23 + 29 from rfl, Nat.shiftRight_add, Nat.shiftLeft_shiftRight]
  simp [quietPayload, shifted]

theorem quietPayload_quiet (payload : Nat) :
    single.quietPayload double (double.quietPayload single (single.quietPayload double payload)) =
      single.quietPayload double payload := by
  have bit : 2 ^ 51 >>> 29 = 2 ^ 22 := rfl
  have bit' : 2 ^ 22 <<< 29 = 2 ^ 51 := rfl
  simp only [quietPayload_widen, quietPayload_narrow, Nat.shiftRight_or_distrib,
    Nat.shiftLeft_shiftRight, Nat.shiftLeft_or_distrib, bit, bit', Nat.or_assoc, Nat.or_self]

theorem quietPayload_widen_lt {payload : Nat} (h : payload < 2 ^ 23) :
    single.quietPayload double payload < 2 ^ 52 := by
  rw [quietPayload_widen, Nat.shiftLeft_eq]
  exact Nat.or_lt_two_pow (by omega) (by decide)

theorem quietPayload_narrow_lt {payload : Nat} (h : payload < 2 ^ 52) :
    double.quietPayload single payload < 2 ^ 23 := by
  rw [quietPayload_narrow, Nat.shiftRight_eq_div_pow]
  exact Nat.or_lt_two_pow (by omega) (by decide)

theorem quietPayload_widen_ne_zero (payload : Nat) : single.quietPayload double payload ≠ 0 := by
  rw [quietPayload_widen]
  simp

theorem quietPayload_narrow_ne_zero (payload : Nat) :
    double.quietPayload single payload ≠ 0 := by
  rw [quietPayload_narrow]
  simp

end Format

namespace Single

def datum (y : Single) : Datum := Format.single.decode y.bits.toNat

theorem wide : 1 < Format.single.topField := by decide

theorem bits_lt (y : Single) : y.bits.toNat < 2 ^ 32 := y.bits.toNat_lt

def ofDatum (d : Datum) : Single := ⟨UInt32.ofNat (Format.single.encode d)⟩

theorem datum_ofDatum (d : Datum) :
    (ofDatum d).datum = Format.single.decode (Format.single.encode d) := by
  have inside : Format.single.encode d < 2 ^ 32 := Format.encode_lt d
  simp only [datum, ofDatum, UInt32.toNat_ofNat', Nat.mod_eq_of_lt inside]

theorem ofDatum_datum (y : Single) : ofDatum y.datum = y := by
  simp only [ofDatum, datum]
  rw [Format.encode_decode wide y.bits_lt, UInt32.ofNat_toNat]

theorem toDouble_eq (y : Single) : y.toDouble = .ofDatum (y.datum.quiet .single .double) := by
  simp only [toDouble, Format.convert_eq]
  rfl

end Single

theorem Double.toSingle_eq (x : Double) :
    x.toSingle = .ofDatum (x.datum.quiet .double .single) := by
  simp only [toSingle, Format.convert_eq]
  rfl

namespace Single

theorem datum_toDouble_finite {y : Single} {negative : Bool} {m : Nat} {q : Int}
    (h : y.datum = .finite negative m q) :
    ∃ m' q', y.toDouble.datum = .finite negative m' q' ∧
      Format.single.encode (.finite negative m' q') = Format.single.encode (.finite negative m q) ∧
        (m' * 2 ^ q' : ℚ) = m * 2 ^ q := by
  obtain ⟨low, small, _, high⟩ : Format.single.Canonical m q :=
    Format.canonical_of_decode wide y.bits_lt h
  rw [toDouble_eq, h, Datum.quiet_finite, Double.datum_ofDatum]
  by_cases zero : m = 0
  · subst zero
    refine ⟨0, Format.double.minScale, ?_, by simp only [Format.encode_zero], by simp⟩
    rw [Format.encode_zero, ← Format.encode_zero,
      Format.decode_encode Double.wide Double.canonical_zero]
  · have short : m.log2 < 24 := (Nat.log2_lt zero).mpr small
    simp only [Format.minScale_single, Format.topField_single] at low high
    have canonical := Format.canonical_shifted (f := .double) (q := q) zero (by simp; omega)
      (by simp; omega) (by simp; omega)
    refine ⟨_, _, Format.decode_encode_scaled Double.wide canonical, ?_, ?_⟩
    · simp only [Format.encode, Format.magnitude_mul_pow, sub_add_cancel]
    · push_cast
      rw [mul_assoc, ← zpow_natCast, ← zpow_add₀ two_ne_zero, add_sub_cancel]

theorem datum_toDouble_infinite {y : Single} {negative : Bool} (h : y.datum = .infinite negative) :
    y.toDouble.datum = .infinite negative := by
  rw [toDouble_eq, h, Datum.quiet_infinite, Double.datum_ofDatum,
    Format.decode_encode_infinite Double.wide]

theorem datum_toDouble_nan {y : Single} {negative : Bool} {payload : Nat}
    (h : y.datum = .nan negative payload) :
    y.toDouble.datum = .nan negative (Format.single.quietPayload .double payload) := by
  have small := Format.quietPayload_widen_lt (Format.payload_of_decode y.bits_lt h)
  rw [toDouble_eq, h, Datum.quiet_nan, Double.datum_ofDatum,
    Format.decode_encode_nan Double.wide _ (Format.quietPayload_widen_ne_zero _) small]

theorem toDouble_toSingle_toDouble (y : Single) : y.toDouble.toSingle.toDouble = y.toDouble := by
  cases h : y.datum with
  | finite negative m q =>
    obtain ⟨m', q', eq, same, _⟩ := datum_toDouble_finite h
    have back : ofDatum (.finite negative m' q') = ofDatum y.datum := by
      rw [h]
      simp only [ofDatum, same]
    rw [Double.toSingle_eq, eq, Datum.quiet_finite, back, ofDatum_datum]
  | infinite negative =>
    rw [Double.toSingle_eq, datum_toDouble_infinite h, Datum.quiet_infinite, ← h, ofDatum_datum]
  | nan negative payload =>
    have eq := datum_toDouble_nan h
    have small := Format.quietPayload_widen_lt (Format.payload_of_decode y.bits_lt h)
    rw [Double.toSingle_eq, eq, Datum.quiet_nan, toDouble_eq, datum_ofDatum,
      Format.decode_encode_nan wide _ (Format.quietPayload_narrow_ne_zero _)
        (Format.quietPayload_narrow_lt small),
      Datum.quiet_nan, Format.quietPayload_quiet, toDouble_eq, h, Datum.quiet_nan]

end Single

end HostBridge
