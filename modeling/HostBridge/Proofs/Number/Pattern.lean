import HostBridge.Number.Format
import Mathlib.Tactic.Ring
import Mathlib.Tactic.Linarith

/-! Patterns of a binary format and what they stand for. A pattern is its fields, reading and
writing patterns undo each other, and how a number is split into significand and scale does not
matter. -/

namespace HostBridge

namespace Format

variable {f : Format}

def ofFields (f : Format) (negative : Bool) (field fraction : Nat) : Datum :=
  if field = f.topField then
    if fraction = 0 then .infinite negative else .nan negative fraction
  else if field = 0 then .finite negative fraction f.minScale
  else .finite negative (2 ^ f.fraction + fraction) (f.minScale + (field - 1 : Nat))

theorem decode_withSign {negative : Bool} {field fraction : Nat} (hfield : field < 2 ^ f.exponent)
    (hfraction : fraction < 2 ^ f.fraction) :
    f.decode (f.withSign negative (field * 2 ^ f.fraction + fraction)) =
      f.ofFields negative field fraction := by
  have pos : 0 < 2 ^ f.fraction := by positivity
  have magnitude : f.withSign negative (field * 2 ^ f.fraction + fraction) =
      2 ^ f.fraction * (2 ^ f.exponent * negative.toNat + field) + fraction := by
    simp only [withSign, Nat.shiftLeft_eq, pow_add]
    ring
  have low :
      f.withSign negative (field * 2 ^ f.fraction + fraction) % 2 ^ f.fraction = fraction := by
    rw [magnitude, Nat.mul_add_mod, Nat.mod_eq_of_lt hfraction]
  have high : f.withSign negative (field * 2 ^ f.fraction + fraction) / 2 ^ f.fraction =
      2 ^ f.exponent * negative.toNat + field := by
    rw [magnitude, Nat.mul_add_div pos, Nat.div_eq_of_lt hfraction, Nat.add_zero]
  have top : (2 ^ f.exponent * negative.toNat + field) / 2 ^ f.exponent = negative.toNat := by
    rw [Nat.mul_add_div (by positivity), Nat.div_eq_of_lt hfield, Nat.add_zero]
  simp only [decode, ofFields, Nat.one_shiftLeft, Nat.shiftRight_eq_div_pow, pow_add,
    ← Nat.div_div_eq_div_mul, low, high, top, Nat.mul_add_mod, Nat.mod_eq_of_lt hfield]
  cases negative <;> rfl

theorem exists_fields {bits : Nat} (h : bits < 2 ^ (f.fraction + f.exponent + 1)) :
    ∃ negative field fraction, field < 2 ^ f.exponent ∧ fraction < 2 ^ f.fraction ∧
      f.withSign negative (field * 2 ^ f.fraction + fraction) = bits := by
  have sign : bits / 2 ^ f.fraction / 2 ^ f.exponent < 2 := by
    rw [Nat.div_div_eq_div_mul, ← pow_add, Nat.div_lt_iff_lt_mul (by positivity)]
    rwa [pow_succ, mul_comm] at h
  refine ⟨bits / 2 ^ f.fraction / 2 ^ f.exponent == 1, bits / 2 ^ f.fraction % 2 ^ f.exponent,
    bits % 2 ^ f.fraction, Nat.mod_lt _ (by positivity), Nat.mod_lt _ (by positivity), ?_⟩
  have bit : (bits / 2 ^ f.fraction / 2 ^ f.exponent == 1).toNat =
      bits / 2 ^ f.fraction / 2 ^ f.exponent := by
    generalize bits / 2 ^ f.fraction / 2 ^ f.exponent = b at sign
    obtain rfl | rfl : b = 0 ∨ b = 1 := by omega
    · rfl
    · rfl
  calc
    _ = 2 ^ f.fraction * (2 ^ f.exponent * (bits / 2 ^ f.fraction / 2 ^ f.exponent) +
          bits / 2 ^ f.fraction % 2 ^ f.exponent) + bits % 2 ^ f.fraction := by
      simp only [withSign, bit, Nat.shiftLeft_eq, pow_add]
      ring
    _ = bits := by rw [Nat.div_add_mod, Nat.div_add_mod]

/-- The significand and the scale are those of a pattern. -/
structure Canonical (f : Format) (significand : Nat) (scale : Int) : Prop where
  low : f.minScale ≤ scale
  small : significand < 2 ^ (f.fraction + 1)
  normal : scale = f.minScale ∨ 2 ^ f.fraction ≤ significand
  high : (scale - f.minScale).toNat + 1 < f.topField

theorem magnitude_of_canonical {m : Nat} {q : Int} (h : f.Canonical m q) :
    f.magnitude m q = (q - f.minScale).toNat * 2 ^ f.fraction + m := by
  obtain ⟨low, small, normal, high⟩ := h
  simp only [magnitude, Nat.shiftLeft_eq]
  split
  · rename_i zero
    have : q = f.minScale := by
      rcases normal with eq | le
      · exact eq
      · rw [zero] at le
        exact absurd le (by simp)
    simp [this, zero]
  · rename_i nonzero
    have bound : m.log2 < f.fraction + 1 := (Nat.log2_lt nonzero).mpr small
    have target : max f.minScale (q + m.log2 - f.fraction) = q := by
      rcases normal with eq | le
      · omega
      · have : f.fraction ≤ m.log2 := (Nat.le_log2 nonzero).mpr le
        omega
    rw [target, if_pos le_rfl]
    simp only [sub_self, Int.toNat_zero, pow_zero, mul_one]
    apply min_eq_left
    have : (q - f.minScale).toNat + 2 ≤ f.topField := high
    have := Nat.mul_le_mul_right (2 ^ f.fraction) this
    rw [pow_succ] at small
    linarith

theorem canonical_subnormal (wide : 1 < f.topField) {fraction : Nat}
    (h : fraction < 2 ^ f.fraction) : f.Canonical fraction f.minScale :=
  ⟨le_rfl, by rw [pow_succ]; linarith, .inl rfl, by simpa using wide⟩

theorem canonical_normal {field fraction : Nat} (hfield : field + 1 < f.topField)
    (hfraction : fraction < 2 ^ f.fraction) :
    f.Canonical (2 ^ f.fraction + fraction) (f.minScale + field) :=
  ⟨by omega, by rw [pow_succ]; linarith, .inr (Nat.le_add_right ..), by omega⟩

theorem topField_lt (f : Format) : f.topField < 2 ^ f.exponent := by
  have : 0 < 2 ^ f.exponent := by positivity
  simp only [topField, Nat.one_shiftLeft]
  omega

theorem lt_topField {field : Nat} (h : field < 2 ^ f.exponent) (top : field ≠ f.topField) :
    field < f.topField := by
  simp only [topField, Nat.one_shiftLeft] at top ⊢
  omega

theorem Canonical.exists_fields {m : Nat} {q : Int} (h : f.Canonical m q) (negative : Bool) :
    ∃ field fraction, field < f.topField ∧ fraction < 2 ^ f.fraction ∧
      f.ofFields negative field fraction = .finite negative m q := by
  obtain ⟨low, small, normal, high⟩ := h
  rw [pow_succ] at small
  by_cases le : 2 ^ f.fraction ≤ m
  · refine ⟨(q - f.minScale).toNat + 1, m - 2 ^ f.fraction, high, by omega, ?_⟩
    have scale : f.minScale + ((q - f.minScale).toNat : Int) = q := by omega
    simp only [ofFields, if_neg high.ne, Nat.succ_ne_zero, if_false, Nat.add_sub_cancel, scale,
      Nat.add_sub_cancel' le]
  · obtain rfl : q = f.minScale := normal.resolve_right le
    exact ⟨0, m, by omega, by omega, by simp [ofFields, show 0 ≠ f.topField by omega]⟩

theorem encode_zero (negative : Bool) (q : Int) :
    f.encode (.finite negative 0 q) = f.withSign negative 0 := by
  simp [encode, magnitude]

theorem encode_ofFields {negative : Bool} {field fraction : Nat} (wide : 1 < f.topField)
    (hfield : field < 2 ^ f.exponent) (hfraction : fraction < 2 ^ f.fraction) :
    f.encode (f.ofFields negative field fraction) =
      f.withSign negative (field * 2 ^ f.fraction + fraction) := by
  simp only [ofFields]
  split
  · rename_i top
    split
    · rename_i zero
      simp [encode, top, zero, Nat.shiftLeft_eq]
    · simp [encode, top, Nat.shiftLeft_eq, Nat.mod_eq_of_lt hfraction]
  · rename_i top
    have inside := lt_topField hfield top
    split
    · rename_i zero
      simp [encode, magnitude_of_canonical (canonical_subnormal wide hfraction), zero]
    · rename_i nonzero
      obtain ⟨n, rfl⟩ := Nat.exists_eq_add_one_of_ne_zero nonzero
      simp only [encode, Nat.add_sub_cancel]
      rw [magnitude_of_canonical (canonical_normal inside hfraction)]
      simp [Nat.succ_mul, add_assoc]

theorem encode_decode (wide : 1 < f.topField) {bits : Nat}
    (h : bits < 2 ^ (f.fraction + f.exponent + 1)) : f.encode (f.decode bits) = bits := by
  obtain ⟨negative, field, fraction, hfield, hfraction, rfl⟩ := exists_fields h
  rw [decode_withSign hfield hfraction, encode_ofFields wide hfield hfraction]

theorem canonical_of_decode (wide : 1 < f.topField) {bits : Nat}
    (h : bits < 2 ^ (f.fraction + f.exponent + 1)) {negative : Bool} {m : Nat} {q : Int}
    (eq : f.decode bits = .finite negative m q) : f.Canonical m q := by
  obtain ⟨negative, field, fraction, hfield, hfraction, rfl⟩ := exists_fields h
  rw [decode_withSign hfield hfraction] at eq
  simp only [ofFields] at eq
  split at eq
  · split at eq <;> cases eq
  · rename_i top
    have inside := lt_topField hfield top
    split at eq
    · cases eq
      exact canonical_subnormal wide hfraction
    · rename_i nonzero
      obtain ⟨n, rfl⟩ := Nat.exists_eq_add_one_of_ne_zero nonzero
      cases eq
      exact canonical_normal inside hfraction

theorem payload_of_decode {bits : Nat} (h : bits < 2 ^ (f.fraction + f.exponent + 1))
    {negative : Bool} {payload : Nat} (eq : f.decode bits = .nan negative payload) :
    payload < 2 ^ f.fraction := by
  obtain ⟨negative, field, fraction, hfield, hfraction, rfl⟩ := exists_fields h
  rw [decode_withSign hfield hfraction] at eq
  simp only [ofFields] at eq
  split at eq
  · split at eq <;> cases eq
    exact hfraction
  · split at eq <;> cases eq

/-- What is written of the datum of a pattern reads back as it was. -/
theorem decode_encode_ofFields (wide : 1 < f.topField) {negative : Bool} {field fraction : Nat}
    (hfield : field < 2 ^ f.exponent) (hfraction : fraction < 2 ^ f.fraction) :
    f.decode (f.encode (f.ofFields negative field fraction)) =
      f.ofFields negative field fraction := by
  rw [encode_ofFields wide hfield hfraction, decode_withSign hfield hfraction]

theorem decode_encode (wide : 1 < f.topField) {negative : Bool} {m : Nat} {q : Int}
    (h : f.Canonical m q) : f.decode (f.encode (.finite negative m q)) = .finite negative m q := by
  obtain ⟨field, fraction, hfield, hfraction, eq⟩ := h.exists_fields negative
  rw [← eq, decode_encode_ofFields wide (hfield.trans f.topField_lt) hfraction]

theorem decode_encode_infinite (wide : 1 < f.topField) (negative : Bool) :
    f.decode (f.encode (.infinite negative)) = .infinite negative := by
  have fields : f.decode (f.encode (f.ofFields negative f.topField 0)) =
      f.ofFields negative f.topField 0 :=
    decode_encode_ofFields wide f.topField_lt (by positivity)
  simpa [ofFields] using fields

theorem decode_encode_nan (wide : 1 < f.topField) (negative : Bool) {payload : Nat}
    (nonzero : payload ≠ 0) (small : payload < 2 ^ f.fraction) :
    f.decode (f.encode (.nan negative payload)) = .nan negative payload := by
  have fields : f.decode (f.encode (f.ofFields negative f.topField payload)) =
      f.ofFields negative f.topField payload :=
    decode_encode_ofFields wide f.topField_lt small
  simpa [ofFields, nonzero] using fields

theorem roundHalfEven_mul_pow_of_le {k j : Nat} (h : j ≤ k) (m : Nat) :
    roundHalfEven (m * 2 ^ k) j = m * 2 ^ (k - j) := by
  obtain ⟨i, rfl⟩ := Nat.exists_eq_add_of_le h
  have split : m * 2 ^ (j + i) = 2 ^ j * (m * 2 ^ i) := by ring
  simp [roundHalfEven, Nat.shiftRight_eq_div_pow, Nat.one_shiftLeft, split]

theorem roundHalfEven_mul_pow_add (m k i : Nat) :
    roundHalfEven (m * 2 ^ k) (k + i) = roundHalfEven m i := by
  have pos : 0 < 2 ^ k := by positivity
  have power : 2 ^ (k + i) = 2 ^ i * 2 ^ k := by ring
  have twice : 2 * (m % 2 ^ i * 2 ^ k) = 2 * (m % 2 ^ i) * 2 ^ k := by ring
  simp only [roundHalfEven, Nat.shiftRight_eq_div_pow, Nat.one_shiftLeft, power,
    Nat.mul_div_mul_right _ _ pos, Nat.mul_mod_mul_right, twice, Nat.mul_lt_mul_right pos]

theorem log2_mul_pow {m : Nat} (h : m ≠ 0) (k : Nat) : (m * 2 ^ k).log2 = m.log2 + k := by
  induction k with
  | zero => simp
  | succ k ih =>
    have double : m * 2 ^ (k + 1) = 2 * (m * 2 ^ k) := by ring
    rw [double, Nat.log2_two_mul (by positivity), ih, Nat.add_assoc]

theorem magnitude_mul_pow (m k : Nat) (q : Int) :
    f.magnitude (m * 2 ^ k) q = f.magnitude m (q + k) := by
  by_cases zero : m = 0
  · simp [magnitude, zero]
  have nonzero : m * 2 ^ k ≠ 0 := by positivity
  have log : (m * 2 ^ k).log2 = m.log2 + k := log2_mul_pow zero k
  have target : max f.minScale (q + (m * 2 ^ k).log2 - f.fraction) =
      max f.minScale (q + k + m.log2 - f.fraction) := by
    rw [log]
    congr 1
    omega
  simp only [magnitude, if_neg zero, if_neg nonzero, target]
  generalize max f.minScale (q + k + m.log2 - f.fraction) = t
  congr 2
  -- the target scale is below both, between them or above both
  by_cases below : t ≤ q
  · rw [if_pos below, if_pos (by omega), Nat.shiftLeft_eq, Nat.shiftLeft_eq, mul_assoc, ← pow_add]
    congr 2
    omega
  · rw [if_neg below]
    by_cases between : t ≤ q + k
    · rw [if_pos between, roundHalfEven_mul_pow_of_le (by omega), Nat.shiftLeft_eq]
      congr 2
      omega
    · rw [if_neg between, ← roundHalfEven_mul_pow_add m k]
      congr 1
      omega

end Format

end HostBridge
