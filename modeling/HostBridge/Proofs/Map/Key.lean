import HostBridge.Proofs.Map.Entries

/-! Keys of maps and host equality. Equal values have one key, and one key means equal values where
the values are alike: of one kind and width, and structs of one type, field by field. -/

namespace HostBridge

namespace Value

mutual

def nanFree : Value → Bool
  | .float _ x => !x.isNaN
  | .complex _ x y => !x.isNaN && !y.isNaN
  | .struct _ vs => nanFreeAll vs
  | _ => true

def nanFreeAll : List Value → Bool
  | [] => true
  | v :: vs => v.nanFree && nanFreeAll vs

end

mutual

/-- Whether the values are of one kind and width, and structs of one type, field by field. -/
def alike : Value → Value → Bool
  | .int w _, .int w' _ => w == w'
  | .uint w _, .uint w' _ => w == w'
  | .float w _, .float w' _ => w == w'
  | .complex w _ _, .complex w' _ _ => w == w'
  | .struct t vs, .struct u ws => t.name == u.name && alikeAll vs ws
  | .nil, .nil | .bool _, .bool _ | .string _, .string _ | .func _, .func _ | .chan _, .chan _
  | .map _, .map _ | .slice _, .slice _ | .ptr _, .ptr _ | .address _, .address _
  | .boxed _, .boxed _ => true
  | _, _ => false

def alikeAll : List Value → List Value → Bool
  | [], [] => true
  | v :: vs, w :: ws => v.alike w && alikeAll vs ws
  | _, _ => false

end

end Value

namespace Object

theorem eq_of_address {x y : Object} (h : x.address = y.address) : x = y := by
  cases x <;> cases y <;> simp only [address, page, basePage] at h <;>
    first
      | exact absurd h (by omega)
      | exact congrArg _ (by omega)

theorem address_ne_zero (x : Object) : x.address ≠ 0 := by
  cases x <;> simp only [address, page, basePage] <;> omega

end Object

theorem Chan.address_inj {c d : Chan} : c.address = d.address ↔ c.id = d.id :=
  ⟨fun h => Object.channel.inj (Object.eq_of_address h), fun h => by rw [address, address, h]⟩

theorem Pointer.address_inj {p q : Pointer} : p.address = q.address ↔ p.cell = q.cell := by
  simp only [address]
  cases p.cell <;> cases q.cell
  · simp
  · simp [(Object.address_ne_zero _).symm]
  · simp [Object.address_ne_zero]
  · rename_i i j
    exact ⟨fun h => congrArg some (Object.cell.inj (Object.eq_of_address h)),
      fun h => by rw [Option.some.inj h]⟩

theorem Box.address_inj {a b : Box} : a.address = b.address ↔ a.id = b.id :=
  ⟨fun h => Object.box.inj (Object.eq_of_address h), fun h => by rw [address, address, h]⟩

namespace Double

theorem bits_ne_zero {x : Double} (h : x.isZero = false) : x.bits ≠ 0 := by
  intro zero
  obtain ⟨bits⟩ := x
  cases zero
  revert h
  decide

theorem bits_ne {x y : Double} (h : x.isZero ≠ y.isZero) : x.bits ≠ y.bits := by
  intro eq
  cases x
  cases y
  cases eq
  exact h rfl

theorem same_iff_keyBits {x y : Double} (hx : x.isNaN = false) (hy : y.isNaN = false) :
    x.same y = true ↔ x.keyBits = y.keyBits := by
  rw [same, hx, hy]
  cases zx : x.isZero <;> cases zy : y.isZero <;> simp [keyBits, zx, zy]
  case false.true =>
    have ne : x.bits ≠ y.bits := bits_ne (by simp [zx, zy])
    simp [ne, bits_ne_zero zx]
  case true.false =>
    have ne : x.bits ≠ y.bits := bits_ne (by simp [zx, zy])
    simp [ne, (bits_ne_zero zy).symm]

end Double

theorem Key.ofValue_struct {t : StructTy} {vs : List Value} {k : Key}
    (h : Key.ofValue (.struct t vs) = .ok k) :
    ∃ ks, Keys.ofValues vs = .ok ks ∧ k = .struct ks := by
  simp only [ofValue] at h
  cases hks : Keys.ofValues vs with
  | error e => simp [hks, Except.map] at h
  | ok ks =>
    simp only [hks, Except.map, Except.ok.injEq] at h
    exact ⟨ks, rfl, h.symm⟩

theorem Keys.ofValues_cons {v : Value} {vs : List Value} {keys : Keys}
    (h : Keys.ofValues (v :: vs) = .ok keys) :
    ∃ k ks, Key.ofValue v = .ok k ∧ Keys.ofValues vs = .ok ks ∧ keys = .cons k ks := by
  simp only [ofValues] at h
  cases hk : Key.ofValue v with
  | error e => simp [hk, bind, Except.bind] at h
  | ok k =>
    cases hks : Keys.ofValues vs with
    | error e => simp [hk, hks, bind, Except.bind] at h
    | ok ks =>
      simp only [hk, hks, bind, Except.bind, pure, Except.pure, Except.ok.injEq] at h
      exact ⟨k, ks, rfl, rfl, h.symm⟩

namespace Value

mutual

theorem alike_of_same {a b : Value} (h : a.same b = true) : a.alike b = true := by
  cases a <;> cases b <;>
    simp_all only [same, alike, Bool.and_eq_true, Bool.false_eq_true]
  case struct.struct => exact ⟨trivial, alikeAll_of_sameAll h.2⟩

theorem alikeAll_of_sameAll {vs ws : List Value} (h : sameAll vs ws = true) :
    alikeAll vs ws = true := by
  cases vs <;> cases ws <;>
    simp_all only [sameAll, alikeAll, Bool.and_eq_true, Bool.false_eq_true]
  exact ⟨alike_of_same h.1, alikeAll_of_sameAll h.2⟩

end

mutual

theorem same_iff_key {a b : Value} (h : a.alike b = true) (na : a.nanFree = true)
    (nb : b.nanFree = true) {k l : Key} (ha : Key.ofValue a = .ok k) (hb : Key.ofValue b = .ok l) :
    a.same b = true ↔ k = l := by
  -- what is left has one constructor on both sides
  cases a <;> cases b <;> simp only [alike, Bool.false_eq_true] at h
  case struct.struct t vs u ws =>
    obtain ⟨ks, hv, rfl⟩ := Key.ofValue_struct ha
    obtain ⟨ls, hw, rfl⟩ := Key.ofValue_struct hb
    simp only [Bool.and_eq_true] at h
    simp only [same, h.1, Bool.true_and, sameAll_iff_keys h.2 na nb hv hw, Key.struct.injEq]
  -- functions, maps and slices have no key
  all_goals cases ha
  all_goals cases hb
  case float.float =>
    simp only [nanFree, Bool.not_eq_true'] at na nb
    simp [same, h, Double.same_iff_keyBits na nb]
  case complex.complex =>
    simp only [nanFree, Bool.not_eq_true', Bool.and_eq_true] at na nb
    simp [same, h, Double.same_iff_keyBits na.1 nb.1, Double.same_iff_keyBits na.2 nb.2]
  case address.address a b => simp [same, UInt64.toNat_inj]
  all_goals simp [same, h, Chan.address_inj, Pointer.address_inj, Box.address_inj]

theorem sameAll_iff_keys {vs ws : List Value} (h : alikeAll vs ws = true)
    (nv : nanFreeAll vs = true) (nw : nanFreeAll ws = true) {ks ls : Keys}
    (hv : Keys.ofValues vs = .ok ks) (hw : Keys.ofValues ws = .ok ls) :
    sameAll vs ws = true ↔ ks = ls := by
  cases vs <;> cases ws <;> simp only [alikeAll, Bool.false_eq_true] at h
  case nil.nil =>
    cases hv
    cases hw
    simp [sameAll]
  case cons.cons v vs w ws =>
    simp only [nanFreeAll, Bool.and_eq_true] at h nv nw
    obtain ⟨k, ks, hk, hks, rfl⟩ := Keys.ofValues_cons hv
    obtain ⟨l, ls, hl, hls, rfl⟩ := Keys.ofValues_cons hw
    simp only [sameAll, Bool.and_eq_true, same_iff_key h.1 nv.1 nw.1 hk hl,
      sameAll_iff_keys h.2 nv.2 nw.2 hks hls, Keys.cons.injEq]

end

end Value

namespace Map

theorem ofValue_of_keyOf {m : Map} {v : Value} {k : Key} (h : m.keyOf v = .ok k) :
    Key.ofValue v = .ok k := by
  simp only [keyOf] at h
  split at h
  · exact h
  · cases h

variable {m : Map} {a b : Value} {k l : Key} {st st' : Store}

theorem find_eq (ha : Key.ofValue a = .ok k)
    (h : Entry.lookup k (m.entries st') = Entry.lookup k (m.entries st)) :
    m.find st' a = m.find st a := by
  simp only [find, keyOf, ha]
  split
  · simp only [Except.map, h]
  · rfl

theorem find_insert_of_ne (ha : Key.ofValue a = .ok k) (hb : Key.ofValue b = .ok l) (ne : l ≠ k)
    {v : Value} (h : m.insert b v st = .ok () st') : m.find st' a = m.find st a := by
  rw [insert_eq] at h
  cases keyed : m.keyOf b with
  | error e => simp [keyed] at h
  | ok i =>
    obtain rfl : i = l := Except.ok.inj ((ofValue_of_keyOf keyed).symm.trans hb)
    simp only [keyed] at h
    split at h
    · cases h
      exact find_eq ha (lookup_entries_set (by rw [Entry.lookup_put, if_neg ne]))
    · cases h

theorem find_remove_of_ne (ha : Key.ofValue a = .ok k) (hb : Key.ofValue b = .ok l) (ne : l ≠ k)
    {r : Option Value} (h : m.remove b st = .ok r st') : m.find st' a = m.find st a := by
  rw [remove_eq] at h
  cases keyed : m.keyOf b with
  | error e => simp [keyed] at h
  | ok i =>
    obtain rfl : i = l := Except.ok.inj ((ofValue_of_keyOf keyed).symm.trans hb)
    simp only [keyed] at h
    cases h
    exact find_eq ha (lookup_entries_set (Entry.lookup_erase_of_ne ne _))

end Map

/-- Values are equal when they have one key and are alike. What a map has under one of two keys
stays, whatever happens under the other. -/
theorem Key.eq_and_alike_iff {a b : Value} (na : a.nanFree = true) (nb : b.nanFree = true)
    {k l : Key} (ha : ofValue a = .ok k) (hb : ofValue b = .ok l) :
    (a.same b = true ↔ k = l ∧ a.alike b = true) ∧
      (k ≠ l → ∀ (m : Map) (st st' : Store),
        (∀ v, m.insert b v st = .ok () st' → m.find st' a = m.find st a) ∧
          ∀ r, m.remove b st = .ok r st' → m.find st' a = m.find st a) := by
  refine ⟨⟨fun h => ?_, fun ⟨eq, h⟩ => (Value.same_iff_key h na nb ha hb).mpr eq⟩, ?_⟩
  · have alike := Value.alike_of_same h
    exact ⟨(Value.same_iff_key alike na nb ha hb).mp h, alike⟩
  · intro ne m st st'
    exact ⟨fun v h => Map.find_insert_of_ne ha hb ne.symm h,
      fun r h => Map.find_remove_of_ne ha hb ne.symm h⟩

theorem Key.eq_and_alike_complex :
    ((Value.complex .w64 .zero .one).same (.complex .w64 ⟨0x8000000000000000⟩ .zero) = true ↔
      complex 0 0x3FF0000000000000 = complex 0 0 ∧
        (Value.complex .w64 .zero .one).alike (.complex .w64 ⟨0x8000000000000000⟩ .zero) = true) ∧
    ∀ (m : Map) (st st' : Store),
      (∀ v, m.insert (.complex .w64 ⟨0x8000000000000000⟩ .zero) v st = .ok () st' →
        m.find st' (.complex .w64 .zero .one) = m.find st (.complex .w64 .zero .one)) ∧
      ∀ r, m.remove (.complex .w64 ⟨0x8000000000000000⟩ .zero) st = .ok r st' →
        m.find st' (.complex .w64 .zero .one) = m.find st (.complex .w64 .zero .one) :=
  have both := Key.eq_and_alike_iff (a := .complex .w64 .zero .one)
    (b := .complex .w64 ⟨0x8000000000000000⟩ .zero) (by decide) (by decide) (by rfl) (by rfl)
  ⟨both.1, both.2 (by decide)⟩

/-- Numbers of different widths are different, and a map merges them. -/
theorem Key.merges_widths :
    (Value.int .w8 1).same (.int .w64 1) = false ∧
      Key.ofValue (.int .w8 1) = Key.ofValue (.int .w64 1) ∧
        ∃ st, (do
          let m ← Map.make .any .string
          m.insert (.int .w8 1) (.string "a")
          m.insert (.int .w64 1) (.string "b")
          (m.find (← get) (.int .w8 1) : Except HostError _) : HostM (Option Value)) {} =
            .ok (some (.string "b")) st :=
  ⟨rfl, rfl, _, rfl⟩

end HostBridge
