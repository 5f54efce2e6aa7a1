import HostBridge.Proofs.Assignment.Atomic
import HostBridge.Proofs.Number.Integral
import HostBridge.Proofs.Script.Equality
import Mathlib.Data.Fintype.Card

namespace HostBridge

namespace Double

variable {x y z : Double}

theorem same_iff : x.same y = true ↔ x.isNaN = false ∧ y.isNaN = false ∧ x.keyBits = y.keyBits := by
  constructor
  · intro h
    obtain ⟨hx, hy⟩ : x.isNaN = false ∧ y.isNaN = false := by simp_all [same]
    exact ⟨hx, hy, (same_iff_keyBits hx hy).mp h⟩
  · rintro ⟨hx, hy, eq⟩
    exact (same_iff_keyBits hx hy).mpr eq

theorem same_comm (x y : Double) : x.same y = y.same x := by
  rw [Bool.eq_iff_iff, same_iff, same_iff]
  exact ⟨fun ⟨hx, hy, eq⟩ => ⟨hy, hx, eq.symm⟩, fun ⟨hy, hx, eq⟩ => ⟨hx, hy, eq.symm⟩⟩

theorem same_trans (h : x.same y = true) (h' : y.same z = true) : x.same z = true := by
  obtain ⟨hx, -, eq⟩ := same_iff.mp h
  obtain ⟨-, hz, eq'⟩ := same_iff.mp h'
  exact same_iff.mpr ⟨hx, hz, eq.trans eq'⟩

end Double

namespace Script

variable {x y z : Script}

theorem isNil_iff : x.isNil = true ↔ x = .nil := by
  cases x <;> simp [isNil]

theorem rawSame_self (x : Script) : x.rawSame x = !x.isNaN := by
  cases x <;> simp [rawSame, isNaN, Double.same]

theorem rawSame_comm (x y : Script) : x.rawSame y = y.rawSame x := by
  cases x with
  | number n => cases y <;> simp only [rawSame, Double.same_comm]
  | _ => cases y <;> simp only [rawSame, Bool.beq_comm]

theorem rawSame_trans (h : x.rawSame y = true) (h' : y.rawSame z = true) : x.rawSame z = true := by
  cases x <;> cases y <;> simp only [rawSame, Bool.false_eq_true] at h <;>
    cases z <;> simp only [rawSame, Bool.false_eq_true] at h'
  case number.number.number => exact Double.same_trans h h'
  all_goals simp_all [rawSame]

theorem rawSame_congr (h : x.rawSame y = true) (z : Script) : x.rawSame z = y.rawSame z := by
  rw [Bool.eq_iff_iff]
  exact ⟨rawSame_trans (rawSame_comm x y ▸ h), rawSame_trans h⟩

theorem rawSame_of_isNaN (nan : x.isNaN = true) (y : Script) : x.rawSame y = false := by
  by_contra same
  have same : x.rawSame y = true := Bool.eq_true_of_not_eq_false same
  have itself := rawSame_trans same (rawSame_comm x y ▸ same)
  rw [rawSame_self, nan] at itself
  cases itself

end Script

namespace Table

variable {es es' : List (Script × Script)} {key value : Script}

def Distinct (es : List (Script × Script)) : Prop := es.Pairwise fun e f => e.1.rawSame f.1 = false

theorem Distinct.perm (distinct : Distinct es) (perm : es.Perm es') : Distinct es' :=
  perm.pairwise distinct fun h => (Script.rawSame_comm ..).trans h

theorem lookup_of_none (h : ∀ e ∈ es, e.1.rawSame key = false) : lookup key es = .nil := by
  rw [lookup, List.find?_eq_none.mpr (by simpa using h)]
  rfl

theorem lookup_cons (e : Script × Script) (es : List (Script × Script)) (key : Script) :
    lookup key (e :: es) = if e.1.rawSame key then e.2 else lookup key es := by
  simp only [lookup, List.find?_cons]
  cases e.1.rawSame key <;> rfl

theorem lookup_of_mem (distinct : Distinct es) {e : Script × Script} (he : e ∈ es)
    (h : e.1.rawSame key = true) : lookup key es = e.2 := by
  induction es with
  | nil => cases he
  | cons f es ih =>
    obtain ⟨first, rest⟩ := List.pairwise_cons.mp distinct
    rw [lookup_cons]
    obtain rfl | he := List.mem_cons.mp he
    · rw [if_pos h]
    · have other : f.1.rawSame key = false := by
        rw [Script.rawSame_comm, ← Script.rawSame_congr h, Script.rawSame_comm]
        exact first e he
      rw [other, if_neg Bool.false_ne_true, ih rest he]

theorem lookup_perm (distinct : Distinct es) (perm : es.Perm es') (key : Script) :
    lookup key es' = lookup key es := by
  by_cases found : ∃ e ∈ es, e.1.rawSame key = true
  · obtain ⟨e, he, h⟩ := found
    rw [lookup_of_mem distinct he h, lookup_of_mem (distinct.perm perm) (perm.subset he) h]
  · simp only [not_exists, not_and, Bool.not_eq_true] at found
    rw [lookup_of_none found, lookup_of_none fun e he => found e (perm.symm.subset he)]

theorem lookup_filter_of_other {key' : Script} (other : key.rawSame key' = false) :
    lookup key' (es.filter fun e => !e.1.rawSame key) = lookup key' es := by
  rw [lookup, List.find?_filter, lookup]
  congr 3
  funext e
  cases h : e.1.rawSame key with
  | false => simp
  | true => simp [Script.rawSame_congr h, other]

/-- The key of the entry under a key. An entry keeps the key that it was made with. -/
def Stored (key stored : Script) : Prop := stored = key ∨ stored.rawSame key = true

theorem Stored.rawSame_eq {stored : Script} (h : Stored key stored) (key' : Script) :
    stored.rawSame key' = key.rawSame key' := by
  obtain rfl | same := h
  · rfl
  · exact Script.rawSame_congr same key'

theorem Stored.eq_of_isNaN {stored : Script} (h : Stored key stored)
    (nan : stored.isNaN = true ∨ key.isNaN = true) : stored = key := by
  refine h.resolve_right ?_
  rw [Bool.not_eq_true]
  obtain nan | nan := nan
  · exact Script.rawSame_of_isNaN nan key
  · rw [Script.rawSame_comm]
    exact Script.rawSame_of_isNaN nan stored

theorem exists_update (distinct : Distinct es) (key value : Script) :
    ∃ new : Option (Script × Script), new.isNone = value.isNil ∧
      (∀ e ∈ new, Stored key e.1 ∧ e.2 = value) ∧
      (update key value es).Perm (new.toList ++ es.filter fun e => !e.1.rawSame key) := by
  obtain ⟨old, new, ⟨l, r, rfl, updated⟩, none, hold, hnew, absent⟩ := assigned_update key value es
  refine ⟨new, none, hnew, ?_⟩
  have others : ∀ e ∈ l ++ r, e.1.rawSame key = false := by
    cases old with
    | none => simpa using absent rfl
    | some o =>
      -- a key that equals the one given equals the old one too, and that is there once
      intro e he
      have same := hold o rfl
      rw [Script.rawSame_comm, ← Script.rawSame_congr same]
      have front : Distinct (o :: (l ++ r)) := distinct.perm (by simp)
      exact (List.pairwise_cons.mp front).1 e he
  have left : (l ++ old.toList ++ r).filter (fun e => !e.1.rawSame key) = l ++ r := by
    have gone : old.toList.filter (fun e => !e.1.rawSame key) = [] := by simpa using hold
    rw [List.filter_append, List.filter_append, gone, List.append_nil, ← List.filter_append,
      List.filter_eq_self]
    simpa using others
  rw [updated, left, ← List.append_assoc]
  exact List.perm_append_comm.append_right r

theorem mem_update (distinct : Distinct es) (key value : Script) :
    ∃ stored, Stored key stored ∧ ∀ e, e ∈ update key value es ↔
      value ≠ .nil ∧ e = (stored, value) ∨ e ∈ es ∧ e.1.rawSame key = false := by
  obtain ⟨new, none, stored, perm⟩ := exists_update distinct key value
  simp only [perm.mem_iff, List.mem_append, List.mem_filter, Option.mem_toList,
    Bool.not_eq_true']
  cases new with
  | none =>
    obtain rfl : value = .nil := Script.isNil_iff.mp none.symm
    exact ⟨key, .inl rfl, fun e => by simp⟩
  | some new =>
    obtain ⟨hkey, rfl⟩ := stored new rfl
    have notNil : new.2 ≠ .nil := fun eq => by simp [eq, Script.isNil] at none
    refine ⟨new.1, hkey, fun e => or_congr_left ?_⟩
    rw [Option.some.injEq, eq_comm]
    exact (and_iff_right notNil).symm

theorem length_update_le (distinct : Distinct es) (key value : Script) :
    (update key value es).length ≤ es.length + 1 := by
  obtain ⟨new, -, -, perm⟩ := exists_update distinct key value
  rw [perm.length_eq, List.length_append, Nat.add_comm]
  exact Nat.add_le_add (List.length_filter_le ..) (by cases new <;> simp)

/-- Updates under a NaN only add to the entries under one. -/
theorem mem_update_of_isNaN (distinct : Distinct es) {e : Script × Script}
    (nan : e.1.isNaN = true) :
    e ∈ update key value es ↔ value ≠ .nil ∧ e = (key, value) ∨ e ∈ es := by
  obtain ⟨stored, under, mem⟩ := mem_update distinct key value
  rw [mem, Script.rawSame_of_isNaN nan, and_iff_left rfl]
  refine or_congr_left (and_congr_right fun _ => ⟨?_, ?_⟩)
  · rintro rfl
    rw [under.eq_of_isNaN (.inl nan)]
  · rintro rfl
    rw [under.eq_of_isNaN (.inr nan)]

theorem mem_update_nil (distinct : Distinct es) {key' : Script} :
    (key', .nil) ∈ update key value es ↔ (key', .nil) ∈ es ∧ key'.rawSame key = false := by
  obtain ⟨stored, -, mem⟩ := mem_update distinct key value
  rw [mem]
  refine or_iff_right fun ⟨notNil, eq⟩ => ?_
  cases eq
  exact notNil rfl

theorem Distinct.updated (distinct : Distinct es) {new : Option (Script × Script)}
    (stored : ∀ e ∈ new, Stored key e.1 ∧ e.2 = value) :
    Distinct (new.toList ++ es.filter fun e => !e.1.rawSame key) := by
  refine List.pairwise_append.mpr ⟨?_, distinct.filter _, ?_⟩
  · cases new <;> simp
  · intro e he f hf
    rw [(stored e (Option.mem_toList.mp he)).1.rawSame_eq, Script.rawSame_comm]
    simpa using (List.mem_filter.mp hf).2

theorem Distinct.update (distinct : Distinct es) (key value : Script) :
    Distinct (Table.update key value es) := by
  obtain ⟨new, -, stored, perm⟩ := exists_update distinct key value
  exact (distinct.updated stored).perm perm.symm

theorem lookup_update (distinct : Distinct es) (key value key' : Script) :
    lookup key' (update key value es) = lookup key' ((key, value) :: es) := by
  obtain ⟨new, none, stored, perm⟩ := exists_update distinct key value
  rw [lookup_perm (distinct.updated stored) perm.symm, lookup_cons]
  cases new with
  | none =>
    obtain rfl : value = .nil := Script.isNil_iff.mp none.symm
    cases same : key.rawSame key' with
    | false => exact lookup_filter_of_other same
    | true =>
      refine lookup_of_none fun e he => ?_
      rw [Script.rawSame_comm, ← Script.rawSame_congr same, Script.rawSame_comm]
      simpa using (List.mem_filter.mp he).2
  | some e =>
    obtain ⟨hkey, hvalue⟩ := stored e rfl
    rw [Option.toList_some, List.singleton_append, lookup_cons, hkey.rawSame_eq, hvalue]
    cases same : key.rawSame key' with
    | false => simpa using lookup_filter_of_other same
    | true => rfl

section

variable {items : List Script}

theorem mem_sequence {e : Script × Script} : e ∈ sequence items ↔
    ∃ p v, items[p]? = some v ∧ e = (.number (.ofInt (p + 1 : Nat)), v) := by
  simp only [sequence, List.mem_mapIdx, List.getElem?_eq_some_iff]
  constructor
  · rintro ⟨p, h, rfl⟩
    exact ⟨p, _, ⟨h, rfl⟩, rfl⟩
  · rintro ⟨p, v, ⟨h, rfl⟩, rfl⟩
    exact ⟨p, h, rfl⟩

theorem distinct_sequence (h : items.length ≤ 2 ^ 53) : Distinct (sequence items) := by
  refine List.pairwise_iff_getElem.mpr fun p q hp hq lt => ?_
  simp only [sequence, List.length_mapIdx] at hp hq
  simp only [sequence, List.getElem_mapIdx, ← Bool.not_eq_true]
  rw [Script.rawSame_ofInt_iff (by omega)]
  intro same
  have := same.unique (Script.isNumber_ofInt (by omega))
  omega

theorem lookup_sequence (h : items.length ≤ 2 ^ 53) {p : Nat} {v : Script}
    (item : items[p]? = some v) (position : key.IsNumber (p + 1 : Nat)) :
    lookup key (sequence items) = v := by
  have inside := (List.getElem?_eq_some_iff.mp item).1
  exact lookup_of_mem (distinct_sequence h) (mem_sequence.mpr ⟨p, v, item, rfl⟩)
    ((Script.rawSame_ofInt_iff (by omega)).mpr position)

theorem lookup_sequence_of_none (h : items.length ≤ 2 ^ 53)
    (none : ∀ p < items.length, ¬key.IsNumber (p + 1 : Nat)) :
    lookup key (sequence items) = .nil := by
  refine lookup_of_none fun e he => ?_
  obtain ⟨p, v, item, rfl⟩ := mem_sequence.mp he
  have inside := (List.getElem?_eq_some_iff.mp item).1
  rw [← Bool.not_eq_true, Script.rawSame_ofInt_iff (by omega)]
  exact none p inside

end

structure Border (read : Script → Script) (n : Nat) : Prop where
  filled : ∀ k, 0 < k → k ≤ n → read (.number (.ofInt k)) ≠ .nil
  next : read (.number (.ofInt (n + 1 : Nat))) = .nil

theorem borderFrom_spec (es : List (Script × Script)) (fuel : Nat) : ∀ n, ∃ steps ≤ fuel,
    borderFrom es n fuel = n + steps ∧
    (∀ k < steps, lookup (.number (.ofInt (n + k + 1 : Nat))) es ≠ .nil) ∧
    (steps < fuel → lookup (.number (.ofInt (n + steps + 1 : Nat))) es = .nil) := by
  induction fuel with
  | zero => exact fun n => ⟨0, le_rfl, rfl, by simp, by simp⟩
  | succ fuel ih =>
    intro n
    simp only [borderFrom]
    split
    · rename_i empty
      exact ⟨0, by simp, rfl, by simp, fun _ => Script.isNil_iff.mp empty⟩
    · rename_i filled
      obtain ⟨steps, le, eq, others, next⟩ := ih (n + 1)
      refine ⟨steps + 1, by omega, by rw [eq]; omega, fun k hk => ?_, fun lt => ?_⟩
      · cases k with
        | zero => exact fun empty => filled (Script.isNil_iff.mpr empty)
        | succ k =>
          have := others k (by omega)
          rwa [Nat.add_right_comm n 1 k, Nat.add_assoc n k 1] at this
      · have := next (by omega)
        rwa [Nat.add_right_comm n 1 steps, Nat.add_assoc n steps 1] at this

theorem border_eq_iff {n : Nat} (small : n < 0xffffffffffffffff) :
    border es = n ↔ Border (lookup · es) n := by
  obtain ⟨steps, -, eq, filled, next⟩ := borderFrom_spec es 0xffffffffffffffff 0
  simp only [Nat.zero_add] at eq filled next
  rw [border, eq]
  constructor
  · rintro rfl
    refine ⟨fun k pos le => ?_, next small⟩
    obtain ⟨k, rfl⟩ := Nat.exists_eq_succ_of_ne_zero pos.ne'
    exact filled k le
  · intro h
    rcases Nat.lt_trichotomy steps n with lt | rfl | gt
    · exact absurd (next (by omega)) (h.filled (steps + 1) (by omega) lt)
    · rfl
    · exact absurd h.next (filled n gt)

theorem le_length_of_filled {n : Nat} (small : n ≤ 2 ^ 53)
    (filled : ∀ k, 0 < k → k ≤ n → lookup (.number (.ofInt k)) es ≠ .nil) : n ≤ es.length := by
  have exists_entry (k : Fin n) : ∃ j : Fin es.length, es[j].1.IsNumber (k + 1 : Nat) := by
    by_contra none
    refine filled (k + 1) k.1.succ_pos k.2 (lookup_of_none fun e he => ?_)
    obtain ⟨j, hj, rfl⟩ := List.mem_iff_getElem.mp he
    rw [Script.rawSame_comm, ← Bool.not_eq_true, Script.rawSame_ofInt_iff (by omega)]
    exact fun position => none ⟨⟨j, hj⟩, position⟩
  choose entry position using exists_entry
  -- a key is one number, so different positions have different entries
  have injective : Function.Injective entry := by
    intro k l eq
    have := (eq ▸ position k).unique (position l)
    omega
  simpa using Fintype.card_le_of_injective entry injective

theorem border_of_length (small : es.length < 2 ^ 53) :
    Border (lookup · es) (border es) ∧ border es ≤ es.length := by
  obtain ⟨steps, -, eq, filled, -⟩ := borderFrom_spec es 0xffffffffffffffff 0
  simp only [Nat.zero_add] at eq filled
  have upTo {n : Nat} (le : n ≤ steps) (k : Nat) (pos : 0 < k) (hk : k ≤ n) :
      lookup (.number (.ofInt k)) es ≠ .nil := by
    obtain ⟨k, rfl⟩ := Nat.exists_eq_succ_of_ne_zero pos.ne'
    exact filled k (by omega)
  -- the counter does not run out: there would be an entry for every position on the way
  have bound : steps < 2 ^ 53 := by
    by_contra large
    have := le_length_of_filled le_rfl (upTo (not_lt.mp large))
    omega
  rw [← border] at eq
  exact ⟨(border_eq_iff (by omega)).mp rfl, eq ▸ le_length_of_filled bound.le (upTo le_rfl)⟩

end Table

end HostBridge
