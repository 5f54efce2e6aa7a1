import HostBridge.Storage.Slice
import Mathlib.Algebra.Group.Nat.Defs

namespace HostBridge

variable {old needed cap final : Nat}

/-- Steps of about a quarter lead from a capacity to one that is enough, all of them in 64 bits. -/
inductive Climbs (needed : Nat) : Nat → Nat → Prop
  | enough {cap : Nat} : needed ≤ cap → Climbs needed cap cap
  | step {cap final : Nat} : cap < needed → cap + 768 < sizeLimit →
    cap + (cap + 768) / 4 < sizeLimit → Climbs needed (cap + (cap + 768) / 4) final →
      Climbs needed cap final

inductive Grows (old needed : Nat) : Nat → Prop
  | exactly : 2 * old < needed → Grows old needed needed
  | doubled : needed ≤ 2 * old → old < 256 → Grows old needed (2 * old)
  | climbed {cap : Nat} : needed ≤ 2 * old → 256 ≤ old → Climbs needed old cap →
    Grows old needed cap

theorem growth_eq (small : cap < 2 ^ 63) : growth cap = cap + (cap + 768) / 4 := by
  have inner : (cap + 768) % sizeLimit = cap + 768 := by
    apply Nat.mod_eq_of_lt
    simp only [sizeLimit]
    omega
  rw [growth, inner]
  apply Nat.mod_eq_of_lt
  simp only [sizeLimit]
  omega

theorem exists_climbs (small : needed ≤ 2 ^ 63) {fuel : Nat} (positive : 0 < fuel)
    (enough : needed < cap + fuel) :
    ∃ final, growStep needed fuel cap = some final ∧ Climbs needed cap final := by
  induction fuel generalizing cap with
  | zero => cases positive
  | succ fuel ih =>
    simp only [growStep]
    by_cases reached : needed ≤ cap
    · exact ⟨cap, if_pos reached, .enough reached⟩
    · rw [if_neg reached, growth_eq (by omega)]
      have enough' : needed < cap + (cap + 768) / 4 + fuel := by omega
      obtain ⟨final, grown, climbs⟩ := ih (by omega) enough'
      refine ⟨final, grown, .step (Nat.lt_of_not_le reached) ?_ ?_ climbs⟩
      all_goals
        simp only [sizeLimit]
        omega

namespace Climbs

theorem needed_le (climbs : Climbs needed cap final) : needed ≤ final := by
  induction climbs with
  | enough reached => exact reached
  | step _ _ _ _ ih => exact ih

theorem le (climbs : Climbs needed cap final) : cap ≤ final := by
  induction climbs with
  | enough => exact Nat.le_refl _
  | step _ _ _ _ ih => omega

theorem step_le (climbs : Climbs needed cap final) (short : cap < needed) :
    cap + (cap + 768) / 4 ≤ final := by
  cases climbs with
  | enough reached => omega
  | step _ _ _ rest => exact rest.le

theorem le_max (climbs : Climbs needed cap final) :
    final ≤ max cap (needed + (needed + 768) / 4) := by
  induction climbs with
  | enough => exact Nat.le_max_left ..
  | step short _ _ _ ih => omega

end Climbs

structure Grown (old needed cap : Nat) : Prop where
  grows : Grows old needed cap
  needed_le : needed ≤ cap
  old_le : old ≤ cap
  le_max : cap ≤ max (2 * old) (needed + (needed + 768) / 4)
  quarter : old < needed → old + old / 4 ≤ cap
  /-- Four for each place gained pay for the items that move. -/
  paid : old < needed → old + 4 * old ≤ 4 * cap

theorem Grows.grown (grows : Grows old needed cap) : Grown old needed cap := by
  cases grows with
  | exactly large => exact ⟨.exactly large, by omega, by omega, by omega, by omega, by omega⟩
  | doubled room small =>
    exact ⟨.doubled room small, by omega, by omega, by omega, by omega, by omega⟩
  | climbed room large climbs =>
    have needed_le := climbs.needed_le
    have old_le := climbs.le
    have le_max := climbs.le_max
    have step (short : old < needed) := climbs.step_le short
    exact ⟨.climbed room large climbs, needed_le, old_le, by omega,
      fun short => by have := step short; omega, fun short => by have := step short; omega⟩

theorem exists_grows (old : Nat) (small : needed ≤ 2 ^ 63) :
    ∃ cap, growCapacity old needed = some cap ∧ Grows old needed cap := by
  have limit : sizeLimit = 2 ^ 64 := rfl
  simp only [growCapacity]
  by_cases large : 2 * old < needed
  · exact ⟨needed, if_pos (by omega), .exactly large⟩
  · rw [if_neg (by omega)]
    by_cases few : old < 256
    · have doubled : min (2 * old) (sizeLimit - 1) = 2 * old := by omega
      rw [if_pos few, doubled]
      exact ⟨2 * old, rfl, .doubled (Nat.le_of_not_lt large) few⟩
    · rw [if_neg few]
      have enough : needed < old + (needed + 1) := by omega
      obtain ⟨cap, grown, climbs⟩ := exists_climbs small (Nat.succ_pos needed) enough
      exact ⟨cap, grown, .climbed (Nat.le_of_not_lt large) (Nat.le_of_not_lt few) climbs⟩

theorem exists_grown (old : Nat) (small : needed ≤ 2 ^ 63) :
    ∃ cap, growCapacity old needed = some cap ∧ Grown old needed cap := by
  obtain ⟨cap, eq, grows⟩ := exists_grows old small
  exact ⟨cap, eq, grows.grown⟩

namespace Slice

variable {w r : Slice} {vs : List Value} {st st' : Store} {moved : Nat}

/-- The slice was filled by appending, and so many items had to move on the way. -/
inductive Filled : Slice → Nat → Prop
  | empty {w : Slice} : w.len = 0 → Filled w 0
  | room {w r : Slice} {vs : List Value} {st st' : Store} {moved : Nat} : Filled w moved →
    w.append vs st = .ok r st' → w.len + vs.length ≤ w.cap → Filled r moved
  | full {w r : Slice} {vs : List Value} {st st' : Store} {moved : Nat} : Filled w moved →
    w.append vs st = .ok r st' → w.cap < w.len + vs.length → Filled r (moved + w.len)

theorem header_of_append (done : w.append vs st = .ok r st') : r.len = w.len + vs.length ∧
    (w.len + vs.length ≤ w.cap → r.cap = w.cap) ∧
      (w.cap < w.len + vs.length → growCapacity w.cap (w.len + vs.length) = some r.cap) := by
  simp only [append] at done
  obtain ⟨_, st₁, -, done⟩ := ok_of_bind done
  split at done
  · rename_i room
    obtain ⟨_, st₂, -, done⟩ := ok_of_bind done
    cases done
    exact ⟨rfl, fun _ => rfl, fun full => absurd room (Nat.not_le_of_lt full)⟩
  · rename_i full
    cases grown : growCapacity w.cap (w.len + vs.length) with
    | none =>
      rw [grown] at done
      cases done
    | some cap =>
      rw [grown] at done
      cases done
      exact ⟨rfl, fun room => absurd room full, fun _ => rfl⟩

theorem Filled.paid (filled : Filled w moved) (small : w.len ≤ 2 ^ 63) :
    w.len ≤ w.cap ∧ moved ≤ 4 * w.cap ∧ moved ≤ 5 * w.len := by
  induction filled with
  | empty none => omega
  | room _ done room ih =>
    obtain ⟨len, cap, -⟩ := header_of_append done
    have := ih (by omega)
    have := cap room
    omega
  | @full w _ _ _ _ _ _ done full ih =>
    obtain ⟨len, -, grown⟩ := header_of_append done
    have before := ih (by omega)
    obtain ⟨cap, eq, grown'⟩ := exists_grown w.cap (len ▸ small)
    cases (grown full).symm.trans eq
    have needed := grown'.needed_le
    have paid := grown'.paid full
    omega

end Slice

/-- The growth of a slice ends, with room for what is needed and about a quarter more than there
was. So appending moves at most five items for each one there is. -/
theorem growCapacity_grown (old : Nat) (small : needed ≤ 2 ^ 63) :
    (∃ cap, growCapacity old needed = some cap ∧ Grown old needed cap) ∧
      ∀ w moved, Slice.Filled w moved → w.len = needed → moved ≤ 5 * needed := by
  refine ⟨exists_grown old small, ?_⟩
  rintro w moved filled rfl
  exact (filled.paid small).2.2

theorem growCapacity_grown_half :
    (∃ cap, growCapacity 0x4000000000000000 0x8000000000000000 = some cap ∧
        Grown 0x4000000000000000 0x8000000000000000 cap) ∧
      ∀ w moved, Slice.Filled w moved → w.len = 0x8000000000000000 →
        moved ≤ 5 * 0x8000000000000000 :=
  growCapacity_grown _ (by decide)

end HostBridge
