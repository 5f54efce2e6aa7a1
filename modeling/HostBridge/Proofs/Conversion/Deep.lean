import HostBridge.Proofs.Assignment.Atomic

namespace HostBridge

variable {st st' : Store}

def Ident.accepts : Ident → Value → Bool
  | .any, _ => true
  | .func .., .nil | .chan .., .nil | .map .., .nil | .slice _, .nil | .ptr _, .nil
  | .address, .nil => true
  | .chan d e, .chan c => e = c.elem.ident && (d == c.direction || c.direction == .both)
  | t, v => v.type.ident = t

theorem Ty.accepts_eq (t : Ty) (v : Value) : t.accepts v = t.ident.accepts v := by
  cases t with
  | func sig =>
    obtain ⟨_, _, _⟩ := sig
    cases v <;> rfl
  | _ => cases v <;> rfl

theorem Ty.accepts_congr {t u : Ty} (h : t.ident = u.ident) (v : Value) :
    t.accepts v = u.accepts v := by
  rw [accepts_eq, accepts_eq, h]

namespace Slice

theorem Inside.toList_eq {w : Slice} (inside : w.Inside st) (grown : st.Grown st') :
    w.toList st' = w.toList st := by
  obtain ⟨items, hitems, _⟩ := inside
  simp only [toList, Slice.items, hitems, grown.backings hitems]

def whole (elem : Ty) (vs : List Value) (st : Store) : Slice :=
  ⟨elem, st.backings.size, 0, vs.length, vs.length⟩

variable {elem : Ty} {vs : List Value}

theorem get?_newBacking (vs : List Value) (st : Store) :
    (Store.newBacking vs.toArray st).2.backings.get? st.backings.size = some vs.toArray :=
  (Heap.get?_push ..).trans (if_pos rfl)

theorem inside_whole : (whole elem vs st).Inside (Store.newBacking vs.toArray st).2 :=
  ⟨vs.toArray, get?_newBacking vs st, by simp [whole]⟩

theorem toList_whole : (whole elem vs st).toList (Store.newBacking vs.toArray st).2 = vs := by
  have made := get?_newBacking vs st
  simp only [toList, Slice.items, whole] at made ⊢
  simp [made, List.extract_eq_take_drop]

end Slice

inductive Value.Reaches (st : Store) (v : Value) : Value → Prop
  | self : Reaches st v v
  | item {w : Slice} {u : Value} : Reaches st v (.slice w) → u ∈ w.toList st → Reaches st v u

def Value.Proper (st : Store) : Value → Prop
  | .int w i => w.Signed i.toInt
  | .uint w u => w.Unsigned u.toNat
  | .slice w => w.Inside st ∧ ∀ u ∈ w.toList st, w.elem.accepts u = true
  | _ => True

def Value.Deep (st : Store) (v : Value) : Prop := ∀ u, v.Reaches st u → u.Proper st

namespace Value

variable {u v : Value}

theorem Reaches.trans {x : Value} (first : v.Reaches st u) (second : u.Reaches st x) :
    v.Reaches st x := by
  induction second with
  | self => exact first
  | item _ member ih => exact ih.item member

theorem Proper.mono (proper : v.Proper st) (grown : st.Grown st') : v.Proper st' := by
  cases v with
  | slice w =>
    obtain ⟨inside, items⟩ := proper
    refine ⟨inside.mono grown, ?_⟩
    rwa [inside.toList_eq grown]
  | _ => exact proper

namespace Deep

theorem proper (deep : v.Deep st) : v.Proper st := deep v .self

theorem item {w : Slice} (deep : (Value.slice w).Deep st) (member : u ∈ w.toList st) : u.Deep st :=
  fun x reached => deep x ((Reaches.item .self member).trans reached)

theorem mono (deep : v.Deep st) (grown : st.Grown st') : v.Deep st' := by
  -- no more is reached than before, as every slice on the way was there
  have before {x : Value} (reached : v.Reaches st' x) : v.Reaches st x := by
    induction reached with
    | self => exact .self
    | item _ member ih =>
      rw [(deep _ ih).1.toList_eq grown] at member
      exact ih.item member
  intro x reached
  exact (deep x (before reached)).mono grown

theorem of_proper (proper : v.Proper st) (notSlice : ∀ w, v ≠ .slice w) : v.Deep st := by
  intro x reached
  have itself : x = v := by
    induction reached with
    | self => rfl
    | item _ _ ih => exact absurd ih.symm (notSlice _)
  rw [itself]
  exact proper

theorem of_items {w : Slice} (inside : w.Inside st)
    (items : ∀ u ∈ w.toList st, w.elem.accepts u = true ∧ u.Deep st) : (Value.slice w).Deep st := by
  have proper : (Value.slice w).Proper st := ⟨inside, fun u member => (items u member).1⟩
  intro x reached
  -- whatever is reached is the slice itself or reached from one of its items
  have cases : x = .slice w ∨ ∃ u ∈ w.toList st, u.Reaches st x := by
    induction reached with
    | self => exact .inl rfl
    | @item _ u _ member ih =>
      obtain eq | ⟨u', member', reached⟩ := ih
      · cases eq
        exact .inr ⟨u, member, .self⟩
      · exact .inr ⟨u', member', reached.item member⟩
  obtain rfl | ⟨u, member, reached⟩ := cases
  · exact proper
  · exact (items u member).2 x reached

end Deep

end Value

theorem IntWidth.signed_zero (w : IntWidth) : w.Signed (0 : Int64).toInt := by cases w <;> decide

theorem IntWidth.unsigned_zero (w : IntWidth) : w.Unsigned (0 : UInt64).toNat := by
  cases w <;> decide

theorem Ty.deep_zero (t : Ty) (st : Store) : (t.zero st).1.Deep (t.zero st).2 := by
  cases t with
  | int w => exact .of_proper w.signed_zero (by rintro _ ⟨⟩)
  | uint w => exact .of_proper w.unsigned_zero (by rintro _ ⟨⟩)
  | slice e =>
    have inside : (Slice.whole e [] st).Inside ((Ty.slice e).zero st).2 := Slice.inside_whole
    have empty : (Slice.whole e [] st).toList ((Ty.slice e).zero st).2 = [] := Slice.toList_whole
    refine Value.Deep.of_items inside fun u (member : u ∈ (Slice.whole e [] st).toList _) => ?_
    rw [empty] at member
    cases member
  | struct t =>
    obtain ⟨name, fields, methods⟩ := t
    exact .of_proper trivial (by rintro _ ⟨⟩)
  | _ => exact .of_proper trivial (by rintro _ ⟨⟩)

namespace Script

def Deep (st : Store) : Script → Prop
  | .handle ⟨_, .value v, _⟩ => v.Deep st
  | _ => True

theorem Deep.mono {x : Script} (deep : x.Deep st) (grown : st.Grown st') : x.Deep st' := by
  match x, deep with
  | .handle ⟨_, .value v, _⟩, deep => exact Value.Deep.mono deep grown
  | .handle ⟨_, .type _, _⟩, _ | .nil, _ | .bool _, _ | .number _, _ | .string _, _
  | .function _, _ | .table _, _ | .state _, _ => trivial

end Script

namespace IntWidth

theorem signed_toInt {w : IntWidth} {n : Int} (h : w.Signed n) : (Int64.ofInt n).toInt = n := by
  obtain ⟨low, high⟩ := h
  rw [Int64.toInt_ofInt]
  apply Int.bmod_eq_of_le <;> cases w <;> simp only [count, Int64.size] at low high ⊢ <;> omega

theorem unsigned_toNat {w : IntWidth} {n : Int} (h : w.Unsigned n) :
    ((UInt64.ofNat n.toNat).toNat : Int) = n := by
  obtain ⟨low, high⟩ := h
  have inside : n.toNat < 2 ^ 64 := by cases w <;> simp only [count] at high <;> omega
  rw [UInt64.toNat_ofNat', Nat.mod_eq_of_lt inside, Int.toNat_of_nonneg low]

end IntWidth

theorem Ty.deep_ofNumber {t : Ty} {n : Double} {v : Value} (h : t.ofNumber n = .ok v) :
    v.Deep st := by
  cases t with
  | int w =>
    cases h
    refine .of_proper ?_ (by rintro _ ⟨⟩)
    have inside := IntWidth.signed_wrapSigned w n.toInt64
    rwa [Value.Proper, IntWidth.signed_toInt inside]
  | uint w =>
    simp only [ofNumber, Except.ok.injEq] at h
    subst h
    refine .of_proper ?_ (by rintro _ ⟨⟩)
    have inside := IntWidth.unsigned_wrapUnsigned w (if n.isNegative then n.toInt64 else n.toUInt64)
    rwa [Value.Proper, IntWidth.unsigned_toNat inside]
  | float w => cases w <;> cases h <;> exact .of_proper trivial (by rintro _ ⟨⟩)
  | any =>
    cases h
    exact .of_proper trivial (by rintro _ ⟨⟩)
  | _ => cases h

theorem Script.deep_toHost {x : Script} {t : Ty} {v : Value} (deep : x.Deep st)
    (h : x.toHost t st = .ok v st') : v.Deep st' := by
  match x, deep with
  | .nil, _ =>
    cases h
    exact t.deep_zero st
  | .number n, _ =>
    simp only [toHost] at h
    cases converted : t.ofNumber n with
    | ok v =>
      rw [converted] at h
      cases h
      exact Ty.deep_ofNumber converted
    | error e =>
      rw [converted] at h
      cases h
  | .bool b, _ =>
    simp only [toHost] at h
    split at h <;> cases h <;> exact .of_proper trivial (by rintro _ ⟨⟩)
  | .string _, _ =>
    simp only [toHost] at h
    split at h <;> cases h <;> exact .of_proper trivial (by rintro _ ⟨⟩)
  | .handle ⟨_, .value v, _⟩, deep =>
    cases h
    exact deep
  | .handle ⟨_, .type _, _⟩, _ | .function _, _ | .table _, _ | .state _, _ =>
    cases h
    exact .of_proper trivial (by rintro _ ⟨⟩)

end HostBridge
