import HostBridge.Proofs.Typing.Session

namespace HostBridge

inductive Ref
  | map (i : Nat)
  | backing (i : Nat)
  | cell (i : Nat)
  | channel (i : Nat)
  | table (i : Nat)

def Item.ref? : Item → Option Ref
  | .value (.map m) => some (.map m.id)
  | .value (.slice w) => some (.backing w.backing)
  | .value (.ptr p) => p.cell.map .cell
  | .value (.chan c) => some (.channel c.id)
  | .script (.table i) => some (.table i)
  | _ => none

namespace Store

def Has (st : Store) : Ref → Prop
  | .map i => i < st.maps.size
  | .backing i => i < st.backings.size
  | .cell i => i < st.cells.size
  | .channel i => i < st.channels.size
  | .table i => i < st.tables.size

def SameAt (st st' : Store) : Ref → Prop
  | .map i => st'.maps.get? i = st.maps.get? i
  | .backing i => st'.backings.get? i = st.backings.get? i
  | .cell i => st'.cells.get? i = st.cells.get? i
  | .channel i => st'.channels.get? i = st.channels.get? i
  | .table i => st'.tables.get? i = st.tables.get? i

def contents (st : Store) : Ref → List Item
  | .map i => ((st.maps.get? i).getD []).flatMap fun e => [.value e.key, .value e.value]
  | .backing i => ((st.backings.get? i).getD #[]).toList.map .value
  | .cell i => (st.cells.get? i).toList.map .value
  | .channel i => ((st.channels.get? i).elim [] (·.queue)).map .value
  | .table i => ((st.tables.get? i).getD []).flatMap fun e => [.script e.1, .script e.2]

variable {st st' st'' : Store} {r : Ref}

theorem mem_contents_map {i : Nat} {es : List Entry} (hes : st.maps.get? i = some es) {e : Entry}
    (he : e ∈ es) :
    .value e.key ∈ st.contents (.map i) ∧ .value e.value ∈ st.contents (.map i) := by
  simp only [contents, hes, Option.getD_some, List.mem_flatMap]
  exact ⟨⟨e, he, by simp⟩, e, he, by simp⟩

theorem mem_contents_table {i : Nat} {es : List (Script × Script)}
    (hes : st.tables.get? i = some es) {e : Script × Script} (he : e ∈ es) :
    .script e.1 ∈ st.contents (.table i) ∧ .script e.2 ∈ st.contents (.table i) := by
  simp only [contents, hes, Option.getD_some, List.mem_flatMap]
  exact ⟨⟨e, he, by simp⟩, e, he, by simp⟩

theorem SameAt.contents_eq (h : st.SameAt st' r) : st'.contents r = st.contents r := by
  cases r <;> simp only [contents, show _ = _ from h]

theorem SameAt.trans (h : st.SameAt st' r) (h' : st'.SameAt st'' r) : st.SameAt st'' r := by
  cases r <;> exact Eq.trans h' h

end Store

inductive Item.Reaches (st : Store) : Item → Ref → Prop
  | self {i : Item} {r : Ref} : i.ref? = some r → i.Reaches st r
  | part {i j : Item} {r : Ref} : j ∈ i.parts → j.Reaches st r → i.Reaches st r
  | inside {i j : Item} {r r' : Ref} : i.ref? = some r → j ∈ st.contents r → j.Reaches st r' →
    i.Reaches st r'

namespace Item.Reaches

variable {st st' : Store} {i j : Item} {r r' : Ref}

theorem trans (first : i.Reaches st r) (member : j ∈ st.contents r) (second : j.Reaches st r') :
    i.Reaches st r' := by
  induction first with
  | self names => exact .inside names member second
  | part hj _ ih => exact .part hj (ih member)
  | inside names hj _ ih => exact .inside names hj (ih member)

theorem of_same (same : ∀ r, i.Reaches st r → st.SameAt st' r) (h : i.Reaches st r) :
    i.Reaches st' r := by
  induction h with
  | self names => exact .self names
  | part hj _ ih => exact .part hj (ih fun r h => same r (.part hj h))
  | inside names hj _ ih =>
    have eq := (same _ (.self names)).contents_eq
    exact .inside names (eq ▸ hj) (ih fun r h => same r (.inside names hj h))

theorem iff_of_same (same : ∀ r, i.Reaches st r → st.SameAt st' r) :
    i.Reaches st' r ↔ i.Reaches st r := by
  constructor
  · intro h
    induction h with
    | self names => exact .self names
    | part hj _ ih => exact .part hj (ih fun r h => same r (.part hj h))
    | inside names hj _ ih =>
      rw [(same _ (.self names)).contents_eq] at hj
      exact .inside names hj (ih fun r h => same r (.inside names hj h))
  · exact of_same same

end Item.Reaches

def World.Declares (W : World) : Ref → Prop
  | .map i => ∃ t, W.maps[i]? = some (.declared t)
  | .backing i => ∃ t, W.backings[i]? = some (.declared t)
  | .cell i => ∃ t, W.cells[i]? = some (.declared t)
  | .channel i => ∃ t, W.channels[i]? = some (.declared t)
  | .table i => ∃ t, W.tables[i]? = some (.declared t)

section

variable {W : World} {st : Store} {i : Item} {r : Ref}

theorem Item.Typed.declares (hi : i.Typed W) (names : i.ref? = some r) : W.Declares r := by
  obtain ⟨here, -⟩ := Item.typed_iff.mp hi
  simp only [Item.ref?] at names
  split at names
  · cases names
    exact ⟨_, here⟩
  · cases names
    obtain ⟨n, known, -⟩ := here
    exact ⟨_, known⟩
  · obtain ⟨c, hc, rfl⟩ := Option.map_eq_some_iff.mp names
    exact ⟨_, here c hc⟩
  · cases names
    obtain ⟨view, known, -⟩ := here
    exact ⟨_, known⟩
  · cases names
    exact ⟨_, here⟩
  · cases names

theorem Store.TypedBy.contents (ht : Store.Typed W st) (known : W.Declares r) :
    ∀ j ∈ st.contents r, j.Typed W := by
  cases r with
  | map i =>
    obtain ⟨t, known⟩ := known
    obtain ⟨es, hes, fits⟩ := ht.maps.get known
    simp only [Store.contents, hes, Option.getD_some, List.mem_flatMap]
    rintro j ⟨e, he, hj⟩
    simp only [List.mem_cons, List.not_mem_nil, or_false] at hj
    rcases hj with rfl | rfl
    · exact (fits e he).1.typed
    · exact (fits e he).2.typed
  | backing i =>
    obtain ⟨t, known⟩ := known
    obtain ⟨items, hitems, -, fits⟩ := ht.backings.get known
    simp only [Store.contents, hitems, Option.getD_some, List.forall_mem_map, Array.mem_toList_iff]
    exact fun v hv => (fits v hv).typed
  | cell i =>
    obtain ⟨t, known⟩ := known
    obtain ⟨v, hv, fits⟩ := ht.cells.get known
    simp only [Store.contents, hv, Option.toList_some]
    exact List.forall_mem_singleton.mpr fits.typed
  | channel i =>
    obtain ⟨t, known⟩ := known
    obtain ⟨c, hc, fits⟩ := ht.channels.get known
    simp only [Store.contents, hc, Option.elim_some, List.forall_mem_map]
    exact fun v hv => (fits v hv).typed
  | table i =>
    obtain ⟨t, known⟩ := known
    obtain ⟨es, hes, typed⟩ := ht.tables.get known
    simp only [Store.contents, hes, Option.getD_some, List.mem_flatMap]
    rintro j ⟨e, he, hj⟩
    simp only [List.mem_cons, List.not_mem_nil, or_false] at hj
    rcases hj with rfl | rfl
    · exact (typed e he).1
    · exact (typed e he).2

theorem Item.Typed.declares_of_reaches (ht : Store.Typed W st) (hi : i.Typed W)
    (h : i.Reaches st r) : W.Declares r := by
  induction h with
  | self names => exact hi.declares names
  | part hj _ ih => exact ih ((Item.typed_iff.mp hi).2 _ hj)
  | inside names hj _ ih => exact ih (ht.contents (hi.declares names) _ hj)

theorem World.Declares.has (ht : Store.Typed W st) (known : W.Declares r) : st.Has r := by
  cases r <;> obtain ⟨t, known⟩ := known <;> have := (List.getElem?_eq_some_iff.mp known).1
  · exact Nat.lt_of_lt_of_eq this ht.maps.size.symm
  · exact Nat.lt_of_lt_of_eq this ht.backings.size.symm
  · exact Nat.lt_of_lt_of_eq this ht.cells.size.symm
  · exact Nat.lt_of_lt_of_eq this ht.channels.size.symm
  · exact Nat.lt_of_lt_of_eq this ht.tables.size.symm

end

end HostBridge
