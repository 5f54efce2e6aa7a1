import HostBridge.Proofs.Storage.Reach

/-! Who does not reach storage does not change it. A session in which only a part of all that there
is takes part is at work in a world that knows nothing else, where all other storage is frozen. -/

namespace HostBridge

namespace Known

variable {τ α : Type} {keep : Nat → Prop} {h : Heap α} {ks : List (Known τ α)} {i : Nat}

open Classical in
noncomputable def freeze (keep : Nat → Prop) (h : Heap α) (ks : List (Known τ α)) :
    List (Known τ α) :=
  ks.mapIdx fun i k => if keep i then k else (h.get? i).elim k .frozen

theorem getElem?_freeze_of_keep (kept : keep i) : (freeze keep h ks)[i]? = ks[i]? := by
  simp [freeze, kept]

theorem getElem?_freeze (gone : ¬keep i) :
    (freeze keep h ks)[i]? = ks[i]?.map fun k => (h.get? i).elim k .frozen := by
  simp [freeze, gone]

end Known

namespace Heap.Fits

variable {τ α : Type} {keep : Nat → Prop} {h : Heap α} {ks : List (Known τ α)}
  {R R' : τ → α → Prop}

theorem freeze (fits : h.Fits R ks) (imp : ∀ {i t a}, keep i → ks[i]? = some (.declared t) →
    h.get? i = some a → R t a → R' t a) : h.Fits R' (Known.freeze keep h ks) where
  size := by simp [Known.freeze, fits.size]
  rel := by
    intro i t a known ha
    by_cases kept : keep i
    · rw [Known.getElem?_freeze_of_keep kept] at known
      exact imp kept known ha (fits.rel known ha)
    · simp [Known.getElem?_freeze kept, ha] at known
  frozen := by
    intro i a known
    by_cases kept : keep i
    · rw [Known.getElem?_freeze_of_keep kept] at known
      exact fits.frozen known
    · rw [Known.getElem?_freeze kept, Option.map_eq_some_iff] at known
      obtain ⟨k, hk, eq⟩ := known
      cases ha : h.get? i with
      | some b =>
        rw [ha] at eq
        cases eq
        rfl
      | none =>
        rw [ha] at eq
        cases eq
        exact ha ▸ fits.frozen hk

theorem get?_of_freeze (fits : h.Fits R ks) {ks' : List (Known τ α)} {h' : Heap α}
    (grown : Known.Grown (Known.freeze keep h ks) ks') (fits' : h'.Fits R' ks') {i : Nat}
    (there : i < h.size) (gone : ¬keep i) :
    h'.get? i = h.get? i ∧ ¬∃ t, ks'[i]? = some (.declared t) := by
  have ha : h.get? i = some h.items[i] := Array.getElem?_eq_getElem there
  have within : i < ks.length := Nat.lt_of_lt_of_eq there fits.size
  have frozen : (Known.freeze keep h ks)[i]? = some (.frozen h.items[i]) := by
    rw [Known.getElem?_freeze gone, List.getElem?_eq_getElem within, ha]
    rfl
  refine ⟨(fits'.frozen (grown.getElem? frozen)).trans ha.symm, fun ⟨t, known⟩ => ?_⟩
  cases (grown.getElem? frozen).symm.trans known

end Heap.Fits

/-- The world of those who have nothing but some of the storage and some of the globals. -/
noncomputable def World.freeze (W : World) (st : Store) (reach : Ref → Prop)
    (hidden : Nat → String → Prop) : World :=
  { W with
    maps := Known.freeze (fun i => reach (.map i)) st.maps W.maps
    backings := Known.freeze (fun i => reach (.backing i)) st.backings W.backings
    cells := Known.freeze (fun i => reach (.cell i)) st.cells W.cells
    channels := Known.freeze (fun i => reach (.channel i)) st.channels W.channels
    tables := Known.freeze (fun i => reach (.table i)) st.tables W.tables
    hidden }

section

variable {W : World} {st : Store} {reach : Ref → Prop} {hidden : Nat → String → Prop}

theorem Item.Local.freeze {i : Item} (h : i.Local W) (names : ∀ r, i.ref? = some r → reach r) :
    i.Local (W.freeze st reach hidden) := by
  simp only [Item.Local] at h ⊢
  split at h
  · rw [World.freeze, Known.getElem?_freeze_of_keep (names _ rfl)]
    exact h
  · obtain ⟨n, known, bounds⟩ := h
    refine ⟨n, ?_, bounds⟩
    rw [World.freeze, Known.getElem?_freeze_of_keep (names _ rfl)]
    exact known
  · intro c hc
    rw [World.freeze, Known.getElem?_freeze_of_keep (names _ (by simp [Item.ref?, hc]))]
    exact h c hc
  · obtain ⟨view, known, held⟩ := h
    refine ⟨view, ?_, held⟩
    rw [World.freeze, Known.getElem?_freeze_of_keep (names _ rfl)]
    exact known
  · exact h
  · obtain ⟨s, made⟩ := h
    exact ⟨s, made.maker, made.known, made.table, made.inert⟩
  · rw [World.freeze, Known.getElem?_freeze_of_keep (names _ rfl)]
    exact h
  · trivial

theorem Item.Typed.freeze {i : Item} (h : i.Typed W) (within : ∀ r, i.Reaches st r → reach r) :
    i.Typed (W.freeze st reach hidden) := by
  induction h with
  | intro hl _ ih =>
    refine .intro (hl.freeze fun r names => within r (.self names)) fun j hj => ?_
    exact ih j hj fun r h => within r (.part hj h)

theorem Store.TypedBy.freeze (ht : Store.Typed W st) (whole : W.Whole)
    (closed : ∀ {r : Ref} {j : Item}, reach r → j ∈ st.contents r →
      ∀ r', j.Reaches st r' → reach r')
    (shown : ∀ {s : Nat} {state : State} {g : String × Script}, st.states.get? s = some state →
      g ∈ state.globals → ¬hidden s g.1 → ∀ r, (Item.script g.2).Reaches st r → reach r) :
    Store.Typed (W.freeze st reach hidden) st := by
  have kept {r : Ref} (hr : reach r) {j : Item} (hj : j ∈ st.contents r) (typed : j.Typed W) :
      j.Typed (W.freeze st reach hidden) := typed.freeze (closed hr hj)
  exact {
    ht with
    maps := ht.maps.freeze fun hr _ hes fits e he => by
      obtain ⟨key, value⟩ := Store.mem_contents_map hes he
      exact ⟨⟨(fits e he).1.accepts, kept hr key (fits e he).1.typed⟩,
        (fits e he).2.accepts, kept hr value (fits e he).2.typed⟩
    backings := ht.backings.freeze fun hr _ hitems fits => by
      refine ⟨fits.1, fun v hv => ⟨(fits.2 v hv).accepts, kept hr ?_ (fits.2 v hv).typed⟩⟩
      simpa [Store.contents, hitems] using hv
    cells := ht.cells.freeze fun hr _ hv fits =>
      ⟨fits.accepts, kept hr (by simp [Store.contents, hv]) fits.typed⟩
    channels := ht.channels.freeze fun hr _ hc fits v hv => by
      refine ⟨(fits v hv).accepts, kept hr ?_ (fits v hv).typed⟩
      simpa [Store.contents, hc] using hv
    tables := ht.tables.freeze fun hr _ hes typed e he => by
      obtain ⟨key, value⟩ := Store.mem_contents_table hes he
      exact ⟨kept hr key (typed e he).1, kept hr value (typed e he).2⟩
    globals := fun hs g hg visible =>
      (ht.globals hs g hg (by simp [whole.hidden])).freeze (shown hs hg visible) }

theorem Store.TypedBy.same_of_freeze (ht : Store.Typed W st) {W' : World}
    (le : (W.freeze st reach hidden).Below W') {st' : Store} (ht' : Store.Typed W' st') {r : Ref}
    (there : st.Has r) (apart : ¬reach r) : st.SameAt st' r ∧ ¬W'.Declares r := by
  cases r with
  | map => exact ht.maps.get?_of_freeze le.maps ht'.maps there apart
  | backing => exact ht.backings.get?_of_freeze le.backings ht'.backings there apart
  | cell => exact ht.cells.get?_of_freeze le.cells ht'.cells there apart
  | channel => exact ht.channels.get?_of_freeze le.channels ht'.channels there apart
  | table => exact ht.tables.get?_of_freeze le.tables ht'.tables there apart

end

namespace Session

/-- The session `S`, for somebody who has some of what is there, and whose functions know no more
than that. -/
structure Part (S T : Session) : Prop where
  store : T.store = S.store
  makers : T.makers = S.makers
  held : ∀ i ∈ T.held, S.Occurs i
  host : ∀ n, ∃ captured : List Value, captured.map .value ⊆ T.held ∧ (T.host n).Checked captured

inductive Reaches (S : Session) (as : List Action) (r : Ref) : Prop
  | held {i : Item} : i ∈ S.held → i.Reaches S.store r → S.Reaches as r
  | global {s : Nat} {state : State} {name : String} {x : Script} :
    .global s name ∈ as → S.store.states.get? s = some state → (name, x) ∈ state.globals →
      (Item.script x).Reaches S.store r → S.Reaches as r

theorem Reaches.trans {S : Session} {as : List Action} {r r' : Ref} (h : S.Reaches as r)
    {j : Item} (hj : j ∈ S.store.contents r) (h' : j.Reaches S.store r') : S.Reaches as r' := by
  cases h with
  | held hi first => exact .held hi (first.trans hj h')
  | global asked hs hg first => exact .global asked hs hg (first.trans hj h')

variable {W : World} {S T T' : Session} {as : List Action}

noncomputable def Part.world (W : World) (T : Session) (as : List Action) : World :=
  W.freeze T.store (T.Reaches as) fun s name => .global s name ∉ as

theorem Part.lives (part : S.Part T) (fits : S.Fits W) : T.Lives (Part.world W T as) := by
  have ht : Store.Typed W T.store := part.store ▸ fits.store
  have held : ∀ i ∈ T.held, i.Typed (Part.world W T as) := fun i hi =>
    (fits.occurs (part.held i hi)).freeze fun r h => .held hi h
  refine ⟨?_, held, fun n => ?_, part.makers.trans fits.makers⟩
  · refine ht.freeze fits.whole (fun h hj r' h' => h.trans hj h') fun hs hg visible r h => ?_
    exact .global (Classical.not_not.mp visible) hs hg h
  · obtain ⟨captured, sub, checked⟩ := part.host n
    exact ⟨captured, fun v hv => held _ (sub (List.mem_map_of_mem hv)), checked⟩

theorem Part.permits (fits : S.Fits W) (rules : W.rules = .none) {a : Action} (ha : a ∈ as) :
    (Part.world W T as).Permits a where
  rules := by
    have same : (Part.world W T as).rules = .none := rules
    rw [same]
    exact Rules.permits_none a
  unpinned _ := by simp [Part.world, World.freeze, fits.whole.pinned]
  shown eq hidden := hidden (eq ▸ ha)

/-- Whatever is done by those who do not reach a piece of storage, its contents stay, and they do
not come to reach it. -/
theorem Part.untouched (part : S.Part T) (fits : S.Fits W) (rules : W.rules = .none)
    (run : Run T as T') {r : Ref} (there : S.store.Has r) (apart : ¬T.Reaches as r) :
    S.store.SameAt T'.store r ∧ ¬T'.Reaches as r := by
  have ht : Store.Typed W T.store := part.store ▸ fits.store
  obtain ⟨W', le, lives⟩ := run.lives (part.lives fits) fun a ha => Part.permits fits rules ha
  obtain ⟨same, frozen⟩ := ht.same_of_freeze le.below lives.store (part.store ▸ there) apart
  refine ⟨part.store ▸ same, fun reached => frozen ?_⟩
  cases reached with
  | held hi h => exact (lives.held _ hi).declares_of_reaches lives.store h
  | global asked hs hg h =>
    refine Item.Typed.declares_of_reaches lives.store (lives.store.globals hs _ hg ?_) h
    rw [le.hidden]
    exact fun hidden => hidden asked

end Session

end HostBridge
