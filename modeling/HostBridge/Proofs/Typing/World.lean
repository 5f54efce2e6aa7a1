import HostBridge.Proofs.Session.Basic

/-! Typing of storage. A world records which types containers were declared with and who made
what; values are typed in a world, and a store fits it. Worlds only grow. Of some containers a world
knows that nobody has them: no typed value names those, so they stay as they are. -/

namespace HostBridge

/-- What a world knows of a container: the declaration that is true of its contents at any time, or
the contents, which nobody at work can name. -/
inductive Known (τ α : Type)
  | declared (t : τ)
  | frozen (a : α)

namespace Known

variable {τ α : Type} {ks ks' ks'' : List (Known τ α)}

def Grown (ks ks' : List (Known τ α)) : Prop := ∃ ts : List τ, ks' = ks ++ ts.map .declared

theorem Grown.refl (ks : List (Known τ α)) : Grown ks ks := ⟨[], by simp⟩

theorem Grown.trans (h : Grown ks ks') (h' : Grown ks' ks'') : Grown ks ks'' := by
  obtain ⟨ts, rfl⟩ := h
  obtain ⟨us, rfl⟩ := h'
  exact ⟨ts ++ us, by simp⟩

theorem Grown.push (ks : List (Known τ α)) (t : τ) : Grown ks (ks ++ [.declared t]) := ⟨[t], rfl⟩

theorem Grown.getElem? (h : Grown ks ks') {i : Nat} {k : Known τ α} (hk : ks[i]? = some k) :
    ks'[i]? = some k := by
  obtain ⟨ts, rfl⟩ := h
  obtain ⟨hi, _⟩ := List.getElem?_eq_some_iff.mp hk
  rw [List.getElem?_append_left hi, hk]

def All (ks : List (Known τ α)) : Prop := ∀ k ∈ ks, ∃ t, k = .declared t

theorem All.mono (h : Grown ks ks') (all : All ks) : All ks' := by
  obtain ⟨ts, rfl⟩ := h
  intro k hk
  rcases List.mem_append.mp hk with old | new
  · exact all k old
  · obtain ⟨t, _, rfl⟩ := List.mem_map.mp new
    exact ⟨t, rfl⟩

end Known

theorem getElem?_of_isPrefix {α : Type} {xs ys : List α} (h : xs <+: ys) {i : Nat} {a : α}
    (ha : xs[i]? = some a) : ys[i]? = some a := by
  obtain ⟨zs, rfl⟩ := h
  obtain ⟨hi, _⟩ := List.getElem?_eq_some_iff.mp ha
  rw [List.getElem?_append_left hi, ha]

/-- What is expected of a host program at the slots of registries: that nothing is forced into some,
which operator tables may be forced into others, and which may be put there while they are free. -/
structure Rules where
  kept : Nat → String → Prop
  swapped : Nat → String → Nat → Prop
  lent : Nat → String → Nat → Prop

namespace Rules

def none : Rules := ⟨fun _ _ => False, fun _ _ _ => True, fun _ _ _ => True⟩

def of (as : List Action) : Rules where
  kept s key := ∀ type value, .registrySet s key type value ∉ as
  swapped s key set := .registrySet s key .tables set ∈ as
  lent s key set := .registryGetOrInsert s key .tables set ∈ as

def Permits (R : Rules) : Action → Prop
  | .registrySet s key .tables set => ¬R.kept s key ∧ R.swapped s key set
  | .registrySet s key (.foreign _) _ => ¬R.kept s key
  | .registryGetOrInsert s key .tables set => R.lent s key set
  | _ => True

structure Within (R R' : Rules) : Prop where
  kept : ∀ {s : Nat} {key : String}, R'.kept s key → R.kept s key
  swapped : ∀ {s : Nat} {key : String} {set : Nat}, R.swapped s key set → R'.swapped s key set
  lent : ∀ {s : Nat} {key : String} {set : Nat}, R.lent s key set → R'.lent s key set

theorem within_of {as bs : List Action} (sub : as ⊆ bs) : (of as).Within (of bs) where
  kept kept type value forced := kept type value (sub forced)
  swapped forced := sub forced
  lent filled := sub filled

theorem permits_none (a : Action) : none.Permits a := by
  cases a with
  | registrySet s key type value =>
    cases type with
    | tables => exact ⟨id, trivial⟩
    | foreign name => exact id
  | registryGetOrInsert s key type value => cases type <;> trivial
  | _ => trivial

theorem permits_of {as : List Action} {a : Action} (ha : a ∈ as) : (of as).Permits a := by
  cases a with
  | registrySet s key type value =>
    have forced : ¬(of as).kept s key := fun kept => kept type value ha
    cases type with
    | tables => exact ⟨forced, ha⟩
    | foreign name => exact forced
  | registryGetOrInsert s key type value =>
    cases type with
    | tables => exact ha
    | foreign name => trivial
  | _ => trivial

end Rules

/-- What a store does not say of its containers. -/
structure World where
  maps : List (Known (Ty × Ty) (List Entry)) := []
  backings : List (Known (Ty × Nat) (Array Value)) := []
  cells : List (Known Ty Value) := []
  /-- The element type of a channel, and the directions of its references where all have one. -/
  channels : List (Known (Ty × Option (List Direction)) (Channel Value)) := []
  tables : List (Known Unit (List (Script × Script))) := []
  makers : List (Option Nat) := []
  handles : Nat → Option Handle := fun _ => none
  configs : List Config := []
  sets : Nat → Option Nat := fun _ => none
  rules : Rules := .none
  pinned : Nat → String → Option Slot := fun _ _ => none
  /-- The globals of states that nobody at work asks for. -/
  hidden : Nat → String → Prop := fun _ _ => False

namespace World

structure Below (W W' : World) : Prop where
  maps : Known.Grown W.maps W'.maps
  backings : Known.Grown W.backings W'.backings
  cells : Known.Grown W.cells W'.cells
  channels : Known.Grown W.channels W'.channels
  tables : Known.Grown W.tables W'.tables
  makers : W.makers <+: W'.makers
  handles : ∀ {i : Nat} {h : Handle}, W.handles i = some h → W'.handles i = some h
  configs : W.configs <+: W'.configs
  sets : ∀ {s set : Nat}, W.sets s = some set → W'.sets s = some set
  swapped : ∀ {s : Nat} {key : String} {set : Nat}, W.rules.swapped s key set →
    W'.rules.swapped s key set
  lent : ∀ {s : Nat} {key : String} {set : Nat}, W.rules.lent s key set → W'.rules.lent s key set

structure Grows (W W' : World) : Prop where
  below : W.Below W'
  rules : W'.rules = W.rules
  pinned : W'.pinned = W.pinned
  hidden : W'.hidden = W.hidden

structure Extends (worker : Option Nat) (W W' : World) : Prop extends Grows W W' where
  makers : ∃ n, W'.makers = W.makers ++ List.replicate n worker

theorem Below.refl (W : World) : W.Below W where
  maps := .refl _
  backings := .refl _
  cells := .refl _
  channels := .refl _
  tables := .refl _
  makers := List.prefix_refl _
  handles h := h
  configs := List.prefix_refl _
  sets h := h
  swapped h := h
  lent h := h

theorem Below.trans {W W' W'' : World} (h : W.Below W') (h' : W'.Below W'') : W.Below W'' where
  maps := h.maps.trans h'.maps
  backings := h.backings.trans h'.backings
  cells := h.cells.trans h'.cells
  channels := h.channels.trans h'.channels
  tables := h.tables.trans h'.tables
  makers := h.makers.trans h'.makers
  handles hi := h'.handles (h.handles hi)
  configs := h.configs.trans h'.configs
  sets hs := h'.sets (h.sets hs)
  swapped hs := h'.swapped (h.swapped hs)
  lent hs := h'.lent (h.lent hs)

theorem Grows.refl (W : World) : W.Grows W := ⟨.refl W, rfl, rfl, rfl⟩

theorem Grows.trans {W W' W'' : World} (h : W.Grows W') (h' : W'.Grows W'') : W.Grows W'' where
  below := h.below.trans h'.below
  rules := h'.rules.trans h.rules
  pinned := h'.pinned.trans h.pinned
  hidden := h'.hidden.trans h.hidden

variable {worker : Option Nat}

theorem Extends.refl (W : World) : W.Extends worker W where
  toGrows := .refl W
  makers := ⟨0, by simp⟩

theorem Extends.trans {W W' W'' : World} (h : W.Extends worker W') (h' : W'.Extends worker W'') :
    W.Extends worker W'' where
  toGrows := h.toGrows.trans h'.toGrows
  makers := by
    obtain ⟨n, hn⟩ := h.makers
    obtain ⟨m, hm⟩ := h'.makers
    exact ⟨n + m, by rw [hm, hn, List.append_assoc, List.replicate_append_replicate]⟩

structure Whole (W : World) : Prop where
  maps : Known.All W.maps
  backings : Known.All W.backings
  cells : Known.All W.cells
  channels : Known.All W.channels
  tables : Known.All W.tables
  pinned : W.pinned = fun _ _ => none
  hidden : W.hidden = fun _ _ => False

theorem Whole.mono {W W' : World} (whole : W.Whole) (h : W.Grows W') : W'.Whole where
  maps := whole.maps.mono h.below.maps
  backings := whole.backings.mono h.below.backings
  cells := whole.cells.mono h.below.cells
  channels := whole.channels.mono h.below.channels
  tables := whole.tables.mono h.below.tables
  pinned := h.pinned.trans whole.pinned
  hidden := h.hidden.trans whole.hidden

end World

def Field.Accept (fs : List Field) (vs : List Value) : Prop :=
  vs.length = fs.length ∧
    ∀ (i : Nat) (f : Field) (v : Value), fs[i]? = some f → vs[i]? = some v → f.type.accepts v = true

def Payload.kind? : Payload → Option HandleKind
  | .value (.chan _) => some .chan
  | .value (.map _) => some .map
  | .value (.slice _) => some .slice
  | .value (.struct ..) => some .struct
  | .value (.ptr _) => some .ptr
  | .type _ => some .type
  | _ => none

def Payload.IsInert (policy : Policy) : Payload → Prop
  | .value (.address _) | .value (.boxed ⟨_, .foreign _⟩) => True
  | .value (.complex ..) => policy = .inert
  | _ => False

def World.Under (W : World) (s : Nat) (P : String → Prop) : Prop :=
  ∃ c : Config, W.configs[s]? = some c ∧ P c.registryKey

def World.Uses (W : World) (s set : Nat) : Prop :=
  W.sets s = some set ∨ W.Under s (W.rules.swapped s · set)

def World.Origin (W : World) (s set : Nat) : Prop :=
  W.makers[set]? = some (some s) ∨ W.Under s (W.rules.lent s · set)

structure Handle.MadeBy (W : World) (s : Nat) (h : Handle) : Prop where
  maker : W.makers[h.id]? = some (some s)
  known : W.handles h.id = some h
  table : ∀ {t : OperatorTable}, h.table = some t →
    h.payload.kind? = some t.kind ∧ W.Uses s t.set
  inert : h.table = none → ∃ c : Config, W.configs[s]? = some c ∧ h.payload.IsInert c.unsupported

/-- What typing asks of a value itself, its parts apart: references carry the declared types. -/
def Item.Local (W : World) : Item → Prop
  | .value (.map m) => W.maps[m.id]? = some (.declared (m.key, m.elem))
  | .value (.slice w) => ∃ n, W.backings[w.backing]? = some (.declared (w.elem, n)) ∧
    w.offset + w.cap ≤ n ∧ w.len ≤ w.cap
  | .value (.ptr p) => ∀ i, p.cell = some i → W.cells[i]? = some (.declared p.elem)
  | .value (.chan c) => ∃ view, W.channels[c.id]? = some (.declared (c.elem, view)) ∧
    ∀ ds ∈ view, .both ∉ ds ∧ c.direction ∈ ds
  | .value (.struct t vs) => Field.Accept t.fields vs
  | .script (.handle h) => ∃ s, h.MadeBy W s
  | .script (.table i) => W.tables[i]? = some (.declared ())
  | _ => True

inductive Item.Typed (W : World) : Item → Prop
  | intro {i : Item} : i.Local W → (∀ j ∈ i.parts, j.Typed W) → i.Typed W

def Value.Typed (W : World) (v : Value) : Prop := (Item.value v).Typed W

def Script.Typed (W : World) (x : Script) : Prop := (Item.script x).Typed W

def Payload.Typed (W : World) : Payload → Prop
  | .value v => v.Typed W
  | .type _ => True

section

variable {W W' : World} {s set : Nat} {P Q : String → Prop} {c : Config}

theorem World.Under.mono (le : W.Below W') (imp : ∀ {key}, P key → Q key) (h : W.Under s P) :
    W'.Under s Q := by
  obtain ⟨c, hc, hp⟩ := h
  exact ⟨c, getElem?_of_isPrefix le.configs hc, imp hp⟩

theorem World.under_iff (hc : W.configs[s]? = some c) : W.Under s P ↔ P c.registryKey := by
  constructor
  · rintro ⟨c', hc', hp⟩
    cases hc.symm.trans hc'
    exact hp
  · exact fun hp => ⟨c, hc, hp⟩

theorem World.Uses.mono (le : W.Below W') (h : W.Uses s set) : W'.Uses s set :=
  h.imp le.sets (.mono le le.swapped)

theorem World.Uses.built (h : W.Uses s set) (hc : W.configs[s]? = some c)
    (own : ¬W.rules.swapped s c.registryKey set) : W.sets s = some set :=
  h.resolve_right fun swapped => own ((under_iff hc).mp swapped)

theorem World.Origin.mono (le : W.Below W') (h : W.Origin s set) : W'.Origin s set :=
  h.imp (getElem?_of_isPrefix le.makers) (.mono le le.lent)

end

theorem Handle.MadeBy.mono {W W' : World} (le : W.Below W') {s : Nat} {h : Handle}
    (made : h.MadeBy W s) : h.MadeBy W' s where
  maker := getElem?_of_isPrefix le.makers made.maker
  known := le.handles made.known
  table ht := ⟨(made.table ht).1, (made.table ht).2.mono le⟩
  inert ht := by
    obtain ⟨c, hc, hp⟩ := made.inert ht
    exact ⟨c, getElem?_of_isPrefix le.configs hc, hp⟩

theorem Handle.MadeBy.eq_of_id {W : World} {s s' : Nat} {h k : Handle} (made : h.MadeBy W s)
    (made' : k.MadeBy W s') (eq : h.id = k.id) : h = k :=
  Option.some.inj (made.known.symm.trans (eq ▸ made'.known))

theorem Item.Local.mono {W W' : World} (le : W.Below W') {i : Item} (h : i.Local W) :
    i.Local W' := by
  simp only [Item.Local] at h ⊢
  split at h
  · exact le.maps.getElem? h
  · obtain ⟨n, hn, bounds⟩ := h
    exact ⟨n, le.backings.getElem? hn, bounds⟩
  · exact fun i hi => le.cells.getElem? (h i hi)
  · obtain ⟨view, hc, held⟩ := h
    exact ⟨view, le.channels.getElem? hc, held⟩
  · exact h
  · obtain ⟨s, made⟩ := h
    exact ⟨s, made.mono le⟩
  · exact le.tables.getElem? h
  · trivial

theorem Item.Typed.mono {W W' : World} (le : W.Below W') {i : Item} (h : i.Typed W) :
    i.Typed W' := by
  induction h with
  | intro hl _ ih => exact .intro (hl.mono le) ih

theorem Value.Typed.mono {W W' : World} (le : W.Below W') {v : Value} (h : v.Typed W) :
    v.Typed W' := Item.Typed.mono le h

theorem Script.Typed.mono {W W' : World} (le : W.Below W') {x : Script} (h : x.Typed W) :
    x.Typed W' := Item.Typed.mono le h

theorem Payload.Typed.mono {W W' : World} (le : W.Below W') {p : Payload} (h : p.Typed W) :
    p.Typed W' := by
  cases p with
  | value v => exact Value.Typed.mono le h
  | type t => trivial

theorem Payload.Typed.value {W : World} {p : Payload} (h : p.Typed W) {v : Value}
    (eq : p = .value v) : v.Typed W := by
  subst eq
  exact h

theorem Item.typed_iff {W : World} {i : Item} :
    i.Typed W ↔ i.Local W ∧ ∀ j ∈ i.parts, j.Typed W := by
  constructor
  · intro h
    cases h with
    | intro hl hp => exact ⟨hl, hp⟩
  · rintro ⟨hl, hp⟩
    exact .intro hl hp

theorem Item.typed_iff_local {W : World} {i : Item} (hp : i.parts = []) :
    i.Typed W ↔ i.Local W := by
  rw [typed_iff, hp]
  exact and_iff_left (List.forall_mem_nil _)

theorem Item.typed_of_leaf {W : World} {i : Item} (hl : i.Local W) (hp : i.parts = []) :
    i.Typed W := (typed_iff_local hp).mpr hl

section

variable {W : World}

theorem Value.typed_of_isPlain {v : Value} (h : v.isPlain = true) : v.Typed W := by
  cases v <;> first | exact Item.typed_of_leaf trivial rfl | cases h

theorem Script.typed_of_isPlain {x : Script} (h : x.isPlain = true) : x.Typed W := by
  cases x <;> first | exact Item.typed_of_leaf trivial rfl | cases h

@[simp] theorem Value.typed_nil : Value.nil.Typed W := typed_of_isPlain rfl

@[simp] theorem Value.typed_map {m : Map} :
    (Value.map m).Typed W ↔ W.maps[m.id]? = some (.declared (m.key, m.elem)) :=
  Item.typed_iff_local rfl

@[simp] theorem Value.typed_slice {w : Slice} : (Value.slice w).Typed W ↔
    ∃ n, W.backings[w.backing]? = some (.declared (w.elem, n)) ∧ w.offset + w.cap ≤ n ∧
      w.len ≤ w.cap :=
  Item.typed_iff_local rfl

@[simp] theorem Value.typed_ptr {p : Pointer} :
    (Value.ptr p).Typed W ↔ ∀ i, p.cell = some i → W.cells[i]? = some (.declared p.elem) :=
  Item.typed_iff_local rfl

@[simp] theorem Value.typed_chan {c : Chan} :
    (Value.chan c).Typed W ↔ ∃ view, W.channels[c.id]? = some (.declared (c.elem, view)) ∧
      ∀ ds ∈ view, .both ∉ ds ∧ c.direction ∈ ds :=
  Item.typed_iff_local rfl

@[simp] theorem Value.typed_struct {t : StructTy} {vs : List Value} :
    (Value.struct t vs).Typed W ↔ Field.Accept t.fields vs ∧ ∀ v ∈ vs, v.Typed W :=
  Item.typed_iff.trans (by simp [Value.Typed, Item.Local, Item.parts])

@[simp] theorem Value.typed_boxed_script {i : Nat} {x : Script} :
    (Value.boxed ⟨i, .script x⟩).Typed W ↔ x.Typed W :=
  Item.typed_iff.trans (by simp [Script.Typed, Item.Local, Item.parts])

@[simp] theorem Value.typed_boxed_type {i : Nat} {t : Ty} :
    (Value.boxed ⟨i, .type t⟩).Typed W := Item.typed_of_leaf trivial rfl

@[simp] theorem Value.typed_boxed_foreign {i n : Nat} :
    (Value.boxed ⟨i, .foreign n⟩).Typed W := Item.typed_of_leaf trivial rfl

@[simp] theorem Script.typed_nil : Script.nil.Typed W := typed_of_isPlain rfl

@[simp] theorem Script.typed_number {x : Double} : (Script.number x).Typed W :=
  typed_of_isPlain rfl

@[simp] theorem Script.typed_table {i : Nat} :
    (Script.table i).Typed W ↔ W.tables[i]? = some (.declared ()) :=
  Item.typed_iff_local rfl

@[simp] theorem Script.typed_state {i : Nat} : (Script.state i).Typed W :=
  Item.typed_of_leaf trivial rfl

@[simp] theorem Script.typed_function {f : Closure} :
    (Script.function f).Typed W ↔ ∀ i ∈ f.code.parts, i.Typed W :=
  Item.typed_iff.trans (by simp [Item.Local, Item.parts])

@[simp] theorem Script.typed_handle {h : Handle} :
    (Script.handle h).Typed W ↔ (∃ s, h.MadeBy W s) ∧ h.payload.Typed W := by
  refine Item.typed_iff.trans (and_congr_right fun _ => ?_)
  obtain ⟨i, payload, t⟩ := h
  cases payload <;> simp [Item.parts, Payload.Typed, Value.Typed]

end

end HostBridge
