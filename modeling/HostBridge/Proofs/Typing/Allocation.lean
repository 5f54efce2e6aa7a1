import HostBridge.Proofs.Typing.Safe

namespace HostBridge

variable {worker : Option Nat} {W : World}

namespace World

variable {W' : World}

theorem Extends.of_makers_eq (below : W.Below W') (makers : W'.makers = W.makers)
    (rules : W'.rules = W.rules) (pinned : W'.pinned = W.pinned) (hidden : W'.hidden = W.hidden) :
    W.Extends worker W' where
  below := below
  makers := ⟨0, by simp [makers]⟩
  rules := rules
  pinned := pinned
  hidden := hidden

theorem extends_map (t : Ty × Ty) :
    W.Extends worker { W with maps := W.maps ++ [.declared t] } :=
  .of_makers_eq { Below.refl W with maps := .push .. } rfl rfl rfl rfl

theorem extends_backing (t : Ty × Nat) :
    W.Extends worker { W with backings := W.backings ++ [.declared t] } :=
  .of_makers_eq { Below.refl W with backings := .push .. } rfl rfl rfl rfl

theorem extends_cell (t : Ty) :
    W.Extends worker { W with cells := W.cells ++ [.declared t] } :=
  .of_makers_eq { Below.refl W with cells := .push .. } rfl rfl rfl rfl

theorem extends_channel (t : Ty × Option (List Direction)) :
    W.Extends worker { W with channels := W.channels ++ [.declared t] } :=
  .of_makers_eq { Below.refl W with channels := .push .. } rfl rfl rfl rfl

theorem extends_table : W.Extends worker { W with tables := W.tables ++ [.declared ()] } :=
  .of_makers_eq { Below.refl W with tables := .push .. } rfl rfl rfl rfl

theorem extends_config (c : Config) : W.Extends worker { W with configs := W.configs ++ [c] } :=
  .of_makers_eq { Below.refl W with configs := List.prefix_append .. } rfl rfl rfl rfl

def made (worker : Option Nat) (W : World) : World := { W with makers := W.makers ++ [worker] }

theorem extends_made : W.Extends worker (W.made worker) where
  below := { Below.refl W with makers := List.prefix_append .. }
  makers := ⟨1, rfl⟩
  rules := rfl
  pinned := rfl
  hidden := rfl

def named (W : World) (h : Handle) : World :=
  { W with handles := fun i => if i = h.id then some h else W.handles i }

theorem extends_named {h : Handle} (free : W.handles h.id = none) :
    W.Extends worker (W.named h) := by
  refine .of_makers_eq { Below.refl W with handles := ?_ } rfl rfl rfl rfl
  intro i k hk
  have ne : i ≠ h.id := by
    rintro rfl
    rw [free] at hk
    cases hk
  simp [named, ne, hk]

end World

namespace Store

theorem freshId_keeps : Keeps worker W freshId fun W' id =>
    W' = W.made worker ∧ W'.makers[id]? = some worker ∧ W'.handles id = none := by
  apply Keeps.modifyGet
  intro st ht
  refine ⟨_, World.extends_made, ?_, rfl, ?_, ht.handles (Nat.le_of_eq ht.fresh.symm)⟩
  · have ht' := ht.mono (World.extends_made : W.Extends worker _).below
    exact {
      ht' with
      fresh := by simp [World.made, ht.fresh]
      handles := by
        intro i hi
        simp only [World.made, List.length_append] at hi
        exact ht.handles (by omega)
      builder := fun built => (ht.builder built).mono World.extends_made.below }
  · simp [World.made, ht.fresh]

theorem named_keeps {h : Handle} (free : W.handles h.id = none) (made : h.id < W.makers.length) :
    Keeps worker W (pure h) fun W' k => k = h ∧ W' = W.named h := by
  intro st ht
  have le : W.Extends worker (W.named h) := World.extends_named free
  refine ⟨_, le, ?_, rfl, rfl⟩
  have ht' := ht.mono le.below
  refine { ht' with handles := ?_ }
  intro i hi
  have ne : i ≠ h.id := by
    rintro rfl
    exact absurd made (Nat.not_lt.mpr hi)
  simpa [World.named, ne] using ht.handles hi

theorem newMap_keeps (key elem : Ty) {es : List Entry}
    (h : ∀ e ∈ es, e.key.Fits W key ∧ e.value.Fits W elem) :
    Keeps worker W (newMap es) fun W' id => W'.maps[id]? = some (.declared (key, elem)) := by
  apply Keeps.modifyGet
  intro st ht
  refine ⟨_, World.extends_map (key, elem), ?_, ?_⟩
  · have le := (World.extends_map (key, elem) : W.Extends worker _).below
    have ht' := ht.mono le
    exact { ht' with maps := ht'.maps.push fun e he => ⟨(h e he).1.mono le, (h e he).2.mono le⟩ }
  · simp [ht.maps.size]

theorem newBacking_keeps (elem : Ty) {items : Array Value} (h : ∀ v ∈ items, v.Fits W elem) :
    Keeps worker W (newBacking items) fun W' id =>
      W'.backings[id]? = some (.declared (elem, items.size)) := by
  apply Keeps.modifyGet
  intro st ht
  refine ⟨_, World.extends_backing (elem, items.size), ?_, ?_⟩
  · have le := (World.extends_backing (elem, items.size) : W.Extends worker _).below
    have ht' := ht.mono le
    exact { ht' with backings := ht'.backings.push ⟨rfl, fun v hv => (h v hv).mono le⟩ }
  · simp [ht.backings.size]

theorem newCell_keeps (elem : Ty) {v : Value} (h : v.Fits W elem) :
    Keeps worker W (newCell v) fun W' id => W'.cells[id]? = some (.declared elem) := by
  apply Keeps.modifyGet
  intro st ht
  refine ⟨_, World.extends_cell elem, ?_, ?_⟩
  · have le := (World.extends_cell elem : W.Extends worker _).below
    have ht' := ht.mono le
    exact { ht' with cells := ht'.cells.push (h.mono le) }
  · simp [ht.cells.size]

theorem newChannel_keeps (elem : Ty) {c : Channel Value} (h : ∀ v ∈ c.queue, v.Fits W elem) :
    Keeps worker W (newChannel c) fun W' id =>
      W'.channels[id]? = some (.declared (elem, none)) := by
  apply Keeps.modifyGet
  intro st ht
  refine ⟨_, World.extends_channel (elem, none), ?_, ?_⟩
  · have le := (World.extends_channel (elem, none) : W.Extends worker _).below
    have ht' := ht.mono le
    exact { ht' with channels := ht'.channels.push fun v hv => (h v hv).mono le }
  · simp [ht.channels.size]

theorem newTable_keeps {es : List (Script × Script)}
    (h : ∀ e ∈ es, e.1.Typed W ∧ e.2.Typed W) :
    Keeps worker W (newTable es) fun W' id => W'.tables[id]? = some (.declared ()) := by
  apply Keeps.modifyGet
  intro st ht
  refine ⟨_, World.extends_table, ?_, ?_⟩
  · have le := (World.extends_table : W.Extends worker _).below
    have ht' := ht.mono le
    have typed := fun e he => And.intro ((h e he).1.mono le) ((h e he).2.mono le)
    exact { ht' with tables := ht'.tables.push typed }
  · simp [ht.tables.size]

theorem newCursor_keeps : Keeps worker W newCursor fun _ _ => True :=
  Keeps.modifyGet fun _ ht => ⟨W, .refl W, { ht with }, trivial⟩

theorem lt_of_slot {st : Store} {s : Nat} {key : String} {slot : Slot}
    (h : State.slot? st s key = some slot) : s < st.states.size := by
  refine Nat.lt_of_not_le fun le => ?_
  have absent : st.states.get? s = none := Array.getElem?_eq_none le
  simp [State.slot?, state, absent, Assoc.find] at h

theorem newState_keeps {config : Config} :
    Keeps worker W (newState config) fun W' s => W'.configs[s]? = some config := by
  apply Keeps.modifyGet
  intro st ht
  refine ⟨_, World.extends_config config, ?_, ?_⟩
  · have le := (World.extends_config config : W.Extends worker _).below
    have ht' := ht.mono le
    exact {
      ht' with
      globals := by
        intro s state hs
        rw [Heap.get?_push] at hs
        split at hs
        · cases hs
          simp
        · exact ht'.globals hs
      states := by simp [ht.states]
      config := by
        intro s state hs
        rw [Heap.get?_push] at hs
        split at hs
        · rename_i eq
          cases hs
          simp [eq, ht.states]
        · exact getElem?_of_isPrefix (List.prefix_append ..) (ht.config hs)
      slot := by
        intro s state hs
        rw [Heap.get?_push] at hs
        split at hs
        · rename_i eq
          cases hs
          exact ht.sets (by simp [eq, ht.states])
        · exact ht.slot hs
      sets := by
        intro s hs
        simp only [List.length_append] at hs
        exact ht.sets (by omega)
      builder := fun built => (ht.builder built).mono le
      pinned := by
        intro s key slot hs
        have old := ht.pinned hs
        have ne := Nat.ne_of_lt (lt_of_slot old)
        simpa [State.slot?, state, Heap.get?_push, ne] using old }
  · simp [ht.states]

end Store

theorem Box.make_keeps {content : Content} (h : ∀ i, (Value.boxed ⟨i, content⟩).Typed W) :
    Keeps worker W (Box.make content) fun W' v => v.Typed W' := by
  apply Store.freshId_keeps.bind
  intro W' i le _
  apply Keeps.pure
  exact (h i).mono le.below

theorem Value.fits_of_isPlain {t : Ty} {v : Value} (plain : v.isPlain = true)
    (h : t.accepts v = true) : v.Fits W t := ⟨h, typed_of_isPlain plain⟩

theorem Value.accepts_type (v : Value) : v.type.accepts v = true := by
  cases v <;> simp [Value.type, Ty.accepts, Chan.type, Map.type, Slice.type, Pointer.type]

theorem Field.accept_nil : Field.Accept [] [] := ⟨rfl, by simp⟩

theorem Field.accept_cons {f : Field} {fs : List Field} {v : Value} {vs : List Value}
    (hv : f.type.accepts v = true) (h : Accept fs vs) : Accept (f :: fs) (v :: vs) := by
  refine ⟨by simp [h.1], fun i g w hg hw => ?_⟩
  cases i with
  | zero =>
    cases hg
    cases hw
    exact hv
  | succ i => exact h.2 i g w hg hw

section Zero

theorem Ty.accepts_struct {t : StructTy} {vs : List Value} :
    (Ty.struct t).accepts (.struct t vs) = true := by simp [Ty.accepts, Value.type]

mutual

theorem Ty.zero_keeps (W : World) (t : Ty) : Keeps worker W t.zero fun W' v => v.Fits W' t := by
  cases t with
  | bool | int _ | uint _ | float _ | complex _ | string | func _ | chan | any | address =>
    simp only [Ty.zero]
    exact Keeps.pure (Value.fits_of_isPlain rfl (by simp [Ty.accepts, Value.type]))
  | map k e =>
    simp only [Ty.zero]
    apply (Store.newMap_keeps k e (by simp)).bind
    intro W' i _ hi
    exact Keeps.pure ⟨by simp [Ty.accepts, Value.type, Map.type], by simp [hi]⟩
  | slice e =>
    simp only [Ty.zero]
    apply (Store.newBacking_keeps e (by simp)).bind
    intro W' i _ hi
    exact Keeps.pure ⟨by simp [Ty.accepts, Value.type, Slice.type], by simp [hi]⟩
  | struct t =>
    simp only [Ty.zero]
    exact StructTy.zero_keeps W t
  | ptr e =>
    simp only [Ty.zero]
    exact Keeps.pure ⟨by simp [Ty.accepts, Value.type, Pointer.type], by simp⟩

theorem StructTy.zero_keeps (W : World) (t : StructTy) :
    Keeps worker W t.zero fun W' v => v.Fits W' (.struct t) := by
  obtain ⟨name, fields, methods⟩ := t
  simp only [StructTy.zero]
  apply (Field.zeros_keeps W fields).bind
  intro W' vs _ hvs
  apply Keeps.pure
  exact ⟨Ty.accepts_struct, by simpa using hvs⟩

theorem Field.zeros_keeps (W : World) (fs : List Field) :
    Keeps worker W (Field.zeros fs) fun W' vs => Field.Accept fs vs ∧ ∀ v ∈ vs, v.Typed W' := by
  match fs with
  | [] =>
    simp only [Field.zeros]
    exact Keeps.pure ⟨Field.accept_nil, by simp⟩
  | ⟨_, t, _⟩ :: fs =>
    simp only [Field.zeros]
    apply (Ty.zero_keeps W t).bind
    intro W' v _ hv
    apply (Field.zeros_keeps W' fs).bind
    intro W'' vs le hvs
    apply Keeps.pure
    refine ⟨Field.accept_cons hv.accepts hvs.1, ?_⟩
    rw [List.forall_mem_cons]
    exact ⟨hv.typed.mono le.below, hvs.2⟩

end

theorem Ty.zeros_keeps (t : Ty) (n : Nat) (W : World) :
    Keeps worker W (t.zeros n) fun W' vs => vs.length = n ∧ ∀ v ∈ vs, v.Fits W' t := by
  induction n generalizing W with
  | zero => exact Keeps.pure (by simp)
  | succ n ih =>
    simp only [Ty.zeros]
    apply (Ty.zero_keeps W t).bind
    intro W' v _ hv
    apply (ih W').bind
    intro W'' vs le hvs
    refine Keeps.pure ⟨by simp [hvs.1], ?_⟩
    rw [List.forall_mem_cons]
    exact ⟨hv.mono le.below, hvs.2⟩

end Zero

end HostBridge
