import HostBridge.Proofs.Map.Key
import HostBridge.Value.Text

namespace HostBridge

variable {st st' : Store} {depth : Nat}

def base16 (a : Nat) : String := "0x" ++ String.ofList (Nat.toDigits 16 a)

def digitValue (c : Char) : Nat := if c.isDigit then c.toNat - 48 else c.toNat - 87

def digitsValue (cs : List Char) : Nat := cs.foldl (fun n c => 16 * n + digitValue c) 0

theorem digitValue_digitChar {d : Nat} (h : d < 16) : digitValue d.digitChar = d := by
  have all : ∀ d < 16, digitValue d.digitChar = d := by decide
  exact all d h

theorem digitsValue_toDigits (n : Nat) : digitsValue (Nat.toDigits 16 n) = n := by
  induction n using Nat.strongRecOn with
  | ind n ih =>
    rw [Nat.toDigits_eq_if (by decide)]
    split
    · simp only [digitsValue, List.foldl_cons, List.foldl_nil, digitValue_digitChar ‹_›,
        Nat.mul_zero, Nat.zero_add]
    · have high := ih (n / 16) (by omega)
      have low := digitValue_digitChar (Nat.mod_lt n (by decide : 0 < 16))
      rw [digitsValue] at high ⊢
      rw [List.foldl_append, high, List.foldl_cons, List.foldl_nil, low]
      omega

theorem base16_injective : Function.Injective base16 := by
  intro a b h
  have digits : Nat.toDigits 16 a = Nat.toDigits 16 b := by
    simpa only [base16, String.append_right_inj, String.ofList_inj] using h
  rw [← digitsValue_toDigits a, digits, digitsValue_toDigits]

theorem addressText_eq (a : Nat) : addressText a = base16 a := rfl

def Value.Leaf : Value → Prop
  | .map _ | .slice _ | .struct .. | .ptr _ => False
  | _ => True

mutual

/-- What is written for a value inside `depth` others. Nothing bounds how far this goes down but the
depth of maps and slices. -/
inductive Value.Shows (st : Store) : Nat → Value → String → Prop
  | leaf {depth : Nat} {v : Value} : v.Leaf → v.address? = none → Shows st depth v v.leafText
  | named {depth : Nat} {v : Value} {a : Nat} : v.Leaf → v.address? = some a →
    Shows st depth v (base16 a)
  | map {depth : Nat} {m : Map} {texts : List String} : depth < 32 →
    EntriesShow st (depth + 1) (m.entries st) texts → Shows st depth (.map m) (entriesText texts)
  | deepMap {depth : Nat} {m : Map} : 32 ≤ depth →
    Shows st depth (.map m) (base16 m.address)
  | slice {depth : Nat} {w : Slice} {texts : List String} : depth < 32 →
    AllShow st (depth + 1) (w.toList st) texts →
      Shows st depth (.slice w) ("[" ++ " ".intercalate texts ++ "]")
  | deepSlice {depth : Nat} {w : Slice} : 32 ≤ depth →
    Shows st depth (.slice w) (base16 w.address)
  | struct {depth : Nat} {t : StructTy} {vs : List Value} {texts : List String} :
    AllShow st (depth + 1) vs texts → Shows st depth (.struct t vs) (fieldsText t texts)
  | nilPtr {depth : Nat} {p : Pointer} : p.isNil = true → Shows st depth (.ptr p) "<nil>"
  | followed {p : Pointer} {t : StructTy} {vs : List Value} {text : String} :
    p.load st = .ok (.struct t vs) → Shows st 1 (.struct t vs) text →
      Shows st 0 (.ptr p) ("&" ++ text)
  | unfollowed {p : Pointer} {v : Value} : p.load st = .ok v → (∀ t vs, v ≠ .struct t vs) →
    Shows st 0 (.ptr p) (base16 p.address)
  | nested {depth : Nat} {p : Pointer} : 0 < depth → p.isNil = false →
    Shows st depth (.ptr p) (base16 p.address)

inductive Value.AllShow (st : Store) : Nat → List Value → List String → Prop
  | nil {depth : Nat} : AllShow st depth [] []
  | cons {depth : Nat} {v : Value} {vs : List Value} {text : String} {texts : List String} :
    Value.Shows st depth v text → AllShow st depth vs texts →
      AllShow st depth (v :: vs) (text :: texts)

inductive Value.EntriesShow (st : Store) : Nat → List Entry → List String → Prop
  | nil {depth : Nat} : EntriesShow st depth [] []
  | cons {depth : Nat} {e : Entry} {es : List Entry} {key value : String} {texts : List String} :
    Value.Shows st depth e.key key → Value.Shows st depth e.value value →
      EntriesShow st depth es texts →
        EntriesShow st depth (e :: es) ((key ++ ":" ++ value) :: texts)

end

theorem Pointer.load_cases (p : Pointer) (st : Store) :
    p.isNil = true ∧ p.load st = .error .nilPointer ∨
      p.isNil = false ∧ ∃ v, p.load st = .ok v := by
  cases cell : p.cell with
  | none => exact .inl ⟨by simp [Pointer.isNil, cell], by simp [Pointer.load, cell]⟩
  | some i => exact .inr ⟨by simp [Pointer.isNil, cell], _, by simp only [Pointer.load, cell]; rfl⟩

namespace Value

variable {v : Value} {room : Nat}

theorem nestedText_leaf (leaf : v.Leaf) (st : Store) (room : Nat) :
    nestedText st room v = v.leafText := by
  cases room <;> cases v <;> first | rfl | exact leaf.elim

theorem leafText_address {a : Nat} (leaf : v.Leaf) (address : v.address? = some a) :
    v.leafText = base16 a := by
  cases v with
  | func _ | chan _ | address _ | boxed _ =>
    simp only [leafText, address, Option.getD_some, addressText_eq]
  | map _ | slice _ | struct _ _ | ptr _ => exact leaf.elim
  | _ => cases address

theorem nestedText_ptr (st : Store) (room : Nat) (p : Pointer) :
    nestedText st room (.ptr p) = if p.isNil then "<nil>" else addressText p.address := by
  cases room <;> rfl

theorem flatTexts_eq_map (vs : List Value) : flatTexts vs = vs.map flatText := by
  induction vs with
  | nil => rfl
  | cons v vs ih => exact congrArg (v.flatText :: ·) ih

theorem nestedText_struct (st : Store) (room : Nat) (t : StructTy) (vs : List Value) :
    nestedText st room (.struct t vs) = fieldsText t (vs.map (nestedText st (room - 1))) := by
  cases room with
  | zero =>
    have flat : nestedText st 0 = flatText := by
      funext v
      simp only [nestedText]
    simp only [Nat.zero_sub, flat, flatText, flatTexts_eq_map]
  | succ room => simp only [nestedText, Nat.add_sub_cancel]

theorem allShow_map {f : Value → String} (h : ∀ v, Shows st depth v (f v)) (vs : List Value) :
    AllShow st depth vs (vs.map f) := by
  induction vs with
  | nil => exact .nil
  | cons v vs ih => exact .cons (h v) ih

theorem entriesShow_map {f : Value → String} (h : ∀ v, Shows st depth v (f v))
    (es : List Entry) :
    EntriesShow st depth es (es.map fun e => f e.key ++ ":" ++ f e.value) := by
  induction es with
  | nil => exact .nil
  | cons e es ih => exact .cons (h e.key) (h e.value) ih

theorem shows_ptr (st : Store) (inside : 0 < depth) (p : Pointer) :
    Shows st depth (.ptr p) (if p.isNil then "<nil>" else addressText p.address) := by
  cases isNil : p.isNil with
  | true => exact .nilPtr isNil
  | false => exact .nested inside isNil

mutual

theorem shows_flat (st : Store) {depth : Nat} (deep : 32 ≤ depth) (v : Value) :
    Shows st depth v v.flatText := by
  match v with
  | .map m => exact .deepMap deep
  | .slice w => exact .deepSlice deep
  | .struct t vs => exact .struct (allShow_flat st (Nat.le_succ_of_le deep) vs)
  | .ptr p => exact shows_ptr st (Nat.lt_of_lt_of_le (by decide) deep) p
  | .func _ | .chan _ | .address _ | .boxed _ => exact .named trivial rfl
  | .nil | .bool _ | .int .. | .uint .. | .float .. | .complex .. | .string _ =>
    exact .leaf trivial rfl

theorem allShow_flat (st : Store) {depth : Nat} (deep : 32 ≤ depth) (vs : List Value) :
    AllShow st depth vs (flatTexts vs) := by
  match vs with
  | [] => exact .nil
  | v :: vs => exact .cons (shows_flat st deep v) (allShow_flat st deep vs)

end

theorem shows_nested (st : Store) (left : room = 32 - depth) (v : Value)
    (pointer : 0 < depth ∨ ∀ p, v ≠ .ptr p) : Shows st depth v (nestedText st room v) := by
  induction room generalizing depth v with
  | zero => exact shows_flat st (Nat.le_of_sub_eq_zero left.symm) v
  | succ room ih =>
    have more : depth < 32 := by omega
    have inner (v : Value) : Shows st (depth + 1) v (nestedText st room v) :=
      ih (by omega) v (.inl (Nat.succ_pos depth))
    match v with
    | .map m => exact .map more (entriesShow_map inner _)
    | .slice w => exact .slice more (allShow_map inner _)
    | .struct t vs => exact .struct (allShow_map inner vs)
    | .ptr p => exact shows_ptr st (pointer.resolve_right fun other => other p rfl) p
    | .func _ | .chan _ | .address _ | .boxed _ => exact .named trivial rfl
    | .nil | .bool _ | .int .. | .uint .. | .float .. | .complex .. | .string _ =>
      exact .leaf trivial rfl

mutual

theorem Shows.eq_nested {depth room : Nat} {v : Value} {text : String}
    (shows : Shows st depth v text) (left : room = 32 - depth)
    (pointer : 0 < depth ∨ ∀ p, v ≠ .ptr p) : text = nestedText st room v := by
  match shows with
  | .leaf leaf _ => exact (nestedText_leaf leaf st room).symm
  | .named leaf names => rw [nestedText_leaf leaf, leafText_address leaf names]
  | .map more entries =>
    obtain ⟨rest, rfl⟩ : ∃ rest, room = rest + 1 := ⟨32 - (depth + 1), by omega⟩
    have left' : rest = 32 - (depth + 1) := by omega
    rw [EntriesShow.eq_nested entries left' (Nat.succ_pos depth)]
    rfl
  | .deepMap deep =>
    rw [left, Nat.sub_eq_zero_of_le deep]
    rfl
  | .slice more items =>
    obtain ⟨rest, rfl⟩ : ∃ rest, room = rest + 1 := ⟨32 - (depth + 1), by omega⟩
    have left' : rest = 32 - (depth + 1) := by omega
    rw [AllShow.eq_nested items left' (Nat.succ_pos depth)]
    rfl
  | .deepSlice deep =>
    rw [left, Nat.sub_eq_zero_of_le deep]
    rfl
  | .struct fields =>
    have left' : room - 1 = 32 - (depth + 1) := by omega
    rw [nestedText_struct, AllShow.eq_nested fields left' (Nat.succ_pos depth)]
  | .nilPtr isNil => rw [nestedText_ptr, if_pos isNil]
  | .followed _ _ | .unfollowed _ _ => exact absurd rfl (pointer.resolve_left (Nat.lt_irrefl 0) _)
  | .nested _ isNil =>
    simp only [nestedText_ptr, isNil, Bool.false_eq_true, if_false, addressText_eq]

theorem AllShow.eq_nested {depth room : Nat} {vs : List Value} {texts : List String}
    (shown : AllShow st depth vs texts) (left : room = 32 - depth) (inside : 0 < depth) :
    texts = vs.map (nestedText st room) := by
  match shown with
  | .nil => rfl
  | .cons first rest =>
    rw [Shows.eq_nested first left (.inl inside), AllShow.eq_nested rest left inside]
    rfl

theorem EntriesShow.eq_nested {depth room : Nat} {es : List Entry} {texts : List String}
    (shown : EntriesShow st depth es texts) (left : room = 32 - depth) (inside : 0 < depth) :
    texts = es.map fun e => nestedText st room e.key ++ ":" ++ nestedText st room e.value := by
  match shown with
  | .nil => rfl
  | .cons key value rest =>
    rw [Shows.eq_nested key left (.inl inside), Shows.eq_nested value left (.inl inside),
      EntriesShow.eq_nested rest left inside]
    rfl

end

theorem text_eq_nested (other : ∀ p, v ≠ .ptr p) (st : Store) :
    v.text st = nestedText st 32 v := by
  cases v with
  | ptr p => exact absurd rfl (other p)
  | _ => rfl

theorem text_followed {p : Pointer} {t : StructTy} {vs : List Value}
    (loaded : p.load st = .ok (.struct t vs)) :
    (Value.ptr p).text st = "&" ++ nestedText st 31 (.struct t vs) := by
  simp only [text, loaded, textDepth]

theorem text_unfollowed {p : Pointer} (other : ∀ t vs, p.load st ≠ .ok (.struct t vs)) :
    (Value.ptr p).text st = (Value.ptr p).leafText := by
  cases loaded : p.load st with
  | error e => simp only [text, loaded]
  | ok u =>
    cases u with
    | struct t vs => exact absurd loaded (other t vs)
    | _ => simp only [text, loaded]

theorem text_nilPtr {p : Pointer} (isNil : p.isNil = true) (st : Store) :
    (Value.ptr p).text st = "<nil>" := by
  obtain ⟨-, failed⟩ | ⟨there, -⟩ := p.load_cases st
  · rw [text_unfollowed (by simp [failed]), leafText, if_pos isNil]
  · cases isNil.symm.trans there

theorem text_address {p : Pointer} (loaded : p.load st = .ok v)
    (other : ∀ t vs, v ≠ .struct t vs) : (Value.ptr p).text st = base16 p.address := by
  obtain ⟨-, failed⟩ | ⟨there, -⟩ := p.load_cases st
  · cases loaded.symm.trans failed
  · rw [text_unfollowed (by simp [loaded, other]), leafText, there]
    rfl

theorem shows_text (st : Store) (v : Value) : Shows st 0 v (v.text st) := by
  by_cases pointer : ∃ p, v = .ptr p
  · obtain ⟨p, rfl⟩ := pointer
    obtain ⟨isNil, -⟩ | ⟨-, u, loaded⟩ := p.load_cases st
    · rw [text_nilPtr isNil]
      exact .nilPtr isNil
    · by_cases struct : ∃ t vs, u = .struct t vs
      · obtain ⟨t, vs, rfl⟩ := struct
        rw [text_followed loaded]
        exact .followed loaded (shows_nested st rfl _ (.inl Nat.one_pos))
      · have other : ∀ t vs, u ≠ .struct t vs := fun t vs eq => struct ⟨t, vs, eq⟩
        rw [text_address loaded other]
        exact .unfollowed loaded other
  · have other : ∀ p, v ≠ .ptr p := fun p eq => pointer ⟨p, eq⟩
    rw [text_eq_nested other]
    exact shows_nested st rfl v (.inr other)

theorem Shows.eq_text {text : String} (shows : Shows st 0 v text) : text = v.text st := by
  by_cases pointer : ∃ p, v = .ptr p
  · obtain ⟨p, rfl⟩ := pointer
    cases shows with
    | leaf leaf | named leaf => exact leaf.elim
    | nilPtr isNil => exact (text_nilPtr isNil st).symm
    | followed loaded inside =>
      rw [text_followed loaded, inside.eq_nested rfl (.inl Nat.one_pos)]
    | unfollowed loaded other => exact (text_address loaded other).symm
    | nested inside => exact absurd inside (Nat.lt_irrefl 0)
  · have other : ∀ p, v ≠ .ptr p := fun p eq => pointer ⟨p, eq⟩
    rw [text_eq_nested other]
    exact shows.eq_nested rfl (.inr other)

theorem nestedText_congr (maps : ∀ i, st'.maps.get? i = st.maps.get? i)
    (backings : ∀ i, st'.backings.get? i = st.backings.get? i) (room : Nat) (v : Value) :
    nestedText st' room v = nestedText st room v := by
  induction room generalizing v with
  | zero => simp only [nestedText]
  | succ room ih =>
    have same : nestedText st' room = nestedText st room := funext ih
    cases v with
    | map m => simp only [nestedText, Map.entries, maps, same]
    | slice w => simp only [nestedText, Slice.toList, Slice.items, backings, same]
    | struct t vs => simp only [nestedText, same]
    | _ => rfl

/-- The cell of a pointer that is itself the value is the only one that matters. -/
theorem text_congr (maps : ∀ i, st'.maps.get? i = st.maps.get? i)
    (backings : ∀ i, st'.backings.get? i = st.backings.get? i)
    (cell : ∀ p i, v = .ptr p → p.cell = some i → st'.cells.get? i = st.cells.get? i) :
    v.text st' = v.text st := by
  have nested := nestedText_congr maps backings
  cases v with
  | ptr p =>
    have loaded : p.load st' = p.load st := by
      cases eq : p.cell with
      | none => simp only [Pointer.load, eq]
      | some i => simp only [Pointer.load, eq, cell p i rfl eq]
    simp only [text, loaded, nested]
  | _ => exact nested textDepth _

structure Displayed (v : Value) : Prop where
  exists_shows : ∀ st depth, ∃ s, ∀ s', Shows st depth v s' ↔ s' = s
  text : ∀ st s, Shows st 0 v s ↔ s = v.text st
  frame : ∀ {st st' : Store}, (∀ i, st'.maps.get? i = st.maps.get? i) →
    (∀ i, st'.backings.get? i = st.backings.get? i) →
    (∀ p i, v = .ptr p → p.cell = some i → st'.cells.get? i = st.cells.get? i) →
      v.text st' = v.text st
  nested : ∀ {p : Pointer}, v = .ptr p → p.isNil = false → ∀ st {depth : Nat}, 0 < depth →
    ∀ s, Shows st depth v s ↔ s = "0x" ++ String.ofList (Nat.toDigits 16 p.address)
  cell : ∀ {p q : Pointer}, v = .ptr p → p.isNil = false → q.isNil = false →
    ∀ {st st' : Store} {depth depth' : Nat}, 0 < depth → 0 < depth' → ∀ {s : String},
      Shows st depth v s → Shows st' depth' (.ptr q) s → q.cell = p.cell
  deep : ∀ st {depth : Nat}, 32 ≤ depth → ∀ s,
    (∀ {m : Map}, v = .map m →
      (Shows st depth v s ↔ s = "0x" ++ String.ofList (Nat.toDigits 16 m.address))) ∧
    ∀ {w : Slice}, v = .slice w →
      (Shows st depth v s ↔ s = "0x" ++ String.ofList (Nat.toDigits 16 w.address))

theorem shows_iff (st : Store) (v : Value) (s : String) : Shows st 0 v s ↔ s = v.text st := by
  constructor
  · exact Shows.eq_text
  · rintro rfl
    exact shows_text st v

theorem shows_iff_nested (st : Store) (pointer : 0 < depth ∨ ∀ p, v ≠ .ptr p) (s : String) :
    Shows st depth v s ↔ s = nestedText st (32 - depth) v := by
  constructor
  · exact fun shows => shows.eq_nested rfl pointer
  · rintro rfl
    exact shows_nested st rfl v pointer

theorem shows_iff_address {p : Pointer} (isNil : p.isNil = false) (st : Store)
    (inside : 0 < depth) (s : String) : Shows st depth (.ptr p) s ↔ s = base16 p.address := by
  rw [shows_iff_nested st (.inl inside), nestedText_ptr, isNil]
  rfl

theorem displayed (v : Value) : v.Displayed where
  exists_shows st depth := by
    cases depth with
    | zero => exact ⟨_, shows_iff st v⟩
    | succ depth => exact ⟨_, shows_iff_nested st (.inl (Nat.succ_pos depth))⟩
  text st := shows_iff st v
  frame := text_congr
  nested {p} eq isNil st depth inside s := by
    subst eq
    exact shows_iff_address isNil st inside s
  cell {p q} eq isNil isNil' st st' depth depth' inside inside' s shows shows' := by
    subst eq
    have written := (shows_iff_address isNil st inside s).mp shows
    have written' := (shows_iff_address isNil' st' inside' s).mp shows'
    exact Pointer.address_inj.mp (base16_injective (written'.symm.trans written))
  deep st depth deep s := by
    have flat := shows_iff_nested (v := v) st (.inl (Nat.lt_of_lt_of_le (by decide) deep)) s
    rw [Nat.sub_eq_zero_of_le deep] at flat
    refine ⟨fun eq => ?_, fun eq => ?_⟩ <;>
    · subst eq
      exact flat

example :
    let node : StructTy := ⟨"Node", [⟨"Next", .any, true⟩], []⟩
    let p : Pointer := ⟨.struct node, some 0⟩
    (Value.ptr p).text { cells := ⟨#[.struct node [.ptr p]]⟩ } =
      "&\x7bNext:" ++ base16 p.address ++ "\x7d" := by decide

end Value

end HostBridge
