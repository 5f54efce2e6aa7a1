import HostBridge.Proofs.Conversion.Refusal
import HostBridge.Proofs.Map.Entries
import HostBridge.Proofs.Pointer.Delegation

namespace HostBridge

variable {s c : Nat} {st : Store} {h : Handle} {p : Pointer} {w : Value}

def pointeeText : String := "pointer to struct, map, slice or chan"

inductive Value.Indexed : Value → Prop
  | struct (t : StructTy) (vs : List Value) : Indexed (.struct t vs)
  | map (m : Map) : Indexed (.map m)
  | slice (w : Slice) : Indexed (.slice w)

def Value.slots : Value → List Ty
  | .struct t _ => t.fields.map (·.type)
  | .map m => [m.key, m.elem]
  | .slice w => [w.elem]
  | _ => []

theorem BridgeError.eq_of_ofHost {e : HostError} {got : String}
    (h : ofHost e = .typeMismatch pointeeText got) : e = .typeMismatch pointeeText got := by
  cases e with
  | typeMismatch expected got' => simpa [ofHost] using h
  | channel e => cases e <;> cases h
  | unhashable => simp [ofHost, pointeeText] at h
  | _ => cases h

def Opens {α : Type} (st : Store) (x : BridgeM α) : Prop :=
  ∀ got st', x st ≠ .error (.error (.typeMismatch pointeeText got)) st'

namespace Opens

variable {α β : Type}

theorem pure (a : α) : Opens st (Pure.pure a : BridgeM α) := fun _ _ h => nomatch h

theorem fail {e : BridgeError} (other : ∀ got, e ≠ .typeMismatch pointeeText got) :
    Opens st (BridgeM.fail e : BridgeM α) := by
  intro got st' h
  cases h
  exact other got rfl

theorem bind {x : BridgeM α} {f : α → BridgeM β} (hx : Opens st x)
    (hf : ∀ a st', x st = .ok a st' → Opens st' (f a)) : Opens st (x >>= f) := by
  intro got st' h
  cases eq : x st with
  | ok a st₁ =>
    rw [bind_ok eq] at h
    exact hf a st₁ eq got st' h
  | error stop st₁ =>
    rw [bind_error eq] at h
    cases h
    exact hx got st' eq

theorem lift (x : StateM Store α) : Opens st (liftM x : BridgeM α) := fun _ _ h => nomatch h

theorem get_bind {f : Store → BridgeM β} (h : Opens st (f st)) : Opens st (get >>= f) := h

theorem except {x : Except BridgeError α}
    (h : ∀ e, x = .error e → ∀ got, e ≠ .typeMismatch pointeeText got) :
    Opens st (liftM x : BridgeM α) := by
  cases x with
  | ok a => exact pure a
  | error e => exact fail (h e rfl)

theorem hostExcept {x : Except HostError α}
    (h : ∀ got, x ≠ .error (.typeMismatch pointeeText got)) : Opens st (liftM x : BridgeM α) := by
  cases x with
  | ok a => exact pure a
  | error e => exact fail fun got eq => h got (congrArg _ (BridgeError.eq_of_ofHost eq))

theorem host {x : HostM α}
    (h : ∀ got st', x st ≠ .error (.error (.typeMismatch pointeeText got)) st') :
    Opens st (liftM x : BridgeM α) := by
  intro got st' failed
  cases eq : x st with
  | ok a st₁ =>
    rw [host_ok eq] at failed
    cases failed
  | error stop st₁ =>
    rw [host_error eq] at failed
    cases stop with
    | error e =>
      have same : BridgeError.ofHost e = .typeMismatch pointeeText got := by
        injection failed with stopped _
        injection stopped
      exact h got st₁ (BridgeError.eq_of_ofHost same ▸ eq)
    | panic _ | blocked => cases failed

end Opens

theorem Value.opens_toScript (s : Nat) (v : Value) : Opens st (v.toScript s) := by
  intro got st' failed
  obtain ⟨-, e, same, refused⟩ := toScript_eq_error.mp failed
  cases same
  cases refused

theorem Script.opens_toHost {hint : Ty} (named : hint.text ≠ pointeeText) (x : Script) :
    Opens st (x.toHost hint) := by
  intro got st' failed
  have mismatch := Stop.error.inj (mismatch_of_toHost failed)
  exact named (BridgeError.typeMismatch.inj mismatch).1.symm

mutual

theorem Key.unhashable_of_ofValue {v : Value} {e : HostError} (h : Key.ofValue v = .error e) :
    ∃ type, e = .unhashable type := by
  match v with
  | .func _ | .map _ | .slice _ =>
    cases h
    exact ⟨_, rfl⟩
  | .struct t vs =>
    simp only [Key.ofValue] at h
    cases keyed : Keys.ofValues vs with
    | ok ks =>
      rw [keyed] at h
      cases h
    | error e' =>
      rw [keyed] at h
      cases h
      exact Keys.unhashable_of_ofValues keyed
  | .nil | .bool _ | .int .. | .uint .. | .float .. | .complex .. | .string _ | .chan _ | .ptr _
  | .address _ | .boxed _ => cases h

theorem Keys.unhashable_of_ofValues {vs : List Value} {e : HostError}
    (h : Keys.ofValues vs = .error e) : ∃ type, e = .unhashable type := by
  match vs with
  | [] => cases h
  | v :: vs =>
    simp only [Keys.ofValues] at h
    cases keyed : Key.ofValue v with
    | error e' =>
      rw [keyed] at h
      cases h
      exact Key.unhashable_of_ofValue keyed
    | ok k =>
      rw [keyed] at h
      cases rest : Keys.ofValues vs with
      | error e' =>
        rw [rest] at h
        cases h
        exact Keys.unhashable_of_ofValues rest
      | ok ks =>
        rw [rest] at h
        cases h

end

theorem Map.keyOf_ne {m : Map} (named : m.key.text ≠ pointeeText) (v : Value) (got : String) :
    m.keyOf v ≠ .error (.typeMismatch pointeeText got) := by
  intro failed
  simp only [keyOf] at failed
  split at failed
  · obtain ⟨type, eq⟩ := Key.unhashable_of_ofValue failed
    cases eq
  · exact named (HostError.typeMismatch.inj (Except.error.inj failed)).1

theorem Map.insert_ne {m : Map} (named : m.key.text ≠ pointeeText)
    (named' : m.elem.text ≠ pointeeText) (k v : Value) (got : String) (st' : Store) :
    m.insert k v st ≠ .error (.error (.typeMismatch pointeeText got)) st' := by
  intro failed
  rw [insert_eq] at failed
  split at failed
  · rename_i keyed
    injection failed with stopped _
    cases Stop.error.inj stopped
    exact m.keyOf_ne named k got keyed
  · split at failed
    · cases failed
    · injection failed with stopped _
      exact named' (HostError.typeMismatch.inj (Stop.error.inj stopped)).1

theorem Slice.set_ne {w : Slice} (named : w.elem.text ≠ pointeeText) (i : Nat) (v : Value)
    (got : String) (st' : Store) :
    w.set i v st ≠ .error (.error (.typeMismatch pointeeText got)) st' := by
  intro failed
  rw [set_eq] at failed
  split at failed
  · split at failed
    · split at failed <;> cases failed
    · injection failed with stopped _
      exact named (HostError.typeMismatch.inj (Stop.error.inj stopped)).1
  · cases failed

namespace Opens

theorem index_struct (s : Nat) (t : StructTy) (vs : List Value) (via : Option Pointer)
    (key : Script) : Opens st (t.index s vs via key) := by
  simp only [StructTy.index]
  split
  · simp only [StructTy.member]
    split
    · exact Value.opens_toScript s _
    · split
      · exact pure _
      · split
        · exact lift _
        · exact lift _
        · exact pure _
  · exact pure _

theorem index_map (s : Nat) {m : Map} (named : m.key.text ≠ pointeeText) (key : Script) :
    Opens st (m.index s key) := by
  simp only [Map.index]
  refine (Script.opens_toHost named key).bind fun k st₁ _ => get_bind ?_
  refine (hostExcept fun got failed => ?_).bind fun found st₂ _ => ?_
  · simp only [Map.find, Except.map] at failed
    split at failed
    · rename_i keyed
      cases failed
      exact m.keyOf_ne named k got keyed
    · cases failed
  · split
    · exact Value.opens_toScript s _
    · exact pure _

theorem position (len : Nat) (key : Script) :
    Opens st (liftM (key.position len) : BridgeM Nat) := by
  apply except
  intro e failed got eq
  subst eq
  simp only [Script.position] at failed
  split at failed
  · split at failed
    · split at failed <;> cases failed
    · simp [pointeeText] at failed
  · simp [pointeeText] at failed

theorem index_slice (s : Nat) (w : Slice) (key : Script) : Opens st (w.index s key) := by
  simp only [Slice.index]
  split
  · exact lift _
  · exact lift _
  · exact pure _
  · refine (position w.len key).bind fun i st₁ _ => get_bind ?_
    split
    · exact Value.opens_toScript s _
    · exact fail fun got eq => by cases eq

theorem assign_map {m : Map} (named : m.key.text ≠ pointeeText)
    (named' : m.elem.text ≠ pointeeText) (key value : Script) : Opens st (m.assign key value) := by
  simp only [Map.assign]
  refine (Script.opens_toHost named key).bind fun k st₁ _ => ?_
  exact (Script.opens_toHost named' value).bind fun v st₂ _ => host (m.insert_ne named named' k v)

theorem assign_slice {w : Slice} (named : w.elem.text ≠ pointeeText) (key value : Script) :
    Opens st (w.assign key value) := by
  simp only [Slice.assign]
  refine (position w.len key).bind fun i st₁ _ => ?_
  exact (Script.opens_toHost named value).bind fun v st₂ _ => host (w.set_ne named i v)

end Opens

namespace Value.Indexed

theorem same_of_accepts (indexed : w.Indexed) {t : Ty} (accepted : t.accepts w = true)
    (typed : t ≠ .any) : t.same w.type = true := by
  have same : w.type.same t = true := by
    cases t with
    | any => exact absurd rfl typed
    | _ => cases indexed <;> exact accepted
  exact Ty.same_iff.mpr (Ty.same_iff.mp same).symm

end Value.Indexed

namespace Script

variable {key value : Script}

theorem opens_index (isOf : h.IsOf (.ptr p)) (cell : p.cell = some c)
    (held : st.cells.get? c = some w) (indexed : w.Indexed)
    (named : ∀ t ∈ w.slots, t.text ≠ pointeeText) (s : Nat) (key : Script) :
    Opens st ((Script.handle h).index s key) := by
  cases indexed with
  | struct t vs =>
    rw [Opens, index_ptr isOf, Pointer.index_struct cell held]
    exact Opens.index_struct s t vs (some p) key
  | map m =>
    rw [Opens, index_ptr_made isOf cell held (.map m)]
    refine (Value.opens_toScript s (.map m)).bind fun d st₁ made => ?_
    obtain ⟨i, set, rfl⟩ := Handle.eq_of_make made
    exact Opens.index_map s (named _ List.mem_cons_self) key
  | slice w =>
    rw [Opens, index_ptr_made isOf cell held (.slice w)]
    refine (Value.opens_toScript s (.slice w)).bind fun d st₁ made => ?_
    obtain ⟨i, set, rfl⟩ := Handle.eq_of_make made
    exact Opens.index_slice s w key

theorem opens_setIndex (isOf : h.IsOf (.ptr p)) (same : p.elem.same w.type = true)
    (cell : p.cell = some c) (held : st.cells.get? c = some w) (indexed : w.Indexed)
    (named : ∀ t ∈ w.slots, t.text ≠ pointeeText) (s : Nat) (key value : Script) :
    Opens st ((Script.handle h).setIndex s key value) := by
  cases indexed with
  | struct t vs =>
    obtain ⟨declared, elem⟩ := Ty.exists_struct_of_same same
    rw [Opens, setIndex_ptr isOf (Ty.not_forwards_of_same same)]
    obtain ⟨e, other, refused⟩ | ⟨name, i, f, -, exported, assigned⟩ := p.assign_struct t key value
    · obtain ⟨type, field, rfl⟩ := other declared elem
      rw [refused cell held]
      exact fun _ _ h => nomatch h
    · have mem := List.mem_of_getElem? (StructTy.field_of_exported? exported).1
      have named' := named f.type (List.mem_map_of_mem mem)
      rw [assigned cell held]
      intro got st' failed
      split at failed
      · split at failed
        · cases failed
        · injection failed with stopped _
          exact named' (BridgeError.typeMismatch.inj (Stop.error.inj stopped)).1
      · rename_i converted
        cases failed
        exact opens_toHost named' value got _ converted
  | map m =>
    rw [Opens, setIndex_ptr_made isOf same cell held rfl]
    refine (Value.opens_toScript s (.map m)).bind fun d st₁ made => ?_
    obtain ⟨i, set, rfl⟩ := Handle.eq_of_make made
    rw [setIndex_direct (by simp)]
    exact Opens.assign_map (named _ List.mem_cons_self)
      (named _ (.tail _ List.mem_cons_self)) key value
  | slice w =>
    rw [Opens, setIndex_ptr_made isOf same cell held rfl]
    refine (Value.opens_toScript s (.slice w)).bind fun d st₁ made => ?_
    obtain ⟨i, set, rfl⟩ := Handle.eq_of_make made
    rw [setIndex_direct (by simp)]
    exact Opens.assign_slice (named _ List.mem_cons_self) key value

end Script

namespace Pointer

structure Classified (p : Pointer) (w : Value) (c : Nat) (st : Store) : Prop where
  index : (∀ t ∈ w.slots, t.text ≠ pointeeText) → ∀ {s : Nat} {h : Handle}, h.IsOf (.ptr p) →
    ∀ key, Opens st ((Script.handle h).index s key)
  refused : p.elem = .any → ∀ {s : Nat} {h : Handle}, h.IsOf (.ptr p) → ∀ key value,
    (Script.handle h).setIndex s key value st =
      .error (.error (.typeMismatch pointeeText p.type.text)) st
  setIndex : p.elem ≠ .any → (∀ t ∈ w.slots, t.text ≠ pointeeText) →
    ∀ {s : Nat} {h : Handle}, h.IsOf (.ptr p) → ∀ key value,
      Opens st ((Script.handle h).setIndex s key value)
  assigned : p.elem ≠ .any → ∀ {t : StructTy} {vs : List Value}, w = .struct t vs →
    ∀ {name : String} {i : Nat} {f : Field}, t.exported? name = some (i, f) →
      ∀ {value : Script} {v : Value} {st₁ : Store}, value.toHost f.type st = .ok v st₁ →
        f.type.accepts v = true → ∀ {s : Nat} {h : Handle}, h.IsOf (.ptr p) →
          let st' := { st₁ with cells := st₁.cells.set c (.struct t (vs.set i v)) }
          (Script.handle h).setIndex s (.string name) value st = .ok () st' ∧
            (Script.handle h).index s (.string name) st' = v.toScript s st'

theorem classified_of_cell (cell : p.cell = some c) (held : st.cells.get? c = some w)
    (indexed : w.Indexed) (accepted : p.elem.accepts w = true)
    (length : ∀ {t vs}, w = .struct t vs → vs.length = t.fields.length) :
    p.Classified w c st where
  index named _ _ isOf key := Script.opens_index isOf cell held indexed named _ key
  refused untyped s h isOf key value := by
    rw [Script.setIndex_ptr isOf (by rw [untyped]; rfl)]
    simp only [assign, untyped, isNil_of_cell cell]
    rfl
  setIndex typed named s h isOf key value := by
    have same := indexed.same_of_accepts accepted typed
    exact Script.opens_setIndex isOf same cell held indexed named s key value
  assigned typed t vs eq name i f exported value v st₁ converted accepted' s h isOf := by
    subst eq
    have same := indexed.same_of_accepts accepted typed
    obtain ⟨declared, elem⟩ := Ty.exists_struct_of_same same
    have held₁ : st₁.cells.get? c = some (.struct t vs) :=
      ((Script.mild_toHost f.type value).of_ok converted).cells ▸ held
    refine ⟨?_, index_of_set isOf cell held₁ (length rfl) exported v s⟩
    rw [Script.setIndex_ptr isOf (Ty.not_forwards_of_same same),
      assign_field elem cell held exported, converted]
    exact if_pos accepted'

end Pointer

namespace Session

/-- How pointers tell what they point to, after any run. -/
theorem Run.classified {host : Host} (hhost : ∀ n, (host n).Checked []) {as : List Action}
    {S : Session} (run : Run { host } as S) (occurs : S.Occurs (.value (.ptr p)))
    (cell : p.cell = some c) (held : S.store.cells.get? c = some w) (indexed : w.Indexed) :
    p.Classified w c S.store := by
  obtain ⟨W, -, fits⟩ := run.exists_fits hhost
  have declared := Value.typed_ptr.mp (fits.occurs occurs) c cell
  have fit := fits.store.cells.rel declared held
  refine Pointer.classified_of_cell cell held indexed fit.accepts fun {t vs} eq => ?_
  subst eq
  exact (Value.typed_struct.mp fit.typed).1.1

theorem classified_struct :
    let t : StructTy := ⟨"T", [⟨"a", .bool, true⟩], []⟩
    let p : Pointer := ⟨.struct t, some 0⟩
    let w : Value := .struct t [.bool false]
    let h : Handle := ⟨2, .value (.ptr p), some ⟨0, .ptr⟩⟩
    let S := ((({ host := fun _ => Body.arguments } : Session).perform (.newState {})).perform
      (.constructor 0 (.struct t))).perform
      (.call 0 (.handle ⟨1, .type (.struct t), some ⟨0, .type⟩⟩) [])
    p.Classified w 0 S.store ∧ h.IsOf (.ptr p) ∧ p.elem ≠ .any ∧
      (∀ u ∈ w.slots, u.text ≠ pointeeText) ∧ t.exported? "a" = some (0, ⟨"a", .bool, true⟩) := by
  intro t p w h S
  have held : Item.script (.handle h) ∈ S.held := .tail _ List.mem_cons_self
  refine ⟨Run.classified (fun _ => Body.checked_arguments) (.act (.act (.act (.start _) ?_) ?_) ?_)
    (.part (.held held) List.mem_cons_self) rfl rfl (.struct t _), ⟨rfl, rfl⟩, nofun, ?_, rfl⟩
  · exact allows_of_none (List.nil_subset _) rfl
  · exact allows_of_some (List.nil_subset _) rfl (by decide)
  · exact allows_of_some (List.Subset.refl _) rfl (by decide)
  · intro u hu
    cases List.mem_singleton.mp hu
    decide

/-- Behind a pointer that is declared to point to any value, a field of a struct is read, and the
same field cannot be assigned. -/
theorem setIndex_refused_any :
    let t : StructTy := ⟨"T", [⟨"a", .bool, true⟩], []⟩
    let p : Pointer := ⟨.any, some 0⟩
    let h : Handle := ⟨2, .value (.ptr p), some ⟨0, .ptr⟩⟩
    ∃ as S, Run { host := fun _ => Body.arguments } as S ∧ S.Occurs (.script (.handle h)) ∧
      S.store.cells.get? 0 = some (.struct t [.bool false]) ∧
      (Script.handle h).index 0 (.string "a") S.store = .ok (.bool false) S.store ∧
      (Script.handle h).setIndex 0 (.string "a") (.bool true) S.store =
        .error (.error (.typeMismatch pointeeText p.type.text)) S.store := by
  intro t p h
  refine ⟨_, _, .act (.act (.act (.act (.act (.act (.start _) (a := .newState {}) ?_)
    (a := .constructor 0 .any) ?_)
    (a := .call 0 (.handle ⟨1, .type .any, some ⟨0, .type⟩⟩) []) ?_)
    (a := .toHost .any (.handle h)) ?_) (a := .host (.zero (.struct t))) ?_)
    (a := .host (.store p (.struct t [.bool false]))) ?_, .held ?_, rfl, rfl, rfl⟩
  · exact allows_of_none (List.nil_subset _) rfl
  · exact allows_of_some (List.nil_subset _) rfl (by decide)
  · exact allows_of_some (List.Subset.refl _) rfl (by decide)
  · exact allows_of_none (List.cons_subset.mpr ⟨.tail _ List.mem_cons_self, List.nil_subset _⟩) rfl
  · exact allows_of_none (List.nil_subset _) rfl
  · refine allows_of_none (List.cons_subset.mpr ⟨?_, List.cons_subset.mpr ⟨?_, ?_⟩⟩) rfl
    · exact .tail _ (.tail _ List.mem_cons_self)
    · exact .tail _ (.tail _ (.tail _ List.mem_cons_self))
    · exact List.nil_subset _
  · exact .tail _ List.mem_cons_self

end Session

end HostBridge
