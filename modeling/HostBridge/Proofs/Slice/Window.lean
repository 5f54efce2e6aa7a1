import HostBridge.Proofs.Slice.Growth
import HostBridge.Proofs.Typing.Session

namespace HostBridge

section

variable {ε α β : Type} {st : Store}

/-- The computation gives a result or fails with an error. It is no fault of the host program, and
nobody waits for it in vain. -/
def Settles (st : Store) (x : EStateM (Stop ε) Store α) : Prop :=
  ∀ stop st', x st = .error stop st' → ∃ e, stop = .error e

namespace Settles

theorem pure (a : α) : Settles st (Pure.pure a : EStateM (Stop ε) Store α) := fun _ _ h => nomatch h

theorem throw (e : ε) : Settles st (MonadExcept.throw (.error e) : EStateM (Stop ε) Store α) := by
  intro stop st' h
  cases h
  exact ⟨e, rfl⟩

theorem bind {x : EStateM (Stop ε) Store α} {f : α → EStateM (Stop ε) Store β} (hx : Settles st x)
    (hf : ∀ a st', x st = .ok a st' → Settles st' (f a)) : Settles st (x >>= f) := by
  intro stop st' h
  cases eq : x st with
  | ok a st₁ =>
    rw [bind_ok eq] at h
    exact hf a st₁ eq stop st' h
  | error stop₁ st₁ =>
    rw [bind_error eq] at h
    cases h
    exact hx stop st' eq

theorem lift (x : StateM Store α) : Settles st (liftM x : EStateM (Stop ε) Store α) :=
  fun _ _ h => nomatch h

theorem modify (f : Store → Store) : Settles st (modify f : EStateM (Stop ε) Store PUnit) :=
  fun _ _ h => nomatch h

theorem get_bind {f : Store → EStateM (Stop ε) Store β} (h : Settles st (f st)) :
    Settles st (get >>= f) := h

theorem check (t : Ty) (v : Value) : Settles st (HostM.check t v) := by
  simp only [HostM.check]
  split
  · exact pure ()
  · exact throw _

end Settles

theorem HostM.store_of_check {t : Ty} {v : Value} {st' : Store} (h : check t v st = .ok () st') :
    st' = st := by
  simp only [check] at h
  split at h
  · cases h
    rfl
  · cases h

end

theorem growCapacity_isSome {old needed : Nat} (small : needed < 2 ^ 63) :
    (growCapacity old needed).isSome = true := by
  obtain ⟨cap, grown, -⟩ := exists_grows old (Nat.le_of_lt small)
  rw [grown]
  rfl

namespace Slice

variable {st : Store} {w : Slice}

theorem checkAll_settles (elem : Ty) (vs : List Value) : Settles st (checkAll elem vs) := by
  induction vs generalizing st with
  | nil => exact Settles.pure ()
  | cons v vs ih => exact (Settles.check elem v).bind fun _ _ _ => ih

theorem store_of_checkAll {elem : Ty} {vs : List Value} {st' : Store}
    (h : checkAll elem vs st = .ok () st') : st' = st := by
  induction vs generalizing st with
  | nil =>
    cases h
    rfl
  | cons v vs ih =>
    simp only [checkAll] at h
    cases eq : HostM.check elem v st with
    | ok u st₁ =>
      rw [bind_ok eq] at h
      exact (ih h).trans (HostM.store_of_check eq)
    | error stop st₁ =>
      rw [bind_error eq] at h
      cases h

structure Bounded (st : Store) (w : Slice) : Prop where
  len_le_cap : w.len ≤ w.cap
  inside : ∃ items, st.backings.get? w.backing = some items ∧ w.offset + w.cap ≤ items.size

namespace Bounded

theorem le_size (h : w.Bounded st) : w.offset + w.cap ≤ (w.items st).size := by
  obtain ⟨items, hitems, bound⟩ := h.inside
  simpa [Slice.items, hitems] using bound

theorem get?_isSome (h : w.Bounded st) (i : Nat) : (w.get? st i).isSome = true ↔ i < w.len := by
  have bound := h.le_size
  have len := h.len_le_cap
  simp only [get?]
  split
  · have inside : w.offset + i < (w.items st).size := by omega
    simpa [inside]
  · rename_i outside
    simpa using outside

theorem length_toList_eq (h : w.Bounded st) : (w.toList st).length = w.len := by
  have bound := h.le_size
  have len := h.len_le_cap
  simp only [toList, Array.length_toList, Array.size_extract]
  omega

theorem write_settles {slot : Nat} {vs : List Value}
    (room : slot + vs.length ≤ (w.items st).size) : Settles st (w.write slot vs) := by
  apply Settles.get_bind
  dsimp only
  rw [if_pos room]
  exact Settles.modify _

theorem set_settles (h : w.Bounded st) (i : Nat) (v : Value) : Settles st (w.set i v) := by
  have bound := h.le_size
  have len := h.len_le_cap
  simp only [Slice.set]
  split
  · apply (Settles.check w.elem v).bind
    intro _ st' checked
    rw [HostM.store_of_check checked]
    apply write_settles
    simp only [List.length_singleton]
    omega
  · exact Settles.throw _

theorem append_settles (h : w.Bounded st) {vs : List Value} (hw : w.len < 2 ^ 62)
    (hvs : vs.length < 2 ^ 62) : Settles st (w.append vs) := by
  have bound := h.le_size
  apply (checkAll_settles w.elem vs).bind
  intro _ st' checked
  rw [store_of_checkAll checked]
  dsimp only
  split
  · rename_i room
    apply (write_settles (by omega)).bind
    intro _ _ _
    exact Settles.pure _
  · have large : (growCapacity w.cap (w.len + vs.length)).isSome = true :=
      growCapacity_isSome (by omega)
    obtain ⟨cap, grown⟩ := Option.isSome_iff_exists.mp large
    rw [grown]
    apply (Settles.lift _).bind
    intro _ st'' _
    apply Settles.get_bind
    apply (Settles.lift _).bind
    intro _ _ _
    exact Settles.pure _

theorem bounded_of_slice (h : w.Bounded st) {low high : Nat} {w' : Slice}
    (cut : w.slice low high = .ok w') : w'.Bounded st := by
  obtain ⟨items, hitems, bound⟩ := h.inside
  simp only [slice] at cut
  split at cut
  · cases cut
    exact ⟨by dsimp only; omega, items, hitems, by dsimp only; omega⟩
  · cases cut

end Bounded

theorem bounded_of_typed {W : World} (ht : Store.Typed W st) (hw : (Value.slice w).Typed W) :
    w.Bounded st := by
  obtain ⟨n, hn, bound, len⟩ := Value.typed_slice.mp hw
  obtain ⟨items, hitems, size, _⟩ := ht.backings.get hn
  refine ⟨len, items, hitems, ?_⟩
  dsimp only at size
  omega

end Slice

namespace Session

structure Window (S : Session) (w : Slice) : Prop where
  bounded : w.Bounded S.store
  elem : ∀ {w' : Slice}, S.Occurs (.value (.slice w')) → w'.backing = w.backing → w'.elem = w.elem
  get : ∀ i, (w.get? S.store i).isSome = true ↔ i < w.len
  toList : (w.toList S.store).length = w.len
  set : ∀ i v, Settles S.store (w.set i v)
  append : ∀ vs, w.len < 2 ^ 62 → vs.length < 2 ^ 62 → Settles S.store (w.append vs)
  slice : ∀ {low high : Nat} {w' : Slice}, w.slice low high = .ok w' → w'.Bounded S.store

/-- After any run, whatever was made, cut, written and appended to on the way, every slice there is
is a window inside its backing, and slices of one backing have one element type. -/
theorem Run.window {host : Host} (hhost : ∀ n, (host n).Checked []) {as : List Action} {S : Session}
    (run : Run { host } as S) {w : Slice} (occurs : S.Occurs (.value (.slice w))) : S.Window w := by
  obtain ⟨W, -, fits⟩ := run.exists_fits hhost
  have typed {w' : Slice} (h : S.Occurs (.value (.slice w'))) : (Value.slice w').Typed W :=
    fits.occurs h
  have bounded := Slice.bounded_of_typed fits.store (typed occurs)
  refine ⟨bounded, fun occurs' shared => ?_, bounded.get?_isSome, bounded.length_toList_eq,
    bounded.set_settles, fun vs => bounded.append_settles, bounded.bounded_of_slice⟩
  obtain ⟨n, hn, _⟩ := Value.typed_slice.mp (typed occurs)
  obtain ⟨n', hn', _⟩ := Value.typed_slice.mp (typed occurs')
  rw [shared, hn] at hn'
  exact (congrArg Prod.fst (Known.declared.inj (Option.some.inj hn'))).symm

theorem window_spare :
    Window ((({ host := fun _ => Body.arguments } : Session).perform
      (.host (.withCapacity .string 0 4))).perform (.host (.window ⟨.string, 0, 0, 0, 4⟩ 1 3)))
      ⟨.string, 0, 1, 2, 3⟩ := by
  refine Run.window (fun _ => Body.checked_arguments) (.act (.act (.start _) ?_) ?_) (.held ?_)
  · exact ⟨List.nil_subset _, by simp [Action.state?]⟩
  · exact ⟨List.Subset.refl _, by simp [Action.state?]⟩
  · exact List.mem_cons_of_mem _ (List.mem_singleton_self _)

end Session

end HostBridge
