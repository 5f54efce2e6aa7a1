import HostBridge.Proofs.Channel.Safety
import HostBridge.Proofs.Channel.Signal

/-! Why threads are parked. Whoever is parked finds nothing to do at the channel, but for receivers:
a value may lie next to one that is parked, for another that has been signalled already. -/

namespace HostBridge

variable {α : Type} {c n : Nat}

namespace System

variable {sys sys' : System α} {i j pick : Nat} {t u : Thread α} {on : Condition}

theorem tally_submit (sys : System α) (i : Nat) (rs : List (Request α)) (s : Status) :
    (sys.submit i rs).tally s = sys.tally s := by
  cases ht : sys.threads[i]? with
  | none =>
    have outside := List.getElem?_eq_none_iff.mp ht
    simp [tally, System.submit, List.modify_eq_self outside]
  | some t =>
    have eq : sys.submit i rs = sys.update i { t with todo := t.todo ++ rs } := by
      obtain ⟨hi, rfl⟩ := List.getElem?_eq_some_iff.mp ht
      rw [System.submit, update, List.modify_eq_set_get _ hi]
      rfl
    have counted := tally_update ht { t with todo := t.todo ++ rs } s
    rw [← eq] at counted
    exact Nat.add_right_cancel counted

/-- Why threads are parked. A parked receiver may be next to a value only if some other receiver has
been signalled for it. -/
structure Watchful (sys : System α) : Prop where
  orderly : ∀ {i : Nat} {t : Thread α} {on : Condition}, sys.threads[i]? = some t →
    t.WaitsOn on → ∃ r rest, t.todo = r :: rest ∧ r.condition? = some on
  senders : ∀ {i : Nat} {t : Thread α}, sys.threads[i]? = some t → t.status = .parked .notFull →
    sys.channel.Blocks t .notFull
  receivers : ∀ {i : Nat} {t : Thread α}, sys.threads[i]? = some t →
    t.status = .parked .notEmpty → sys.channel.closed = false ∧
      sys.channel.queue.length ≤ sys.tally (.signalled .notEmpty)

namespace Watchful

theorem start (ch : Channel α) (n : Nat) : Watchful (System.start ch n) := by
  have ready {i : Nat} {t : Thread α} (ht : (System.start ch n).threads[i]? = some t) :
      t.status = .ready := by
    simp only [System.start, List.getElem?_replicate] at ht
    split at ht
    · cases ht
      rfl
    · cases ht
  constructor
  · rintro i t on ht (parked | signalled)
    · cases (ready ht).symm.trans parked
    · cases (ready ht).symm.trans signalled
  · intro i t ht parked
    cases (ready ht).symm.trans parked
  · intro i t ht parked
    cases (ready ht).symm.trans parked

theorem submit (watchful : Watchful sys) (i : Nat) (rs : List (Request α)) :
    Watchful (sys.submit i rs) := by
  have before {j : Nat} {u : Thread α} (hu : (sys.submit i rs).threads[j]? = some u) :
      ∃ w, sys.threads[j]? = some w ∧ u.status = w.status ∧ u.ticket = w.ticket ∧
        ∃ more, u.todo = w.todo ++ more := by
    simp only [System.submit, List.getElem?_modify] at hu
    obtain ⟨w, hw, rfl⟩ := Option.map_eq_some_iff.mp hu
    refine ⟨w, hw, ?_⟩
    split
    · exact ⟨rfl, rfl, rs, rfl⟩
    · exact ⟨rfl, rfl, [], (List.append_nil _).symm⟩
  constructor
  · intro j u on hu waits
    obtain ⟨w, hw, status, _, more, todo⟩ := before hu
    rw [Thread.WaitsOn, status] at waits
    obtain ⟨r, rest, eq, condition⟩ := watchful.orderly hw waits
    exact ⟨r, rest ++ more, by rw [todo, eq, List.cons_append], condition⟩
  · intro j u hu parked
    obtain ⟨w, hw, status, ticket, _⟩ := before hu
    have blocks := watchful.senders hw (status ▸ parked)
    rwa [Channel.Blocks, ← ticket] at blocks
  · intro j u hu parked
    obtain ⟨w, hw, status, _⟩ := before hu
    rw [tally_submit]
    exact watchful.receivers hw (status ▸ parked)

theorem orderly_of_rouses (watchful : Watchful sys) (rouses : sys.Rouses on sys')
    (hu : sys'.threads[j]? = some u) {on' : Condition} (waits : u.WaitsOn on') :
    ∃ r rest, u.todo = r :: rest ∧ r.condition? = some on' := by
  obtain ⟨w, hw, rfl | rfl⟩ := rouses j u hu
  · exact watchful.orderly hw waits
  · rw [(Thread.same_signal on w).todo]
    exact watchful.orderly hw (Thread.waitsOn_of_signal waits)

theorem signal (watchful : Watchful sys) (hu : sys.threads[j]? = some u) (on : Condition) :
    Watchful (sys.update j (u.signal on)) := by
  have rouses := rouses_update hu on
  refine ⟨fun hw waits => watchful.orderly_of_rouses rouses hw waits,
    fun hw parked => watchful.senders (rouses.parked hw parked) parked, fun hw parked => ?_⟩
  obtain ⟨opened, few⟩ := watchful.receivers (rouses.parked hw parked) parked
  have counted := tally_update hu (u.signal on) (.signalled .notEmpty)
  refine ⟨opened, Nat.le_trans few ?_⟩
  by_cases here : u.status = .signalled .notEmpty
  · have still : u.signal on = u := Thread.signal_of_not_parked (by simp [here])
    rw [still] at counted ⊢
    exact Nat.le_of_eq (Nat.add_right_cancel counted).symm
  · rw [if_neg here] at counted
    omega

theorem wake (watchful : Watchful sys) (i : Nat) (on : Condition) :
    Watchful { sys with threads := sys.threads.modify i (·.signal on) } := by
  cases ht : sys.threads[i]? with
  | none => rwa [List.modify_eq_self (List.getElem?_eq_none_iff.mp ht)]
  | some t =>
    rw [modify_signal ht]
    exact watchful.signal ht on

theorem receive_of_signalled (watchful : Watchful sys) (ht : sys.threads[i]? = some t)
    {r : Request α} {rest : List (Request α)} (todo : t.todo = r :: rest)
    (signalled : t.status = .signalled .notEmpty) : r = .receive := by
  obtain ⟨r', rest', todo', condition⟩ := watchful.orderly ht (.inr signalled)
  cases todo.symm.trans todo'
  cases r <;> cases condition
  rfl

section

variable {r : Request α} {rest : List (Request α)} (watchful : Watchful sys)
  (ht : sys.threads[i]? = some t) (todo : t.todo = r :: rest)

include watchful ht todo

theorem park (condition : r.condition? = some on) (blocks : sys.channel.Blocks t on) :
    Watchful (sys.update i (t.park on)) := by
  constructor
  · intro j u on' hu waits
    obtain ⟨rfl, rfl⟩ | ⟨_, hu⟩ := getElem?_update hu
    · obtain rfl : on = on' := by simpa [Thread.WaitsOn, Thread.park] using waits
      exact ⟨r, rest, todo, condition⟩
    · exact watchful.orderly hu waits
  · intro j u hu parked
    obtain ⟨rfl, rfl⟩ | ⟨_, hu⟩ := getElem?_update hu
    · obtain rfl : on = .notFull := by simpa [Thread.park] using parked
      exact blocks
    · exact watchful.senders hu parked
  · intro j u hu parked
    have counted := tally_update ht (t.park on) (.signalled .notEmpty)
    rw [if_neg (by simp [Thread.park] : (t.park on).status ≠ .signalled .notEmpty)] at counted
    obtain ⟨rfl, rfl⟩ | ⟨_, hu⟩ := getElem?_update hu
    · obtain rfl : on = .notEmpty := by simpa [Thread.park] using parked
      exact ⟨blocks.1, by simp [update, blocks.2]⟩
    · obtain ⟨opened, few⟩ := watchful.receivers hu parked
      refine ⟨opened, ?_⟩
      by_cases here : t.status = .signalled .notEmpty
      · obtain rfl := watchful.receive_of_signalled ht todo here
        cases condition
        simp [update, blocks.2]
      · rw [if_neg here] at counted
        exact Nat.le_trans few (by omega)

theorem answer {x : Reply α} (drained : r = .receive → sys.channel.queue = []) :
    Watchful (sys.update i (t.finish x)) := by
  constructor
  · intro j u on hu waits
    obtain ⟨rfl, rfl⟩ | ⟨_, hu⟩ := getElem?_update hu
    · simp [Thread.WaitsOn, Thread.finish] at waits
    · exact watchful.orderly hu waits
  · intro j u hu parked
    obtain ⟨rfl, rfl⟩ | ⟨_, hu⟩ := getElem?_update hu
    · cases parked
    · exact watchful.senders hu parked
  · intro j u hu parked
    have counted := tally_update ht (t.finish x) (.signalled .notEmpty)
    obtain ⟨rfl, rfl⟩ | ⟨_, hu⟩ := getElem?_update hu
    · cases parked
    · obtain ⟨opened, few⟩ := watchful.receivers hu parked
      refine ⟨opened, ?_⟩
      by_cases here : t.status = .signalled .notEmpty
      · simp [update, drained (watchful.receive_of_signalled ht todo here)]
      · rw [if_neg here] at counted
        exact Nat.le_trans few (by omega)

theorem tally_enter {v : α} (ch : Channel α) {t' : Thread α}
    (awake : ∀ on, t.status ≠ .parked on) (send : r = .send v)
    (after : t' = t.finish (.sent (.ok ())) ∨ ch.taken < ch.sent ∧
      t' = { t.park .notFull with ticket := some ch.sent })
    (hu : sys.threads[j]? = some u) (parked : u.status = .parked .notEmpty) (pick : Nat) :
    ((({ sys with channel := ch } : System α).notifyOne .notEmpty pick).update i t').tally
        (.signalled .notEmpty) = sys.tally (.signalled .notEmpty) + 1 ∧
      ((({ sys with channel := ch } : System α).notifyOne .notEmpty pick).update i t').tally
        (.parked .notEmpty) + 1 = sys.tally (.parked .notEmpty) := by
  have other : t.status ≠ .signalled .notEmpty := fun here => by
    cases send.symm.trans (watchful.receive_of_signalled ht todo here)
  have apart {s : Status} (hs : s = .signalled .notEmpty ∨ s = .parked .notEmpty) :
      t'.status ≠ s := by
    obtain rfl | ⟨_, rfl⟩ := after <;> obtain rfl | rfl := hs <;> simp [Thread.finish, Thread.park]
  have ht' : ({ sys with channel := ch } : System α).threads[i]? = some t := ht
  have hu' : ({ sys with channel := ch } : System α).threads[j]? = some u := hu
  obtain ⟨gained, lost⟩ := tally_notifyOne hu' parked pick
  have here := getElem?_notifyOne ht' (awake .notEmpty) pick
  have signalled := tally_update here t' (.signalled .notEmpty)
  have waiting := tally_update here t' (.parked .notEmpty)
  rw [if_neg other, if_neg (apart (.inl rfl))] at signalled
  rw [if_neg (awake .notEmpty), if_neg (apart (.inr rfl))] at waiting
  exact ⟨signalled.trans gained, (congrArg (· + 1) waiting).trans lost⟩

theorem enter {v : α} {ch : Channel α} {t' : Thread α} (pick : Nat)
    (awake : ∀ on, t.status ≠ .parked on) (send : r = .send v)
    (opened : sys.channel.closed = false) (room : sys.channel.queue.length < sys.channel.slots)
    (pushed : ch = { sys.channel with
      queue := sys.channel.queue ++ [v], sent := sys.channel.sent + 1 })
    (after : t' = t.finish (.sent (.ok ())) ∨ ch.taken < ch.sent ∧
      t' = { t.park .notFull with ticket := some ch.sent }) :
    Watchful ((({ sys with channel := ch } : System α).notifyOne .notEmpty pick).update i t') := by
  have rouses : sys.Rouses .notEmpty (({ sys with channel := ch } : System α).notifyOne .notEmpty
      pick) := rouses_notifyOne { sys with channel := ch } .notEmpty pick
  constructor
  · intro j u on hu waits
    obtain ⟨rfl, rfl⟩ | ⟨_, hu⟩ := getElem?_update hu
    · obtain rfl | ⟨_, rfl⟩ := after
      · simp [Thread.WaitsOn, Thread.finish] at waits
      · obtain rfl : .notFull = on := by simpa [Thread.WaitsOn, Thread.park] using waits
        exact ⟨r, rest, todo, by rw [send]; rfl⟩
    · exact watchful.orderly_of_rouses rouses hu waits
  · intro j u hu parked
    simp only [update, channel_notifyOne]
    obtain ⟨rfl, rfl⟩ | ⟨_, hu⟩ := getElem?_update hu
    · obtain rfl | ⟨early, rfl⟩ := after
      · cases parked
      · exact ⟨by rw [pushed]; exact opened, early⟩
    · obtain ⟨_, blocks⟩ := watchful.senders (rouses.parked hu parked) parked
      -- who waits for a slot would have found this one
      cases ticket : u.ticket with
      | none =>
        simp only [ticket] at blocks
        omega
      | some k =>
        simp only [ticket] at blocks
        subst pushed
        exact ⟨opened, by simpa only [ticket] using blocks⟩
  · intro j u hu parked
    simp only [update, channel_notifyOne]
    obtain ⟨rfl, rfl⟩ | ⟨_, hu⟩ := getElem?_update hu
    · obtain rfl | ⟨_, rfl⟩ := after <;> cases parked
    · have hu₀ := rouses.parked hu parked
      obtain ⟨_, few⟩ := watchful.receivers hu₀ parked
      have more := (watchful.tally_enter ht todo ch awake send after hu₀ parked pick).1
      subst pushed
      refine ⟨opened, ?_⟩
      simp only [List.length_append, List.length_singleton]
      exact Nat.le_trans (Nat.add_le_add_right few 1) (Nat.le_of_eq more.symm)

omit todo in
theorem take {v : α} {left : List α} {ch : Channel α} (awake : ∀ on, t.status ≠ .parked on)
    (queue : sys.channel.queue = v :: left)
    (popped : ch = { sys.channel with queue := left, taken := sys.channel.taken + 1 }) :
    Watchful ((({ sys with channel := ch } : System α).notifyAll .notFull).update i
      (t.finish (.received (some v)))) := by
  have rouses : sys.Rouses .notFull (({ sys with channel := ch } : System α).notifyAll .notFull) :=
    rouses_notifyAll { sys with channel := ch } .notFull
  constructor
  · intro j u on hu waits
    obtain ⟨rfl, rfl⟩ | ⟨_, hu⟩ := getElem?_update hu
    · simp [Thread.WaitsOn, Thread.finish] at waits
    · exact watchful.orderly_of_rouses rouses hu waits
  · intro j u hu parked
    obtain ⟨rfl, rfl⟩ | ⟨_, hu⟩ := getElem?_update hu
    · cases parked
    · exact absurd parked (not_parked_of_notifyAll hu)
  · intro j u hu parked
    obtain ⟨rfl, rfl⟩ | ⟨_, hu⟩ := getElem?_update hu
    · cases parked
    · have fewer := tally_take ch v ht awake (s := .signalled .notEmpty) (by simp)
      obtain ⟨opened, few⟩ := watchful.receivers (rouses.parked hu parked) parked
      rw [queue, List.length_cons] at few
      simp only [reduceCtorEq, if_false, Nat.add_zero] at fewer
      have length : ch.queue.length = left.length := by rw [popped]
      refine ⟨by rw [popped]; exact opened, ?_⟩
      change ch.queue.length ≤ _
      split at fewer <;> omega

omit ht todo in
theorem close {ch : Channel α} :
    Watchful (((({ sys with channel := ch } : System α).notifyAll .notFull).notifyAll
      .notEmpty).update i (t.finish (.closed (.ok ())))) := by
  have nobody {j : Nat} {u : Thread α} {on : Condition} (hu : (((({ sys with channel := ch } :
      System α).notifyAll .notFull).notifyAll .notEmpty).update i
        (t.finish (.closed (.ok ())))).threads[j]? = some u) : u.status ≠ .parked on := by
    intro parked
    obtain ⟨rfl, rfl⟩ | ⟨_, hu⟩ := getElem?_update hu
    · cases parked
    · cases on with
      | notEmpty => exact not_parked_of_notifyAll hu parked
      | notFull =>
        exact not_parked_of_notifyAll ((rouses_notifyAll _ .notEmpty).parked hu parked) parked
  constructor
  · intro j u on hu waits
    obtain ⟨rfl, rfl⟩ | ⟨_, hu⟩ := getElem?_update hu
    · simp [Thread.WaitsOn, Thread.finish] at waits
    · obtain ⟨w, hw, rfl | rfl⟩ := rouses_notifyAll _ .notEmpty j u hu
      · exact watchful.orderly_of_rouses (rouses_notifyAll _ .notFull) hw waits
      · rw [(Thread.same_signal .notEmpty w).todo]
        exact watchful.orderly_of_rouses (rouses_notifyAll _ .notFull) hw
          (Thread.waitsOn_of_signal waits)
  · intro j u hu parked
    exact absurd parked (nobody hu)
  · intro j u hu parked
    exact absurd parked (nobody hu)

end

theorem step (watchful : Watchful sys) (h : sys.step i pick = some sys') : Watchful sys' := by
  obtain ⟨t, r, rest, ht, awake, todo, advance⟩ := advance_of_step h
  cases advance with
  | park condition blocks => exact watchful.park ht todo condition blocks
  | answer drained => exact watchful.answer ht todo drained
  | enter pick opened room pushed after =>
    exact watchful.enter ht todo pick awake rfl opened room pushed after
  | take queue popped => exact watchful.take ht awake queue popped
  | close => exact watchful.close

end Watchful

theorem Run.watchful {log : Log α} (run : Run c n log sys) : Watchful sys := by
  induction run with
  | start => exact .start _ n
  | submit i rs _ ih => exact ih.submit i rs
  | wake i on _ ih => exact ih.wake i on
  | step _ h ih => exact ih.step h

inductive Moves : System α → System α → Prop
  | submit {sys : System α} (i : Nat) (rs : List (Request α)) : Moves sys (sys.submit i rs)
  | wake {sys : System α} (i : Nat) (on : Condition) :
    Moves sys { sys with threads := sys.threads.modify i (·.signal on) }
  | step {sys sys' : System α} {i pick : Nat} : sys.step i pick = some sys' → Moves sys sys'

/-- A way in which all may go on for ever. A thread that can take a step takes one some time. -/
structure Future (sys : System α) (f : Nat → System α) : Prop where
  start : f 0 = sys
  moves : ∀ k, (f k).Moves (f (k + 1))
  fair : ∀ {i k : Nat}, ((f k).step i 0).isSome = true →
    ∃ l, k ≤ l ∧ ∃ pick, (f l).step i pick = some (f (l + 1))

theorem Watchful.moves (watchful : Watchful sys) (h : sys.Moves sys') : Watchful sys' := by
  cases h with
  | submit i rs => exact watchful.submit i rs
  | wake i on => exact watchful.wake i on
  | step h => exact watchful.step h

/-- What is left to do with the receivers that wait: to signal them and to let them run. -/
def weight (sys : System α) : Nat :=
  2 * sys.tally (.parked .notEmpty) + sys.tally (.signalled .notEmpty)

theorem weight_update (ht : sys.threads[i]? = some t) {t' : Thread α}
    (resumed : ¬t'.WaitsOn .notEmpty) : (sys.update i t').weight ≤ sys.weight := by
  have parked := tally_update ht t' (.parked .notEmpty)
  have signalled := tally_update ht t' (.signalled .notEmpty)
  rw [if_neg fun h => resumed (.inl h)] at parked
  rw [if_neg fun h => resumed (.inr h)] at signalled
  simp only [weight]
  omega

theorem weight_signal (hu : sys.threads[j]? = some u) (on : Condition) :
    (sys.update j (u.signal on)).weight ≤ sys.weight := by
  have parked := tally_update hu (u.signal on) (.parked .notEmpty)
  have signalled := tally_update hu (u.signal on) (.signalled .notEmpty)
  simp only [weight]
  by_cases waits : u.status = .parked on
  · rw [Thread.signal_of_parked waits] at parked signalled ⊢
    rw [waits] at parked signalled
    cases on <;> simp at parked signalled <;> omega
  · rw [Thread.signal_of_not_parked waits] at parked signalled ⊢
    omega

section

variable {x : Thread α} (watchful : Watchful sys) (hx : sys.threads[i]? = some x)
  (parked : x.status = .parked .notEmpty)

include watchful hx parked

theorem Watchful.weight_step (more : sys.channel.queue ≠ []) {x' : Thread α}
    (hx' : sys'.threads[i]? = some x') (still : x'.status = .parked .notEmpty)
    (h : sys.step j pick = some sys') : sys'.weight ≤ sys.weight := by
  obtain ⟨t, r, rest, ht, awake, todo, advance⟩ := advance_of_step h
  cases advance with
  | @park _ on condition blocks =>
    apply weight_update ht
    cases on with
    | notEmpty => exact absurd blocks.2 more
    | notFull => simp [Thread.WaitsOn, Thread.park]
  | answer _ => exact weight_update ht (by simp [Thread.WaitsOn, Thread.finish])
  | @enter _ ch _ pick opened room pushed after =>
    obtain ⟨signalled, waiting⟩ :=
      watchful.tally_enter ht todo ch awake rfl after hx parked pick
    simp only [weight]
    omega
  | @take v _ ch queue popped =>
    have waiting := tally_take ch v ht awake (s := .parked .notEmpty) (by simp)
    have signalled := tally_take ch v ht awake (s := .signalled .notEmpty) (by simp)
    simp only [reduceCtorEq, if_false] at waiting signalled
    simp only [weight]
    omega
  | close =>
    obtain ⟨rfl, rfl⟩ | ⟨_, hx'⟩ := getElem?_update hx'
    · cases still
    · exact absurd still (not_parked_of_notifyAll hx')

theorem Watchful.weight_moves (more : sys.channel.queue ≠ []) {x' : Thread α}
    (hx' : sys'.threads[i]? = some x') (still : x'.status = .parked .notEmpty)
    (h : sys.Moves sys') : sys'.weight ≤ sys.weight := by
  cases h with
  | submit k rs => simp only [weight, tally_submit, Nat.le_refl]
  | wake k on =>
    cases hk : sys.threads[k]? with
    | none =>
      simp only [List.modify_eq_self (List.getElem?_eq_none_iff.mp hk), Nat.le_refl]
    | some w =>
      rw [modify_signal hk]
      exact weight_signal hk on
  | step h => exact watchful.weight_step hx parked more hx' still h

end

theorem Watchful.weight_lt (watchful : Watchful sys) (ht : sys.threads[j]? = some t)
    (signalled : t.status = .signalled .notEmpty) (more : sys.channel.queue ≠ [])
    (h : sys.step j pick = some sys') : sys'.weight < sys.weight := by
  obtain ⟨t, r, rest, ht', awake, todo, advance⟩ := advance_of_step h
  cases ht.symm.trans ht'
  obtain rfl := watchful.receive_of_signalled ht todo signalled
  cases advance with
  | @park _ on condition blocks =>
    cases condition
    exact absurd blocks.2 more
  | answer drained => exact absurd (drained rfl) more
  | @take v _ ch queue popped =>
    have waiting := tally_take ch v ht awake (s := .parked .notEmpty) (by simp)
    have fewer := tally_take ch v ht awake (s := .signalled .notEmpty) (by simp)
    simp only [signalled, reduceCtorEq, if_false, if_true] at waiting fewer
    simp only [weight]
    omega

theorem signalled_of_moves (ht : sys.threads[j]? = some t) (signalled : t.status = .signalled on)
    (h : sys.Moves sys') : (∃ pick, sys.step j pick = some sys') ∨
      ∃ t', sys'.threads[j]? = some t' ∧ t'.status = .signalled on := by
  have awake (on' : Condition) : t.status ≠ .parked on' := by simp [signalled]
  cases h with
  | submit k rs =>
    simp only [System.submit, List.getElem?_modify, ht]
    refine .inr ⟨_, rfl, ?_⟩
    split <;> exact signalled
  | wake k on' =>
    refine .inr ⟨t, ?_, signalled⟩
    simp only [List.getElem?_modify, ht]
    split
    · simp [Thread.signal_of_not_parked (awake on')]
    · rfl
  | @step _ k pick h =>
    by_cases same : k = j
    · exact .inl ⟨pick, same ▸ h⟩
    · obtain ⟨w, r, rest, _, _, _, advance⟩ := advance_of_step h
      refine .inr ⟨t, ?_, signalled⟩
      cases advance with
      | park _ _ | answer _ =>
        simp only [update]
        rwa [List.getElem?_set_ne same]
      | @enter _ ch _ pick _ _ _ _ =>
        simp only [update]
        rw [List.getElem?_set_ne same]
        have ht' : ({ sys with channel := ch } : System α).threads[j]? = some t := ht
        exact getElem?_notifyOne ht' (awake .notEmpty) pick
      | take _ _ =>
        simp only [update]
        rw [List.getElem?_set_ne same]
        exact getElem?_notifyAll ht (awake .notFull)
      | close =>
        simp only [update]
        rw [List.getElem?_set_ne same]
        exact getElem?_notifyAll (getElem?_notifyAll ht (awake .notFull)) (awake .notEmpty)

namespace Future

variable {f : Nat → System α}

theorem watchful (future : Future sys f) (h : Watchful sys) (k : Nat) : Watchful (f k) := by
  induction k with
  | zero => rwa [future.start]
  | succ k ih => exact ih.moves (future.moves k)

theorem exists_step (future : Future sys f) (h : Watchful sys) {k : Nat}
    (ht : (f k).threads[j]? = some t) (signalled : t.status = .signalled .notEmpty) :
    ∃ l t' pick, k ≤ l ∧ (f l).threads[j]? = some t' ∧ t'.status = .signalled .notEmpty ∧
      (f l).step j pick = some (f (l + 1)) := by
  have enabled : ((f k).step j 0).isSome = true := by
    obtain ⟨r, rest, todo, _⟩ := (future.watchful h k).orderly ht (.inr signalled)
    simp only [step, ht, signalled, todo, Option.isSome_some]
  obtain ⟨l, after, pick, stepped⟩ := future.fair enabled
  -- at the latest at `l` the thread has left its place
  have waits (d : Nat) : (∃ t', (f (k + d)).threads[j]? = some t' ∧
      t'.status = .signalled .notEmpty) ∨ ∃ l t' pick, k ≤ l ∧ (f l).threads[j]? = some t' ∧
        t'.status = .signalled .notEmpty ∧ (f l).step j pick = some (f (l + 1)) := by
    induction d with
    | zero => exact .inl ⟨t, ht, signalled⟩
    | succ d ih =>
      obtain ⟨t', ht', still⟩ | found := ih
      · obtain ⟨pick, stepped⟩ | next := signalled_of_moves ht' still (future.moves (k + d))
        · exact .inr ⟨k + d, t', pick, Nat.le_add_right k d, ht', still, stepped⟩
        · exact .inl next
      · exact .inr found
  obtain ⟨d, rfl⟩ := Nat.exists_eq_add_of_le after
  obtain ⟨t', ht', still⟩ | found := waits d
  · exact ⟨k + d, t', pick, after, ht', still, stepped⟩
  · exact found

variable {m : Nat} (parked : ∀ l, m ≤ l → ∃ x, (f l).threads[i]? = some x ∧
  x.status = .parked .notEmpty) (more : ∀ l, m ≤ l → (f l).channel.queue ≠ [])

include parked more

theorem weight_le (future : Future sys f) (h : Watchful sys) {k l : Nat} (hk : m ≤ k)
    (hl : k ≤ l) : (f l).weight ≤ (f k).weight := by
  induction hl with
  | refl => exact Nat.le_refl _
  | @step l hl ih =>
    have hl := Nat.le_trans hk hl
    obtain ⟨x, hx, waits⟩ := parked l hl
    obtain ⟨x', hx', still⟩ := parked (l + 1) (Nat.le_succ_of_le hl)
    have lighter := (future.watchful h l).weight_moves hx waits (more l hl) hx' still
      (future.moves l)
    exact Nat.le_trans lighter ih

/-- Values do not lie next to a parked receiver for ever: each time one does there is a signalled
receiver, whose step leaves less to do. -/
theorem false_of_parked (future : Future sys f) (h : Watchful sys) {w k : Nat} (hk : m ≤ k)
    (hw : (f k).weight = w) : False := by
  induction w using Nat.strongRecOn generalizing k with
  | ind w ih =>
    obtain ⟨x, hx, waits⟩ := parked k hk
    have few := ((future.watchful h k).receivers hx waits).2
    have some := List.length_pos_iff.mpr (more k hk)
    obtain ⟨j, t, ht, signalled⟩ := exists_of_tally (Nat.lt_of_lt_of_le some few)
    obtain ⟨l, t', pick, after, ht', still, stepped⟩ := future.exists_step h ht signalled
    have hl := Nat.le_trans hk after
    have lighter := (future.watchful h l).weight_lt ht' still (more l hl) stepped
    have before := future.weight_le parked more h hk after
    exact ih (f (l + 1)).weight (by omega) (Nat.le_succ_of_le hl) rfl

end Future

structure Attended (c : Nat) (log : Log α) (sys : System α) : Prop where
  signalled : ∀ {i : Nat} {t : Thread α}, sys.threads[i]? = some t →
    t.status = .signalled .notEmpty → ∃ rest, t.todo = .receive :: rest
  receivers : ∀ {i : Nat} {t : Thread α}, sys.threads[i]? = some t →
    t.status = .parked .notEmpty → (∃ rest, t.todo = .receive :: rest) ∧
      sys.channel.closed = false ∧ sys.channel.queue.length ≤ sys.tally (.signalled .notEmpty)
  slots : ∀ {i : Nat} {t : Thread α}, sys.threads[i]? = some t → t.status = .parked .notFull →
    t.ticket = none → (∃ v rest, t.todo = .send v :: rest) ∧ sys.channel.closed = false ∧
      sys.channel.queue.length = max c 1
  handOvers : ∀ {i k : Nat} {t : Thread α}, sys.threads[i]? = some t →
    t.status = .parked .notFull → t.ticket = some k → sys.channel.closed = false ∧
      sys.channel.taken < k ∧ ∃ v rest j, t.todo = .send v :: rest ∧
        log.entered[j]? = some ((i, t.replies.length), v) ∧ log.received.length ≤ j
  served : ∀ {f : Nat → System α}, Future sys f → ∀ {i m : Nat} {on : Condition},
    (∀ l, m ≤ l → ∃ t, (f l).threads[i]? = some t ∧ t.status = .parked on) →
      ∀ k, m ≤ k → ∃ l t, k ≤ l ∧ (f l).threads[i]? = some t ∧ (f l).channel.Blocks t on

theorem Watchful.served (watchful : Watchful sys) {f : Nat → System α} (future : Future sys f)
    {m : Nat} (parked : ∀ l, m ≤ l → ∃ t, (f l).threads[i]? = some t ∧ t.status = .parked on)
    {k : Nat} (hk : m ≤ k) :
    ∃ l t, k ≤ l ∧ (f l).threads[i]? = some t ∧ (f l).channel.Blocks t on := by
  cases on with
  | notFull =>
    obtain ⟨t, ht, waits⟩ := parked k hk
    exact ⟨k, t, Nat.le_refl k, ht, (future.watchful watchful k).senders ht waits⟩
  | notEmpty =>
    by_contra unserved
    have still (l : Nat) (hl : k ≤ l) := parked l (Nat.le_trans hk hl)
    refine future.false_of_parked still (fun l hl empty => ?_) watchful (Nat.le_refl k) rfl
    obtain ⟨t, ht, waits⟩ := still l hl
    have opened := ((future.watchful watchful l).receivers ht waits).1
    exact unserved ⟨l, t, hl, ht, opened, empty⟩

/-- No wake-up is lost, whatever the threads do and in whichever order. -/
theorem Run.attended {log : Log α} (run : Run c n log sys) : Attended c log sys := by
  have watchful := run.watchful
  have inv := run.inv
  constructor
  · intro i t ht signalled
    obtain ⟨r, rest, todo, condition⟩ := watchful.orderly ht (.inr signalled)
    cases r <;> cases condition
    exact ⟨rest, todo⟩
  · intro i t ht parked
    obtain ⟨r, rest, todo, condition⟩ := watchful.orderly ht (.inl parked)
    cases r <;> cases condition
    exact ⟨⟨rest, todo⟩, watchful.receivers ht parked⟩
  · intro i t ht parked free
    obtain ⟨r, rest, todo, condition⟩ := watchful.orderly ht (.inl parked)
    obtain ⟨opened, full⟩ := watchful.senders ht parked
    simp only [free, Channel.slots, inv.counts.capacity] at full
    have bounded := inv.counts.bounded
    cases r <;> cases condition
    exact ⟨⟨_, rest, todo⟩, opened, Nat.le_antisymm bounded full⟩
  · intro i k t ht parked held
    obtain ⟨opened, early⟩ := watchful.senders ht parked
    simp only [held] at early
    obtain ⟨_, v, rest, j, todo, place, entry⟩ := (inv.threads ht).ticket held
    have taken := inv.counts.taken
    exact ⟨opened, early, v, rest, j, todo, entry, by omega⟩
  · intro f future i m on parked k hk
    exact watchful.served future parked hk

theorem attended_receivers : ∃ (log : Log Nat) (sys : System Nat), Run 2 3 log sys ∧
    sys.channel.queue = [7] ∧ sys.threads.map (·.status) =
      [.signalled .notEmpty, .parked .notEmpty, .ready] ∧ Attended 2 log sys := by
  have ready := ((Run.start (c := 2) (n := 3) (α := Nat)).submit 0 [.receive]).submit 1 [.receive]
  have first := (ready.submit 2 [.send 7]).step (show System.step _ 0 0 = some _ from rfl)
  have second := first.step (show System.step _ 1 0 = some _ from rfl)
  have sent := second.step (show System.step _ 2 0 = some _ from rfl)
  exact ⟨_, _, sent, rfl, rfl, sent.attended⟩

end System

end HostBridge
