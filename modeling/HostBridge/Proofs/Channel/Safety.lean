import HostBridge.Proofs.Channel.Invariant

namespace HostBridge

variable {α : Type} {c n : Nat}

namespace System

structure Inv (c : Nat) (log : Log α) (sys : System α) : Prop where
  counts : sys.channel.Counts c (log.entered.map (·.2)) log.received log.discarded
  answers : log.Answers c sys.channel
  closes : log.Closes sys.channel
  distinct : (log.entered.map (·.1)).Nodup
  threads : ∀ {i : Nat} {t : Thread α}, sys.threads[i]? = some t → t.Fits c log.entered i

variable {log : Log α} {sys sys' : System α} {i j pick : Nat} {t t' u : Thread α} {r : Request α}
  {rest : List (Request α)} {ticket : Option Nat} {reply : Option (Reply α)}

theorem Inv.start (c n : Nat) : Inv c [] (start { capacity := c } n : System α) where
  counts := .start c
  answers := .start c _
  closes := .start rfl
  distinct := .nil
  threads h := by
    simp only [System.start, List.getElem?_replicate] at h
    split at h
    · cases h
      exact .start
    · cases h

theorem Inv.modify (inv : Inv c log sys) (i : Nat) {f : Thread α → Thread α}
    (fits : ∀ {t : Thread α}, t.Fits c log.entered i → (f t).Fits c log.entered i) :
    Inv c log { sys with threads := sys.threads.modify i f } where
  counts := inv.counts
  answers := inv.answers
  closes := inv.closes
  distinct := inv.distinct
  threads {j u} hu := by
    rw [List.getElem?_modify] at hu
    obtain ⟨w, hw, rfl⟩ := Option.map_eq_some_iff.mp hu
    split
    · rename_i same
      subst same
      exact fits (inv.threads hw)
    · exact inv.threads hw

theorem Inv.fits_self (inv : Inv c log sys) (ht : sys.threads[i]? = some t)
    (todo : t.todo = r :: rest) (after : t.After ticket reply t') {ch : Channel α}
    (runs : Section sys.channel t.ticket r ch ticket reply) :
    t'.Fits c (log.entered ++ (ch.queue.drop sys.channel.queue.length).map
      ((i, t.replies.length), ·)) i := by
  have fits := inv.threads ht
  cases reply with
  | some x =>
    have free := runs.ticket_of_reply
    subst free
    exact fits.reply after _
  | none =>
    generalize held : t.ticket = ticket₀ at runs
    cases runs with
    | full _ => simpa using fits.same ⟨after.1, after.2.1, after.2.2.trans held.symm⟩
    | wait => simpa using fits.same ⟨after.1, after.2.1, after.2.2.trans held.symm⟩
    | empty => simpa using fits.same ⟨after.1, after.2.1, after.2.2.trans held.symm⟩
    | enter opened room zero =>
      have sent := inv.counts.sent
      rw [List.length_map] at sent
      rw [sent] at after
      simpa using fits.enter (inv.counts.capacity ▸ zero) todo held after

theorem Inv.distinct_step (inv : Inv c log sys) (ht : sys.threads[i]? = some t) {ch : Channel α}
    (runs : Section sys.channel t.ticket r ch ticket reply) :
    ((log.entered ++ (ch.queue.drop sys.channel.queue.length).map
      ((i, t.replies.length), ·)).map (·.1)).Nodup := by
  have fresh (v : α) (free : t.ticket = none) :=
    Log.nodup_append_of_not_mem inv.distinct
      (fun _ => (inv.threads ht).not_mem free (Nat.le_refl _)) v
  generalize held : t.ticket = ticket₀ at runs
  cases runs with
  | full _ | refused _ | wait | settled _ | lost _ _ | empty | drained _ _ | again _ =>
    simpa using inv.distinct
  | @enter v _ _ _ => simpa using fresh v held
  | @buffer v _ _ _ => simpa using fresh v held
  | take queue =>
    rw [queue, List.drop_eq_nil_of_le (by simp), List.map_nil, List.append_nil]
    exact inv.distinct
  | close _ =>
    by_cases zero : sys.channel.capacity = 0 <;> simpa [zero] using inv.distinct

theorem Inv.step (inv : Inv c log sys) (h : sys.step i pick = some sys') :
    Inv c (log ++ sys.events sys' i) sys' := by
  obtain ⟨t, r, rest, ticket, reply, ht, todo, stepped⟩ := step_cases h
  have runs := stepped.runs
  have fits := inv.threads ht
  obtain ⟨t', after, moved⟩ := stepped.moved
  rw [events_eq ht todo stepped]
  constructor
  · simpa [Function.comp_def] using inv.counts.step runs
  · exact inv.answers.step inv.counts inv.distinct fits todo runs
  · exact inv.closes.step fits runs
  · rw [Log.entered_append, Log.entered_ofSection]
    exact inv.distinct_step ht runs
  · intro j u hu
    rw [Log.entered_append, Log.entered_ofSection]
    by_cases same : j = i
    · subst same
      cases moved.self.symm.trans hu
      exact inv.fits_self ht todo after runs
    · obtain ⟨w, hw, alike⟩ := moved.other same hu
      exact ((inv.threads hw).same alike).append (Ne.symm same) _

theorem Run.inv (run : Run c n log sys) : Inv c log sys := by
  induction run with
  | start => exact .start c n
  | submit i rs _ ih => exact ih.modify i fun fits => fits.todo_append rs
  | wake i on _ ih => exact ih.modify i fun fits => fits.same (Thread.same_signal on _)
  | step _ h ih => exact ih.step h

/-- What a run may be relied upon for. A request is its thread with the number of its earlier
requests, and the place of a value is how many entered before it. -/
structure Safe (c : Nat) (log : Log α) (sys : System α) : Prop where
  bounded : sys.channel.queue.length ≤ max c 1
  content : log.entered.map (·.2) = log.received ++ log.discarded ++ sys.channel.queue
  lossless : log.discarded = [] → log.entered.map (·.2) = log.received ++ sys.channel.queue ∧
    sys.channel.sent = sys.channel.taken + sys.channel.queue.length
  counted : sys.channel.sent = log.entered.length ∧ sys.channel.taken = log.received.length
  distinct : (log.entered.map (·.1)).Nodup
  handedOver : c = 0 → ∀ {op : Nat × Nat} {v : α}, .done op (.send v) (.sent (.ok ())) ∈ log →
    ∃ j : Nat, log.entered[j]? = some (op, v) ∧ log.received[j]? = some v
  withdrawn : ∀ {op : Nat × Nat} {v : α}, .done op (.send v) (.sent (.error .sendOnClosed)) ∈ log →
    ∀ {j : Nat} {w : α}, log.entered[j]? = some (op, w) → log.received.length ≤ j
  buffered : 0 < c → ∀ {op : Nat × Nat} {v : α}, .done op (.send v) (.sent (.ok ())) ∈ log →
    ∃ j : Nat, log.entered[j]? = some (op, v) ∧ (log.received ++ sys.channel.queue)[j]? = some v
  exhausted : ∀ {op : Nat × Nat} {r : Request α}, .done op r (.received none) ∈ log →
    sys.channel.closed = true ∧ sys.channel.queue = []
  closedOnce : log.countP Event.isClose ≤ 1
  afterClose : ∀ {l₁ l₂ : Log α} {e : Event α}, log = l₁ ++ e :: l₂ → e.isClose = true →
    (∀ op v, .entered op v ∉ l₂) ∧ ∀ op v x, .done op (.send v) x ∈ l₂ →
      (∀ w, .entered op w ∉ l₁) → x = .sent (.error .sendOnClosed)
  refused : sys.channel.closed = true → ∀ {i pick : Nat} {t : Thread α} {v : α}
    {rest : List (Request α)} {sys' : System α}, sys.threads[i]? = some t →
    t.todo = .send v :: rest → t.ticket = none → sys.step i pick = some sys' →
    sys'.channel = sys.channel ∧
      sys'.replies i = t.replies ++ [.sent (.error .sendOnClosed)]

theorem refused_of_closed (closed : sys.channel.closed = true) (ht : sys.threads[i]? = some t)
    {v : α} (todo : t.todo = .send v :: rest) (free : t.ticket = none)
    (h : sys.step i pick = some sys') : sys'.channel = sys.channel ∧
      sys'.replies i = t.replies ++ [.sent (.error .sendOnClosed)] := by
  obtain ⟨t₁, r, rest₁, ticket, reply, ht₁, todo₁, stepped⟩ := step_cases h
  cases ht.symm.trans ht₁
  cases todo.symm.trans todo₁
  obtain ⟨t', after, moved⟩ := stepped.moved
  have runs := stepped.runs
  rw [free] at runs
  have answer : sys'.channel = sys.channel ∧ reply = some (.sent (.error .sendOnClosed)) := by
    generalize sys'.channel = ch' at runs
    cases runs with
    | refused _ => exact ⟨rfl, rfl⟩
    | full opened => cases opened.symm.trans closed
    | enter opened _ _ => cases opened.symm.trans closed
    | buffer opened _ _ => cases opened.symm.trans closed
  obtain ⟨same, rfl⟩ := answer
  refine ⟨same, ?_⟩
  simp only [replies, moved.self, Option.map_some, Option.getD_some]
  exact after.2.1

theorem Inv.getElem?_content (inv : Inv c log sys) (none : log.discarded = []) {op : Nat × Nat}
    {v : α} (h : log.entered[j]? = some (op, v)) :
    (log.received ++ sys.channel.queue)[j]? = some v := by
  have order := inv.counts.order
  rw [none, List.append_nil] at order
  rw [← order, List.getElem?_map, h]
  rfl

theorem Inv.getElem?_received (inv : Inv c log sys) {op : Nat × Nat} {v : α}
    (h : log.entered[j]? = some (op, v)) (taken : j < log.received.length) :
    log.received[j]? = some v := by
  have entry : (log.entered.map (·.2))[j]? = some v := by simp [h]
  rw [inv.counts.order, List.append_assoc, List.getElem?_append_left taken] at entry
  exact entry

/-- Whatever the threads do and in whichever order, the channel keeps its promises. -/
theorem Run.safety (run : Run c n log sys) : Safe c log sys := by
  have inv := run.inv
  constructor
  · exact inv.counts.bounded
  · exact inv.counts.order
  · intro none
    have order := inv.counts.order
    rw [none, List.append_nil] at order
    refine ⟨order, ?_⟩
    rw [inv.counts.sent, inv.counts.taken, order, List.length_append]
  · refine ⟨?_, inv.counts.taken⟩
    rw [inv.counts.sent, List.length_map]
  · exact inv.distinct
  · intro zero op v h
    obtain ⟨j, entry, taken⟩ := inv.answers.accepted h
    exact ⟨j, entry, inv.getElem?_received entry (taken zero)⟩
  · intro op v h j w entry
    exact ((inv.answers.rejected h).2 entry).2
  · intro positive op v h
    obtain ⟨j, entry, _⟩ := inv.answers.accepted h
    have none : log.discarded = [] := by
      by_cases none : log.discarded = []
      · exact none
      · have zero := (inv.counts.lost none).1
        omega
    exact ⟨j, entry, inv.getElem?_content none entry⟩
  · exact inv.answers.exhausted
  · rw [inv.closes.count]
    exact Bool.toNat_le _
  · exact inv.closes.after
  · intro closed i pick t v rest sys' ht todo free h
    exact refused_of_closed closed ht todo free h

theorem safety_rendezvous : ∃ sys : System Nat,
    Run 0 3 [.entered (0, 0) 7, .done (1, 0) .receive (.received (some 7)),
      .done (2, 0) .close (.closed (.ok ())), .done (0, 0) (.send 7) (.sent (.ok ()))] sys ∧
    Safe 0 [.entered (0, 0) 7, .done (1, 0) .receive (.received (some 7)),
      .done (2, 0) .close (.closed (.ok ())), .done (0, 0) (.send 7) (.sent (.ok ()))] sys := by
  have ready := ((Run.start (c := 0) (n := 3)).submit 0 [.send 7]).submit 1 [.receive]
  have sent := (ready.submit 2 [.close]).step (show System.step _ 0 0 = some _ from rfl)
  have taken := sent.step (show System.step _ 1 0 = some _ from rfl)
  have closed := taken.step (show System.step _ 2 0 = some _ from rfl)
  have settled := closed.step (show System.step _ 0 0 = some _ from rfl)
  exact ⟨_, settled, settled.safety⟩

end System

end HostBridge
