import HostBridge.Proofs.Channel.History

namespace HostBridge

variable {α : Type} {c n : Nat}

def handed : Option (Reply α) → List α
  | some (.received (some v)) => [v]
  | _ => []

namespace Log

def ofSection (op : Nat × Nat) (r : Request α) (vs ds : List α) (reply : Option (Reply α)) :
    Log α :=
  vs.map (.entered op) ++ ds.map .discarded ++ reply.toList.map (.done op r)

variable {log log' : Log α} {op : Nat × Nat} {r : Request α} {vs ds : List α}
  {reply : Option (Reply α)}

@[simp] theorem entered_append : entered (log ++ log') = log.entered ++ log'.entered :=
  List.filterMap_append

@[simp] theorem discarded_append : discarded (log ++ log') = log.discarded ++ log'.discarded :=
  List.filterMap_append

@[simp] theorem received_append : received (log ++ log') = log.received ++ log'.received :=
  List.filterMap_append

theorem filterMap_none {β γ : Type} (l : List β) :
    l.filterMap (fun _ => (none : Option γ)) = [] := by simp

theorem filterMap_ofSection {β : Type} (f : Event α → Option β) :
    (ofSection op r vs ds reply).filterMap f =
      vs.filterMap (fun v => f (.entered op v)) ++ ds.filterMap (fun d => f (.discarded d)) ++
        reply.toList.filterMap (fun x => f (.done op r x)) := by
  simp only [ofSection, List.filterMap_append, List.filterMap_map]
  rfl

@[simp] theorem entered_ofSection : entered (ofSection op r vs ds reply) = vs.map (op, ·) := by
  rw [entered, filterMap_ofSection]
  simp [Event.entry?]

@[simp] theorem discarded_ofSection : discarded (ofSection op r vs ds reply) = ds := by
  rw [discarded, filterMap_ofSection]
  simp only [Event.lost?, filterMap_none, List.filterMap_some, List.nil_append, List.append_nil]

@[simp] theorem received_ofSection : received (ofSection op r vs ds reply) = handed reply := by
  rw [received, filterMap_ofSection]
  simp only [Event.taken?, filterMap_none, List.nil_append]
  rcases reply with _ | (_ | (_ | v) | _) <;> rfl

end Log

namespace System

variable {sys sys' : System α} {i : Nat} {t : Thread α} {r : Request α} {rest : List (Request α)}
  {ticket : Option Nat} {reply : Option (Reply α)}

theorem events_eq (ht : sys.threads[i]? = some t) (todo : t.todo = r :: rest)
    (stepped : Stepped i t r ticket reply sys sys') :
    sys.events sys' i = Log.ofSection (i, t.replies.length) r
      (sys'.channel.queue.drop sys.channel.queue.length) (sys.channel.drops sys'.channel r)
      reply := by
  obtain ⟨t', after, moved⟩ := stepped.moved
  have replies : sys'.replies i = t.replies ++ reply.toList := by
    simp only [System.replies, moved.self, Option.map_some, Option.getD_some]
    cases reply with
    | none => simpa using after.2.1
    | some x => exact after.2.1
  obtain ⟨todo', replies', ticket', status⟩ := t
  cases todo
  simp only [events, ht, replies, List.drop_left, Log.ofSection]

end System

/-- How the content of a channel comes from the values that entered, that were received and that
were discarded. -/
structure Channel.Counts (c : Nat) (ch : Channel α) (vs rs ds : List α) : Prop where
  capacity : ch.capacity = c
  bounded : ch.queue.length ≤ max c 1
  order : vs = rs ++ ds ++ ch.queue
  sent : ch.sent = vs.length
  taken : ch.taken = rs.length
  lost : ds ≠ [] → c = 0 ∧ ch.closed = true
  emptied : c = 0 → ch.closed = true → ch.queue = []

namespace Channel.Counts

variable {ch ch' : Channel α} {vs rs ds : List α} {ticket ticket' : Option Nat} {r : Request α}
  {reply : Option (Reply α)}

theorem start (c : Nat) : Counts c ({ capacity := c } : Channel α) [] [] [] where
  capacity := rfl
  bounded := by simp
  order := rfl
  sent := rfl
  taken := rfl
  lost := by simp
  emptied _ _ := rfl

theorem eq_nil_of_open (h : Counts c ch vs rs ds) (opened : ch.closed = false) : ds = [] := by
  cases ds with
  | nil => rfl
  | cons d ds => cases (h.lost (by simp)).2.symm.trans opened

theorem eq_nil_of_queue (h : Counts c ch vs rs ds) (queue : ch.queue ≠ []) : ds = [] := by
  cases ds with
  | nil => rfl
  | cons d ds =>
    have closed := h.lost (by simp)
    exact absurd (h.emptied closed.1 closed.2) queue

theorem step (h : Counts c ch vs rs ds) (runs : Section ch ticket r ch' ticket' reply) :
    Counts c ch' (vs ++ ch'.queue.drop ch.queue.length) (rs ++ handed reply)
      (ds ++ ch.drops ch' r) := by
  have enters : ∀ {v : α}, ch.closed = false → ch.queue.length < ch.slots →
      Counts c { ch with queue := ch.queue ++ [v], sent := ch.sent + 1 } (vs ++ [v]) rs ds := by
    intro v opened room
    refine { h with bounded := ?_, order := ?_, sent := ?_, emptied := ?_ }
    · simp only [slots, h.capacity] at room
      simp only [List.length_append, List.length_singleton]
      omega
    · simp [h.order]
    · simp [h.sent]
    · intro _ closed
      cases opened.symm.trans closed
  cases runs with
  | full _ | refused _ | wait | settled _ | lost _ _ | empty | drained _ _ | again _ =>
    simpa [drops, handed] using h
  | enter opened room _ => simpa [drops, handed] using enters opened room
  | buffer opened room _ => simpa [drops, handed] using enters opened room
  | take queue =>
    rename_i v rest
    have none := h.eq_nil_of_queue (by simp [queue])
    subst none
    have bounded := h.bounded
    have order := h.order
    rw [queue] at bounded order
    refine { h with bounded := ?_, order := ?_, sent := ?_, taken := ?_, lost := ?_, emptied := ?_ }
    · simp only [List.length_cons] at bounded
      dsimp only
      omega
    · simp [queue, order, drops, handed]
    · simp [queue, h.sent]
    · simp [h.taken, handed]
    · simp [drops]
    · intro zero closed
      simp [h.emptied zero closed] at queue
  | close opened =>
    have none := h.eq_nil_of_open opened
    subst none
    by_cases zero : ch.capacity = 0
    · refine { h with
        bounded := ?_, order := ?_, sent := ?_, taken := ?_, lost := ?_, emptied := ?_ }
      · simp [zero]
      · simp [zero, h.order, drops, handed]
      · simp [zero, h.sent]
      · simp [h.taken, handed]
      · intro _
        exact ⟨h.capacity ▸ zero, rfl⟩
      · simp [zero]
    · refine { h with
        bounded := ?_, order := ?_, sent := ?_, taken := ?_, lost := ?_, emptied := ?_ }
      · simpa [zero] using h.bounded
      · simp [zero, h.order, drops, handed]
      · simp [zero, h.sent]
      · simp [h.taken, handed]
      · simp [zero, drops]
      · intro zero'
        exact absurd (h.capacity.trans zero') zero

end Channel.Counts

theorem getElem?_append_of_some {β : Type} {es new : List β} {j : Nat} {e : β}
    (h : es[j]? = some e) : (es ++ new)[j]? = some e := by
  rw [List.getElem?_append_left (List.getElem?_eq_some_iff.mp h).1]
  exact h

/-- What the values that entered say of a thread: those of its requests that have entered have
been answered, but for one that waits with a ticket, and the ticket is the place of its value. -/
structure Thread.Fits (c : Nat) (es : List ((Nat × Nat) × α)) (i : Nat) (t : Thread α) : Prop where
  earlier : ∀ {k : Nat} {v : α}, ((i, k), v) ∈ es →
    k < t.replies.length ∨ k = t.replies.length ∧ t.ticket ≠ none
  ticket : ∀ {k : Nat}, t.ticket = some k → c = 0 ∧ ∃ v rest j, t.todo = .send v :: rest ∧
    k = j + 1 ∧ es[j]? = some ((i, t.replies.length), v)

namespace Thread.Fits

variable {es : List ((Nat × Nat) × α)} {i : Nat} {t t' : Thread α}

theorem start : ({} : Thread α).Fits c [] i where
  earlier he := nomatch he
  ticket hk := nomatch hk

theorem same (fits : t.Fits c es i) (h : t.Same t') : t'.Fits c es i where
  earlier he := by
    rw [h.replies, h.ticket]
    exact fits.earlier he
  ticket hk := by
    rw [h.replies, h.todo]
    rw [h.ticket] at hk
    exact fits.ticket hk

theorem todo_append (fits : t.Fits c es i) (rs : List (Request α)) :
    ({ t with todo := t.todo ++ rs } : Thread α).Fits c es i where
  earlier he := fits.earlier he
  ticket hk := by
    obtain ⟨zero, v, rest, j, todo, place, entry⟩ := fits.ticket hk
    exact ⟨zero, v, rest ++ rs, j, by simp [todo], place, entry⟩

theorem append (fits : t.Fits c es i) {op : Nat × Nat} (other : op.1 ≠ i) (vs : List α) :
    t.Fits c (es ++ vs.map (op, ·)) i where
  earlier he := by
    rcases List.mem_append.mp he with old | new
    · exact fits.earlier old
    · simp only [List.mem_map, Prod.mk.injEq] at new
      obtain ⟨_, _, rfl, _⟩ := new
      exact absurd rfl other
  ticket hk := by
    obtain ⟨zero, v, rest, j, todo, place, entry⟩ := fits.ticket hk
    exact ⟨zero, v, rest, j, todo, place, getElem?_append_of_some entry⟩

theorem not_mem (fits : t.Fits c es i) (free : t.ticket = none) {k : Nat} {v : α}
    (late : t.replies.length ≤ k) : ((i, k), v) ∉ es := by
  intro he
  rcases fits.earlier he with before | ⟨_, waits⟩
  · omega
  · exact waits free

theorem reply (fits : t.Fits c es i) {x : Reply α} (after : t.After none (some x) t')
    (vs : List α) : t'.Fits c (es ++ vs.map ((i, t.replies.length), ·)) i where
  earlier he := by
    simp only [after.2.1, List.length_append, List.length_singleton]
    rcases List.mem_append.mp he with old | new
    · have := fits.earlier old
      omega
    · simp only [List.mem_map, Prod.mk.injEq] at new
      obtain ⟨_, _, ⟨_, rfl⟩, _⟩ := new
      omega
  ticket hk := by
    rw [after.2.2] at hk
    cases hk

theorem enter (fits : t.Fits c es i) {v : α} {rest : List (Request α)} (zero : c = 0)
    (todo : t.todo = .send v :: rest) (free : t.ticket = none)
    (after : t.After (some (es.length + 1)) none t') :
    t'.Fits c (es ++ [((i, t.replies.length), v)]) i where
  earlier he := by
    rw [after.2.1, after.2.2]
    rcases List.mem_append.mp he with old | new
    · rcases fits.earlier old with before | ⟨_, waits⟩
      · exact .inl before
      · exact absurd free waits
    · simp only [List.mem_singleton, Prod.mk.injEq] at new
      exact .inr ⟨new.1.2, by simp⟩
  ticket hk := by
    rw [after.2.2] at hk
    cases hk
    exact ⟨zero, v, rest, es.length, after.1.trans todo, rfl, by simp [after.2.1]⟩

end Thread.Fits

namespace Section

variable {ch ch' : Channel α} {ticket ticket' : Option Nat} {r : Request α}
  {reply : Option (Reply α)}

theorem ticket_of_reply {x : Reply α} (runs : Section ch ticket r ch' ticket' (some x)) :
    ticket' = none := by
  cases runs <;> rfl

theorem closed_of_closed (runs : Section ch ticket r ch' ticket' reply)
    (closed : ch.closed = true) : ch'.closed = true := by
  cases runs <;> first | exact closed | rfl

theorem drop_of_closed (runs : Section ch ticket r ch' ticket' reply)
    (closed : ch.closed = true) : ch'.queue.drop ch.queue.length = [] := by
  cases runs with
  | full _ | refused _ | wait | settled _ | lost _ _ | empty | drained _ _ | again _ => simp
  | enter opened _ _ => cases opened.symm.trans closed
  | buffer opened _ _ => cases opened.symm.trans closed
  | take queue => simp [queue]
  | close opened => cases opened.symm.trans closed

theorem handed_of_nil (runs : Section ch ticket r ch' ticket' reply) (empty : ch.queue = []) :
    handed reply = [] := by
  cases runs with
  | take queue => cases empty.symm.trans queue
  | _ => rfl

theorem queue_of_closed (runs : Section ch ticket r ch' ticket' reply) (closed : ch.closed = true)
    (empty : ch.queue = []) : ch'.queue = [] := by
  cases runs with
  | full _ | refused _ | wait | settled _ | lost _ _ | empty | drained _ _ | again _ => exact empty
  | enter opened _ _ => cases opened.symm.trans closed
  | buffer opened _ _ => cases opened.symm.trans closed
  | take queue => cases empty.symm.trans queue
  | close opened => cases opened.symm.trans closed

end Section

namespace Log

variable {log : Log α} {op op' : Nat × Nat} {r r' : Request α} {vs ds : List α}
  {reply : Option (Reply α)}

@[simp] theorem done_mem_ofSection {x : Reply α} :
    .done op' r' x ∈ ofSection op r vs ds reply ↔ op' = op ∧ r' = r ∧ reply = some x := by
  cases reply <;> grind [ofSection]

@[simp] theorem entered_mem_ofSection {v : α} :
    .entered op' v ∈ ofSection op r vs ds reply ↔ op' = op ∧ v ∈ vs := by
  cases reply <;> grind [ofSection]

theorem index_eq_of_nodup {es : List ((Nat × Nat) × α)} (distinct : (es.map (·.1)).Nodup)
    {j j' : Nat} {v w : α} (h : es[j]? = some (op, v)) (h' : es[j']? = some (op, w)) :
    j = j' := by
  have hj : (es.map (·.1))[j]? = some op := by simp [h]
  have hj' : (es.map (·.1))[j']? = some op := by simp [h']
  obtain ⟨small, eq⟩ := List.getElem?_eq_some_iff.mp hj
  obtain ⟨small', eq'⟩ := List.getElem?_eq_some_iff.mp hj'
  exact (List.getElem_inj distinct).mp (eq.trans eq'.symm)

theorem nodup_append_of_not_mem {es : List ((Nat × Nat) × α)} (distinct : (es.map (·.1)).Nodup)
    (absent : ∀ w, (op, w) ∉ es) (v : α) : ((es ++ [(op, v)]).map (·.1)).Nodup := by
  rw [List.map_append, List.map_singleton, List.nodup_append]
  refine ⟨distinct, by simp, ?_⟩
  intro op₁ h₁ op₂ h₂
  obtain ⟨⟨_, w⟩, hw, rfl⟩ := List.mem_map.mp h₁
  cases List.mem_singleton.mp h₂
  rintro rfl
  exact absent w hw

theorem mem_entered {v : α} : (op, v) ∈ log.entered ↔ .entered op v ∈ log := by
  simp only [entered, List.mem_filterMap]
  constructor
  · rintro ⟨e, he, eq⟩
    cases e <;> cases eq
    exact he
  · intro he
    exact ⟨_, he, rfl⟩

structure Answers (c : Nat) (ch : Channel α) (log : Log α) : Prop where
  accepted : ∀ {op : Nat × Nat} {v : α}, .done op (.send v) (.sent (.ok ())) ∈ log →
    ∃ j, log.entered[j]? = some (op, v) ∧ (c = 0 → j < log.received.length)
  rejected : ∀ {op : Nat × Nat} {v : α} {e : ChannelError},
    .done op (.send v) (.sent (.error e)) ∈ log → ch.closed = true ∧
      ∀ {j : Nat} {w : α}, log.entered[j]? = some (op, w) → c = 0 ∧ log.received.length ≤ j
  exhausted : ∀ {op : Nat × Nat} {r : Request α}, .done op r (.received none) ∈ log →
    ch.closed = true ∧ ch.queue = []

theorem Answers.start (c : Nat) (ch : Channel α) : Answers c ch [] where
  accepted h := nomatch h
  rejected h := nomatch h
  exhausted h := nomatch h

variable {ch ch' : Channel α} {i : Nat} {t : Thread α} {ticket' : Option Nat}
  {rest : List (Request α)}

section

variable (counts : ch.Counts c (log.entered.map (·.2)) log.received log.discarded)
  (fits : t.Fits c log.entered i)

include counts fits

theorem accepted_of_section {v : α} (todo : t.todo = .send v :: rest)
    (runs : Section ch t.ticket (.send v) ch' ticket' (some (.sent (.ok ())))) :
    ∃ j : Nat, (log.entered ++ (ch'.queue.drop ch.queue.length).map
      ((i, t.replies.length), ·))[j]? = some ((i, t.replies.length), v) ∧
        (c = 0 → j < log.received.length) := by
  have taken := counts.taken
  generalize held : t.ticket = ticket at runs
  cases runs with
  | buffer opened room enough =>
    refine ⟨log.entered.length, by simp, fun zero => ?_⟩
    have sent := counts.sent
    have order := congrArg List.length counts.order
    simp only [List.length_append, List.length_map] at order sent
    rw [counts.capacity] at enough
    omega
  | settled enough =>
    obtain ⟨zero, w, rest', j, todo', place, entry⟩ := fits.ticket held
    cases todo.symm.trans todo'
    refine ⟨j, getElem?_append_of_some entry, fun _ => ?_⟩
    rw [counts.capacity] at enough
    omega

theorem rejected_of_section (distinct : (log.entered.map (·.1)).Nodup) {v : α} {e : ChannelError}
    (runs : Section ch t.ticket (.send v) ch' ticket' (some (.sent (.error e)))) :
    ch' = ch ∧ ch.closed = true ∧ ∀ {j : Nat} {w : α},
      log.entered[j]? = some ((i, t.replies.length), w) → c = 0 ∧ log.received.length ≤ j := by
  generalize held : t.ticket = ticket at runs
  cases runs with
  | refused closed =>
    refine ⟨rfl, closed, fun {j w} entry => ?_⟩
    exact absurd (List.mem_of_getElem? entry) (fits.not_mem held (Nat.le_refl _))
  | lost closed early =>
    refine ⟨rfl, closed, fun {j w} entry => ?_⟩
    obtain ⟨zero, _, _, j', _, place, entry'⟩ := fits.ticket held
    have same : j = j' := index_eq_of_nodup distinct entry entry'
    have taken := counts.taken
    exact ⟨zero, by omega⟩

end

theorem Answers.step (answers : Answers c ch log)
    (counts : ch.Counts c (log.entered.map (·.2)) log.received log.discarded)
    (distinct : (log.entered.map (·.1)).Nodup) (fits : t.Fits c log.entered i)
    (todo : t.todo = r :: rest) (runs : Section ch t.ticket r ch' ticket' reply) :
    Answers c ch' (log ++ ofSection (i, t.replies.length) r (ch'.queue.drop ch.queue.length)
      (ch.drops ch' r) reply) where
  accepted {op v} h := by
    rw [List.mem_append] at h
    rw [entered_append, received_append, entered_ofSection, received_ofSection,
      List.length_append]
    rcases h with old | new
    · obtain ⟨j, entry, taken⟩ := answers.accepted old
      exact ⟨j, getElem?_append_of_some entry, fun zero => Nat.lt_add_right _ (taken zero)⟩
    · obtain ⟨rfl, rfl, rfl⟩ := done_mem_ofSection.mp new
      exact accepted_of_section counts fits todo runs
  rejected {op v e} h := by
    rw [List.mem_append] at h
    rw [entered_append, received_append, entered_ofSection, received_ofSection,
      List.length_append]
    rcases h with old | new
    · obtain ⟨closed, late⟩ := answers.rejected old
      refine ⟨runs.closed_of_closed closed, fun {j w} entry => ?_⟩
      rw [runs.drop_of_closed closed, List.map_nil, List.append_nil] at entry
      obtain ⟨zero, bound⟩ := late entry
      rw [runs.handed_of_nil (counts.emptied zero closed)]
      exact ⟨zero, bound⟩
    · obtain ⟨rfl, rfl, rfl⟩ := done_mem_ofSection.mp new
      obtain ⟨rfl, closed, late⟩ := rejected_of_section counts fits distinct runs
      refine ⟨closed, fun {j w} entry => ?_⟩
      rw [List.drop_length, List.map_nil, List.append_nil] at entry
      exact late entry
  exhausted {op r'} h := by
    rcases List.mem_append.mp h with old | new
    · obtain ⟨closed, empty⟩ := answers.exhausted old
      exact ⟨runs.closed_of_closed closed, runs.queue_of_closed closed empty⟩
    · obtain ⟨rfl, rfl, rfl⟩ := done_mem_ofSection.mp new
      generalize t.ticket = ticket at runs
      cases runs with
      | drained empty closed => exact ⟨closed, empty⟩

theorem split_append {l new l₁ l₂ : Log α} {e : Event α} (h : l ++ new = l₁ ++ e :: l₂) :
    (∃ m, l = l₁ ++ e :: m ∧ l₂ = m ++ new) ∨ ∃ m, new = m ++ e :: l₂ := by
  rcases List.append_eq_append_iff.mp h with ⟨m, _, eq⟩ | ⟨m, rfl, eq⟩
  · exact .inr ⟨m, eq⟩
  · cases m with
    | nil => exact .inr ⟨[], eq.symm⟩
    | cons x m =>
      cases eq
      exact .inl ⟨m, rfl, rfl⟩

theorem eq_nil_of_close {l₁ l₂ : Log α} {e : Event α} (close : e.isClose = true)
    (h : ofSection op r vs ds reply = l₁ ++ e :: l₂) : l₂ = [] := by
  rcases split_append h with ⟨m, eq, _⟩ | ⟨m, eq⟩
  · have : e ∈ vs.map (.entered op) ++ ds.map .discarded := by simp [eq]
    simp only [List.mem_append, List.mem_map] at this
    rcases this with ⟨_, _, rfl⟩ | ⟨_, _, rfl⟩ <;> cases close
  · have short := congrArg List.length eq
    cases reply with
    | none => simp at short
    | some x =>
      simp only [Option.toList_some, List.map_cons, List.map_nil, List.length_cons, List.length_nil,
        List.length_append] at short
      exact List.eq_nil_of_length_eq_zero (by omega)

structure Closes (ch : Channel α) (log : Log α) : Prop where
  count : log.countP Event.isClose = ch.closed.toNat
  after : ∀ {l₁ l₂ : Log α} {e : Event α}, log = l₁ ++ e :: l₂ → e.isClose = true →
    (∀ op v, .entered op v ∉ l₂) ∧ ∀ op v x, .done op (.send v) x ∈ l₂ →
      (∀ w, .entered op w ∉ l₁) → x = .sent (.error .sendOnClosed)

theorem Closes.start {ch : Channel α} (opened : ch.closed = false) : Closes ch [] where
  count := by simp [opened]
  after h := by simp at h

theorem Closes.closed_of_mem {ch : Channel α} (closes : Closes ch log) {e : Event α} (he : e ∈ log)
    (close : e.isClose = true) : ch.closed = true := by
  have positive : 0 < log.countP Event.isClose := List.countP_pos_iff.mpr ⟨e, he, close⟩
  rw [closes.count] at positive
  cases h : ch.closed with
  | true => rfl
  | false => simp [h] at positive

theorem countP_ofSection : (ofSection op r vs ds reply).countP Event.isClose =
    (reply.toList.map (.done op r)).countP Event.isClose := by
  simp [ofSection, List.countP_append, Event.isClose, List.countP_map, Function.comp_def]

theorem Closes.count_step (closes : Closes ch log)
    (runs : Section ch t.ticket r ch' ticket' reply) :
    (log ++ ofSection op r vs ds reply).countP Event.isClose = ch'.closed.toNat := by
  rw [List.countP_append, countP_ofSection, closes.count]
  generalize t.ticket = ticket at runs
  cases runs with
  | close opened => simp [opened, Event.isClose]
  | _ => simp [Event.isClose]

theorem Closes.step (closes : Closes ch log) (fits : t.Fits c log.entered i)
    (runs : Section ch t.ticket r ch' ticket' reply) :
    Closes ch' (log ++ ofSection (i, t.replies.length) r (ch'.queue.drop ch.queue.length)
      (ch.drops ch' r) reply) where
  count := closes.count_step runs
  after {l₁ l₂ e} h close := by
    rcases split_append h with ⟨m, rfl, rfl⟩ | ⟨m, new⟩
    · have closed := closes.closed_of_mem (e := e) (by simp) close
      obtain ⟨quiet, refused⟩ := closes.after rfl close
      constructor
      · intro op v
        rw [List.mem_append, entered_mem_ofSection, runs.drop_of_closed closed]
        simp [quiet op v]
      · intro op v x hx fresh
        rcases List.mem_append.mp hx with old | new
        · exact refused op v x old fresh
        · obtain ⟨rfl, rfl, rfl⟩ := done_mem_ofSection.mp new
          generalize held : t.ticket = ticket at runs
          cases runs with
          | refused _ => rfl
          | lost _ _ => rfl
          | buffer opened _ _ => cases opened.symm.trans closed
          | settled _ =>
            -- the value of a send that holds a ticket has entered, so before the close
            obtain ⟨_, w, _, j, _, _, entry⟩ := fits.ticket held
            have before := mem_entered.mp (List.mem_of_getElem? entry)
            simp only [List.mem_append, List.mem_cons] at before
            rcases before with first | rfl | last
            · exact absurd first (fresh w)
            · cases close
            · exact absurd last (quiet _ w)
    · cases eq_nil_of_close close new
      simp

end Log

end HostBridge
