import HostBridge.Proofs.Channel.History
import Mathlib.Data.List.Basic

namespace HostBridge

variable {α : Type}

def Request.condition? : Request α → Option Condition
  | .send _ => some .notFull
  | .receive => some .notEmpty
  | .close => none

/-- The channel is open and has nothing for a thread that waits: no value, no slot, and no receiver
that has taken the value of its ticket. -/
def Channel.Blocks (ch : Channel α) (t : Thread α) : Condition → Prop
  | .notEmpty => ch.closed = false ∧ ch.queue = []
  | .notFull => ch.closed = false ∧ match t.ticket with
    | none => ch.slots ≤ ch.queue.length
    | some k => ch.taken < k

theorem Channel.blocked_of_settle {ch : Channel α} {k : Nat} (h : ch.settle k = none) :
    ch.closed = false ∧ ch.taken < k := by
  simp only [settle] at h
  split at h
  · cases h
  · rename_i early
    split at h
    · cases h
    · rename_i opened
      exact ⟨by simpa using opened, by simp at early; omega⟩

theorem Channel.blocked_of_enqueue {ch ch' : Channel α} {v : α} (h : ch.enqueue v = (none, ch')) :
    ch.closed = false ∧ ch.slots ≤ ch.queue.length := by
  simp only [enqueue] at h
  split at h
  · cases h
  · rename_i opened
    split at h
    · cases h
    · rename_i full
      exact ⟨by simpa using opened, Nat.le_of_not_lt full⟩

namespace Thread

def WaitsOn (t : Thread α) (on : Condition) : Prop :=
  t.status = .parked on ∨ t.status = .signalled on

theorem signal_of_parked {t : Thread α} {on : Condition} (h : t.status = .parked on) :
    t.signal on = { t with status := .signalled on } := by
  simp [signal, isParked, h]

theorem signal_of_not_parked {t : Thread α} {on : Condition} (h : t.status ≠ .parked on) :
    t.signal on = t := by
  simp [signal, isParked, h]

theorem waitsOn_of_signal {t : Thread α} {on on' : Condition} (h : (t.signal on).WaitsOn on') :
    t.WaitsOn on' := by
  by_cases parked : t.status = .parked on
  · simp only [WaitsOn, signal_of_parked parked, reduceCtorEq, Status.signalled.injEq,
      false_or] at h
    exact .inl (h ▸ parked)
  · rwa [signal_of_not_parked parked] at h

theorem eq_of_parked_signal {t : Thread α} {on on' : Condition}
    (h : (t.signal on).status = .parked on') : t.signal on = t ∧ on' ≠ on := by
  by_cases parked : t.status = .parked on
  · simp [signal_of_parked parked] at h
  · rw [signal_of_not_parked parked] at h ⊢
    exact ⟨rfl, fun same => parked (same ▸ h)⟩

end Thread

namespace System

variable {sys sys' : System α} {i j pick : Nat} {t t' u : Thread α} {on : Condition} {s : Status}

def tally (sys : System α) (s : Status) : Nat := sys.threads.countP fun t => t.status = s

theorem tally_update (ht : sys.threads[i]? = some t) (t' : Thread α) (s : Status) :
    (sys.update i t').tally s + (if t.status = s then 1 else 0) =
      sys.tally s + (if t'.status = s then 1 else 0) := by
  obtain ⟨hi, rfl⟩ := List.getElem?_eq_some_iff.mp ht
  simp only [tally, update]
  rw [List.countP_set hi]
  have counted : (if sys.threads[i].status = s then 1 else 0) ≤
      sys.threads.countP fun t => t.status = s := by
    split
    · rename_i here
      exact List.countP_pos_iff.mpr ⟨_, List.getElem_mem hi, by simpa using here⟩
    · exact Nat.zero_le _
  simp only [decide_eq_true_eq]
  omega

theorem tally_notifyAll (apart : s ≠ .parked on ∧ s ≠ .signalled on) :
    (sys.notifyAll on).tally s = sys.tally s := by
  simp only [tally, notifyAll, List.countP_map]
  congr 1
  funext t
  by_cases parked : t.status = .parked on
  · simp [Thread.signal_of_parked parked, parked, apart.1.symm, apart.2.symm]
  · simp [Thread.signal_of_not_parked parked]

theorem exists_of_tally (h : 0 < sys.tally s) :
    ∃ (i : Nat) (t : Thread α), sys.threads[i]? = some t ∧ t.status = s := by
  obtain ⟨t, mem, status⟩ := List.countP_pos_iff.mp h
  obtain ⟨i, ht⟩ := List.getElem?_of_mem mem
  exact ⟨i, t, ht, by simpa using status⟩

theorem getElem?_update (h : (sys.update i t').threads[j]? = some u) :
    j = i ∧ u = t' ∨ j ≠ i ∧ sys.threads[j]? = some u := by
  simp only [update] at h
  by_cases same : j = i
  · subst same
    obtain ⟨hi, _⟩ := List.getElem?_eq_some_iff.mp h
    rw [List.length_set] at hi
    rw [List.getElem?_set_self hi] at h
    exact .inl ⟨rfl, (Option.some.inj h).symm⟩
  · rw [List.getElem?_set_ne (Ne.symm same)] at h
    exact .inr ⟨same, h⟩

def Rouses (on : Condition) (sys sys' : System α) : Prop :=
  ∀ (j : Nat) (w : Thread α), sys'.threads[j]? = some w →
    ∃ u, sys.threads[j]? = some u ∧ (w = u ∨ w = u.signal on)

theorem rouses_notifyAll (sys : System α) (on : Condition) : sys.Rouses on (sys.notifyAll on) := by
  intro j w hw
  simp only [notifyAll, List.getElem?_map, Option.map_eq_some_iff] at hw
  obtain ⟨u, hu, rfl⟩ := hw
  exact ⟨u, hu, .inr rfl⟩

theorem not_parked_of_notifyAll (h : (sys.notifyAll on).threads[j]? = some u) :
    u.status ≠ .parked on := by
  simp only [notifyAll, List.getElem?_map, Option.map_eq_some_iff] at h
  obtain ⟨w, _, rfl⟩ := h
  intro parked
  exact (Thread.eq_of_parked_signal parked).2 rfl

theorem modify_signal (ht : sys.threads[i]? = some t) (on : Condition) :
    ({ sys with threads := sys.threads.modify i (·.signal on) } : System α) =
      sys.update i (t.signal on) := by
  obtain ⟨hi, rfl⟩ := List.getElem?_eq_some_iff.mp ht
  rw [update, List.modify_eq_set_get _ hi]
  rfl

theorem notifyOne_cases (sys : System α) (on : Condition) (pick : Nat) :
    (∃ (j : Nat) (u : Thread α), sys.threads[j]? = some u ∧ u.status = .parked on ∧
      sys.notifyOne on pick = sys.update j (u.signal on)) ∨
    (∀ {j : Nat} {u : Thread α}, sys.threads[j]? = some u → u.status ≠ .parked on) ∧
      sys.notifyOne on pick = sys := by
  unfold notifyOne
  dsimp only
  split
  · rename_i j chosen
    have mem := List.mem_of_getElem? chosen
    rw [List.mem_filter, List.mem_range] at mem
    have hu := List.getElem?_eq_getElem mem.1
    refine .inl ⟨j, _, hu, ?_, modify_signal hu on⟩
    simpa [hu, Thread.isParked] using mem.2
  · rename_i none
    refine .inr ⟨fun {j u} hu parked => ?_, rfl⟩
    obtain ⟨hj, _⟩ := List.getElem?_eq_some_iff.mp hu
    have waits : j ∈ (List.range sys.threads.length).filter fun i =>
        (sys.threads[i]?.map (·.isParked on)).getD false := by
      rw [List.mem_filter, List.mem_range]
      exact ⟨hj, by simp [hu, Thread.isParked, parked]⟩
    have some := Nat.mod_lt pick (List.length_pos_of_mem waits)
    rw [List.getElem?_eq_none_iff] at none
    omega

theorem rouses_update (hu : sys.threads[j]? = some u) (on : Condition) :
    sys.Rouses on (sys.update j (u.signal on)) := by
  intro k w hw
  obtain ⟨rfl, rfl⟩ | ⟨_, hw⟩ := getElem?_update hw
  · exact ⟨u, hu, .inr rfl⟩
  · exact ⟨w, hw, .inl rfl⟩

theorem rouses_notifyOne (sys : System α) (on : Condition) (pick : Nat) :
    sys.Rouses on (sys.notifyOne on pick) := by
  obtain ⟨j, u, hu, _, eq⟩ | ⟨_, eq⟩ := notifyOne_cases sys on pick
  · rw [eq]
    exact rouses_update hu on
  · rw [eq]
    exact fun _ w hw => ⟨w, hw, .inl rfl⟩

theorem Rouses.parked (rouses : sys.Rouses on sys') (hu : sys'.threads[j]? = some u)
    {on' : Condition} (parked : u.status = .parked on') : sys.threads[j]? = some u := by
  obtain ⟨w, hw, rfl | rfl⟩ := rouses j u hu
  · exact hw
  · rwa [(Thread.eq_of_parked_signal parked).1]

theorem getElem?_notifyOne (ht : sys.threads[i]? = some t) (awake : t.status ≠ .parked on)
    (pick : Nat) : (sys.notifyOne on pick).threads[i]? = some t := by
  obtain ⟨j, u, hu, parked, eq⟩ | ⟨_, eq⟩ := notifyOne_cases sys on pick
  · rw [eq]
    have other : j ≠ i := by
      rintro rfl
      cases hu.symm.trans ht
      exact awake parked
    simp only [update]
    rwa [List.getElem?_set_ne other]
  · rwa [eq]

theorem getElem?_notifyAll (ht : sys.threads[i]? = some t) (awake : t.status ≠ .parked on) :
    (sys.notifyAll on).threads[i]? = some t := by
  simp only [notifyAll, List.getElem?_map, ht, Option.map_some, Thread.signal_of_not_parked awake]

theorem tally_notifyOne (hu : sys.threads[j]? = some u) (parked : u.status = .parked on)
    (pick : Nat) : (sys.notifyOne on pick).tally (.signalled on) = sys.tally (.signalled on) + 1 ∧
      (sys.notifyOne on pick).tally (.parked on) + 1 = sys.tally (.parked on) := by
  obtain ⟨k, w, hw, waiting, eq⟩ | ⟨nobody, _⟩ := notifyOne_cases sys on pick
  · have gained := tally_update hw (w.signal on) (.signalled on)
    have lost := tally_update hw (w.signal on) (.parked on)
    rw [← eq, Thread.signal_of_parked waiting, waiting] at gained lost
    simp only [reduceCtorEq, if_false, if_true, Nat.add_zero] at gained lost
    exact ⟨gained, lost⟩
  · exact absurd parked (nobody hu)

theorem tally_take (ch : Channel α) (v : α) (ht : sys.threads[i]? = some t)
    (awake : ∀ on, t.status ≠ .parked on) (apart : s ≠ .parked .notFull ∧ s ≠ .signalled .notFull) :
    ((({ sys with channel := ch } : System α).notifyAll .notFull).update i
      (t.finish (.received (some v)))).tally s + (if t.status = s then 1 else 0) =
        sys.tally s + (if .ready = s then 1 else 0) := by
  have ht' : ({ sys with channel := ch } : System α).threads[i]? = some t := ht
  have here := getElem?_notifyAll ht' (awake .notFull)
  have counted := tally_update here (t.finish (.received (some v))) s
  rw [tally_notifyAll apart] at counted
  exact counted

inductive Advance (sys : System α) (i : Nat) (t : Thread α) : Request α → System α → Prop
  | park {r : Request α} {on : Condition} : r.condition? = some on → sys.channel.Blocks t on →
    Advance sys i t r (sys.update i (t.park on))
  | answer {r : Request α} {x : Reply α} : (r = .receive → sys.channel.queue = []) →
    Advance sys i t r (sys.update i (t.finish x))
  | enter {v : α} {ch : Channel α} {t' : Thread α} (pick : Nat) : sys.channel.closed = false →
    sys.channel.queue.length < sys.channel.slots →
    ch = { sys.channel with queue := sys.channel.queue ++ [v], sent := sys.channel.sent + 1 } →
    t' = t.finish (.sent (.ok ())) ∨ ch.taken < ch.sent ∧
      t' = { t.park .notFull with ticket := some ch.sent } →
    Advance sys i t (.send v)
      ((({ sys with channel := ch } : System α).notifyOne .notEmpty pick).update i t')
  | take {v : α} {rest : List α} {ch : Channel α} : sys.channel.queue = v :: rest →
    ch = { sys.channel with queue := rest, taken := sys.channel.taken + 1 } →
    Advance sys i t .receive
      ((({ sys with channel := ch } : System α).notifyAll .notFull).update i
        (t.finish (.received (some v))))
  | close {ch : Channel α} : Advance sys i t .close
      (((({ sys with channel := ch } : System α).notifyAll .notFull).notifyAll .notEmpty).update i
        (t.finish (.closed (.ok ()))))

theorem advance_send (sys : System α) (i pick : Nat) (t : Thread α) (v : α) :
    Advance sys i t (.send v) (sys.attempt i pick t (.send v)) := by
  simp only [attempt]
  split
  · rename_i k hk
    simp only [settle]
    split
    · exact .answer (by simp)
    · rename_i waits
      have same : ({ t.park .notFull with ticket := some k } : Thread α) = t.park .notFull := by
        rw [← hk]
        rfl
      rw [same]
      refine .park rfl ?_
      simpa [Channel.Blocks, hk] using Channel.blocked_of_settle waits
  · rename_i hk
    split
    · rename_i eq
      refine .park rfl ?_
      simpa [Channel.Blocks, hk] using Channel.blocked_of_enqueue eq
    · exact .answer (by simp)
    · rename_i k ch eq
      obtain ⟨opened, room, rfl, rfl⟩ := Channel.enqueue_eq_ok eq
      simp only [settle, channel_notifyOne]
      split
      · rename_i x settled
        obtain ⟨rfl, _⟩ | ⟨_, closed, _⟩ := Channel.settle_eq_some settled
        · exact .enter pick opened room rfl (.inl rfl)
        · cases opened.symm.trans closed
      · rename_i waits
        exact .enter pick opened room rfl (.inr ⟨(Channel.blocked_of_settle waits).2, rfl⟩)

theorem advance_receive (sys : System α) (i pick : Nat) (t : Thread α) :
    Advance sys i t .receive (sys.attempt i pick t .receive) := by
  simp only [attempt]
  cases queue : sys.channel.queue with
  | nil =>
    cases closed : sys.channel.closed with
    | true =>
      simp only [Channel.dequeue, queue, closed, if_true]
      exact .answer fun _ => queue
    | false =>
      simp only [Channel.dequeue, queue, closed]
      exact .park rfl ⟨closed, queue⟩
  | cons v rest =>
    simp only [Channel.dequeue, queue]
    exact .take queue rfl

theorem advance_close (sys : System α) (i pick : Nat) (t : Thread α) :
    Advance sys i t .close (sys.attempt i pick t .close) := by
  simp only [attempt]
  split
  · exact .answer (by simp)
  · exact .close

theorem advance_of_step (h : sys.step i pick = some sys') :
    ∃ t r rest, sys.threads[i]? = some t ∧ (∀ on, t.status ≠ .parked on) ∧ t.todo = r :: rest ∧
      Advance sys i t r sys' := by
  simp only [step] at h
  split at h
  · cases h
  · rename_i t ht
    split at h
    · cases h
    · cases h
    · rename_i r rest todo awake
      cases h
      refine ⟨t, r, rest, ht, awake, todo, ?_⟩
      cases r with
      | send v => exact advance_send sys i pick t v
      | receive => exact advance_receive sys i pick t
      | close => exact advance_close sys i pick t

end System

end HostBridge
