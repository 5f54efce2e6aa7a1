import HostBridge.Proofs.Conversion.Refusal
import Mathlib.Data.List.Forall2

namespace HostBridge

inductive Script.Become : List Ty → List Script → Store → List Value → Store → Prop
  | nil {st : Store} : Become [] [] st [] st
  | cons {t : Ty} {ts : List Ty} {x : Script} {xs : List Script} {v : Value} {vs : List Value}
      {st st₁ st' : Store} : x.toHost t st = .ok v st₁ → Become ts xs st₁ vs st' →
    Become (t :: ts) (x :: xs) st (v :: vs) st'

namespace Script

variable {st st' : Store} {ts : List Ty} {xs : List Script} {vs : List Value}

theorem toHosts_take (ts : List Ty) (xs : List Script) :
    toHosts ts (xs.take ts.length) = toHosts ts xs := by
  induction ts generalizing xs with
  | nil => rfl
  | cons t ts ih =>
    cases xs with
    | nil => rfl
    | cons x xs => simp only [List.length_cons, List.take_succ_cons, toHosts, ih]

theorem allToHost_eq_toHosts (t : Ty) (xs : List Script) :
    allToHost t xs = toHosts (List.replicate xs.length t) xs := by
  induction xs with
  | nil => rfl
  | cons x xs ih => simp only [allToHost, List.length_cons, List.replicate_succ, toHosts, ih]

namespace Become

theorem lengths (h : Become ts xs st vs st') :
    ts.length = xs.length ∧ vs.length = xs.length := by
  induction h with
  | nil => exact ⟨rfl, rfl⟩
  | cons _ _ ih => exact ⟨congrArg (· + 1) ih.1, congrArg (· + 1) ih.2⟩

end Become

theorem toHosts_eq_ok (lengths : ts.length = xs.length) :
    toHosts ts xs st = .ok vs st' ↔ Become ts xs st vs st' := by
  constructor
  · intro h
    induction ts generalizing xs st vs with
    | nil =>
      cases xs with
      | nil =>
        cases h
        exact .nil
      | cons _ _ => cases lengths
    | cons t ts ih =>
      cases xs with
      | nil => cases lengths
      | cons x xs =>
        obtain ⟨v, st₁, hv, h⟩ := ok_of_bind h
        obtain ⟨vs', st₂, hvs, h⟩ := ok_of_bind h
        cases h
        exact .cons hv (ih (Nat.succ.inj lengths) hvs)
  · intro h
    clear lengths
    induction h with
    | nil => rfl
    | cons hv _ ih =>
      simp only [toHosts]
      rw [bind_ok hv, bind_ok ih]
      rfl

end Script

namespace Slice

theorem checkAll_eq_ok {elem : Ty} {vs : List Value} {st st' : Store} :
    checkAll elem vs st = .ok () st' ↔ (∀ v ∈ vs, elem.accepts v = true) ∧ st' = st := by
  induction vs with
  | nil =>
    simp only [checkAll, List.not_mem_nil, false_implies, implies_true, true_and]
    exact ⟨fun h => by cases h; rfl, fun h => h ▸ rfl⟩
  | cons v vs ih =>
    rw [List.forall_mem_cons, and_assoc, ← ih]
    simp only [checkAll, HostM.check]
    split
    · rename_i accepted
      exact ⟨fun h => ⟨accepted, h⟩, fun h => h.2⟩
    · rename_i refused
      exact ⟨fun h => (by cases h), fun h => absurd h.1 refused⟩

theorem ofList_eq_ok {elem : Ty} {vs : List Value} {w : Slice} {st st' : Store} :
    ofList elem vs st = .ok w st' ↔ (∀ v ∈ vs, elem.accepts v = true) ∧
      w = ⟨elem, st.backings.size, 0, vs.length, vs.length⟩ ∧
      st' = { st with backings := st.backings.push vs.toArray } := by
  constructor
  · intro h
    simp only [ofList] at h
    obtain ⟨_, st₁, checked, made⟩ := ok_of_bind h
    obtain ⟨accepted, rfl⟩ := checkAll_eq_ok.mp checked
    cases made
    exact ⟨accepted, rfl, rfl⟩
  · rintro ⟨accepted, rfl, rfl⟩
    simp only [ofList]
    rw [bind_ok (checkAll_eq_ok.mpr ⟨accepted, rfl⟩)]
    rfl

end Slice

theorem Ty.checkArgs_eq_ok {ts : List Ty} {vs : List Value} (lengths : ts.length = vs.length) :
    checkArgs ts vs = .ok () ↔ List.Forall₂ (fun t v => t.accepts v = true) ts vs := by
  induction ts generalizing vs with
  | nil =>
    cases vs with
    | nil => simp [checkArgs]
    | cons _ _ => cases lengths
  | cons t ts ih =>
    cases vs with
    | nil => cases lengths
    | cons v vs =>
      rw [List.forall₂_cons, ← ih (Nat.succ.inj lengths)]
      simp only [checkArgs]
      split
      · rename_i accepted
        exact ⟨fun h => ⟨accepted, h⟩, fun h => h.2⟩
      · rename_i refused
        exact ⟨fun h => (by cases h), fun h => absurd h.1 refused⟩

theorem Ty.refused_of_checkArgs {ts : List Ty} {vs : List Value} {e : HostError}
    (h : checkArgs ts vs = .error e) : ∃ (i : Nat) (t : Ty) (v : Value), ts[i]? = some t ∧
      vs[i]? = some v ∧ t.accepts v = false ∧ e = .typeMismatch t.text v.typeText := by
  induction ts generalizing vs with
  | nil => cases h
  | cons t ts ih =>
    cases vs with
    | nil => cases h
    | cons v vs =>
      simp only [checkArgs] at h
      split at h
      · obtain ⟨i, u, w, hu, hw, refused⟩ := ih h
        exact ⟨i + 1, u, w, hu, hw, refused⟩
      · rename_i refused
        cases h
        exact ⟨0, t, v, rfl, rfl, Bool.eq_false_iff.mpr refused, rfl⟩

theorem Signature.text_ne (sig : Signature) : sig.text ≠ "host function" := by
  obtain ⟨params, results, variadic⟩ := sig
  intro h
  have first := congrArg (fun text => text.toList.head?) h
  simp [text] at first

namespace Function

variable {f : Function} {receiver : Option Value} {args : List Script} {s : Nat}
  {st st' : Store} {vs : List Value}

structure Formed (f : Function) (receiver : Option Value) : Prop where
  collects : f.sig.variadic = true → ∃ front elem, f.sig.params = front ++ [.slice elem]
  bound : receiver.isSome = true → 0 < f.sig.required

def needed (f : Function) (receiver : Option Value) : Nat :=
  f.sig.required - receiver.toList.length

/-- What the body is given: the receiver, the fixed arguments, and a new slice of all others where
the function collects them. -/
inductive Passes (f : Function) (receiver : Option Value) (args : List Script) (st : Store) :
    List Value → Store → Prop
  | fixed {vs : List Value} {st' : Store} : f.sig.variadic = false →
    Script.Become (f.sig.params.drop receiver.toList.length) (args.take (f.needed receiver)) st
      vs st' → Passes f receiver args st (receiver.toList ++ vs) st'
  | collected {front : List Ty} {elem : Ty} {vs ws : List Value} {backing : Nat}
      {st₁ st₂ st' : Store} : f.sig.variadic = true → f.sig.params = front ++ [.slice elem] →
    Script.Become (front.drop receiver.toList.length) (args.take (f.needed receiver)) st vs st₁ →
    Script.Become (List.replicate (args.length - f.needed receiver) elem)
      (args.drop (f.needed receiver)) st₁ ws st₂ →
    (∀ w ∈ ws, elem.accepts w = true) → Store.newBacking ws.toArray st₂ = (backing, st') →
      Passes f receiver args st
        (receiver.toList ++ vs ++ [.slice ⟨elem, backing, 0, ws.length, ws.length⟩]) st'

def marshal (f : Function) (receiver : Option Value) (args : List Script) :
    BridgeM (List Value) := do
  let bound := receiver.toList
  let fixed ← Script.toHosts ((f.sig.params.take f.sig.required).drop bound.length) args
  let rest ←
    if f.sig.variadic then do
      let items ← Script.allToHost f.sig.rest (args.drop (f.needed receiver))
      let collected ← Slice.ofList f.sig.rest items
      pure [Value.slice collected]
    else pure []
  return bound ++ fixed ++ rest

def deliver (host : Host) (s : Nat) (f : Function) (vs : List Value) : BridgeM (List Script) := do
  let results ← BridgeM.rescue (host f.body vs)
  Value.toScripts s results

theorem invoke_of_lt (few : args.length < f.needed receiver) (host : Host) (st : Store) :
    f.invoke host s receiver args st =
      .error (.error (.arity f.sig.text (f.needed receiver) args.length)) st := by
  simp only [needed] at few
  simp only [invoke]
  rw [if_pos few]
  rfl

theorem invoke_eq (enough : f.needed receiver ≤ args.length) (host : Host) :
    f.invoke host s receiver args = (do
      let vs ← f.marshal receiver args
      let results ← BridgeM.rescue (f.call host vs)
      Value.toScripts s results) := by
  simp only [invoke, marshal, needed] at enough ⊢
  rw [if_neg (Nat.not_lt_of_le enough)]
  simp only [bind_assoc, pure_bind]
  congr 1
  funext fixed
  split <;> simp only [bind_assoc, pure_bind]

theorem picky_marshal (f : Function) (receiver : Option Value) (args : List Script) :
    Picky .typeMismatch (f.marshal receiver args) := by
  simp only [marshal, Script.allToHost_eq_toHosts]
  apply (Script.picky_toHosts _ _).bind
  intro fixed
  split
  · apply (Script.picky_toHosts _ _).bind
    intro items
    exact (Slice.picky_ofList _ _).host.bind fun _ => Picky.pure _
  · exact Picky.pure _

theorem marshal_fixed (plain : f.sig.variadic = false) :
    f.marshal receiver args = (do
      let vs ← Script.toHosts (f.sig.params.drop receiver.toList.length)
        (args.take (f.needed receiver))
      return receiver.toList ++ vs) := by
  have hints : (f.sig.params.drop receiver.toList.length).length = f.needed receiver := by
    simp only [needed, Signature.required, plain, List.length_drop]
    rfl
  have all : f.sig.params.take f.sig.required = f.sig.params := by
    simp [Signature.required, plain]
  rw [← hints, Script.toHosts_take]
  simp only [marshal, all, plain, List.append_nil, pure_bind]
  rfl

theorem marshal_collected (variadic : f.sig.variadic = true) {front : List Ty} {elem : Ty}
    (params : f.sig.params = front ++ [.slice elem]) :
    f.marshal receiver args = (do
      let vs ← Script.toHosts (front.drop receiver.toList.length) (args.take (f.needed receiver))
      let ws ← Script.toHosts (List.replicate (args.length - f.needed receiver) elem)
        (args.drop (f.needed receiver))
      let w ← Slice.ofList elem ws
      return receiver.toList ++ vs ++ [.slice w]) := by
  have required : f.sig.required = front.length := by
    simp [Signature.required, variadic, params]
  have rest : f.sig.rest = elem := by simp [Signature.rest, params]
  have hints : (front.drop receiver.toList.length).length = f.needed receiver := by
    simp only [needed, required, List.length_drop]
  have others : args.length - f.needed receiver = (args.drop (f.needed receiver)).length := by
    simp
  rw [← hints, Script.toHosts_take, hints, others, ← Script.allToHost_eq_toHosts]
  simp only [marshal, required, rest, variadic, params, List.take_left, if_true, pure_bind]

theorem marshal_eq_ok (formed : f.Formed receiver) (enough : f.needed receiver ≤ args.length) :
    f.marshal receiver args st = .ok vs st' ↔ f.Passes receiver args st vs st' := by
  have taken : (args.take (f.needed receiver)).length = f.needed receiver :=
    List.length_take_of_le enough
  cases variadic : f.sig.variadic with
  | false =>
    have hints : (f.sig.params.drop receiver.toList.length).length = f.needed receiver := by
      simp only [needed, Signature.required, variadic, List.length_drop]
      rfl
    have lengths := hints.trans taken.symm
    rw [marshal_fixed variadic]
    constructor
    · intro h
      obtain ⟨ws, st₁, converted, returned⟩ := ok_of_bind h
      cases returned
      exact .fixed variadic ((Script.toHosts_eq_ok lengths).mp converted)
    · intro h
      cases h with
      | fixed _ become =>
        rw [bind_ok ((Script.toHosts_eq_ok lengths).mpr become)]
        rfl
      | collected collects => cases variadic.symm.trans collects
  | true =>
    obtain ⟨front, elem, params⟩ := formed.collects variadic
    have hints : (front.drop receiver.toList.length).length = f.needed receiver := by
      simp [needed, Signature.required, variadic, params]
    have lengths := hints.trans taken.symm
    have others : (List.replicate (args.length - f.needed receiver) elem).length =
        (args.drop (f.needed receiver)).length := by simp
    rw [marshal_collected variadic params]
    constructor
    · intro h
      obtain ⟨us, st₁, fixed, h₁⟩ := ok_of_bind h
      obtain ⟨ws, st₂, rest, h₂⟩ := ok_of_bind h₁
      obtain ⟨w, st₃, collected, returned⟩ := ok_of_bind h₂
      obtain ⟨accepted, rfl, rfl⟩ := Slice.ofList_eq_ok.mp (ok_of_host collected)
      cases returned
      exact .collected variadic params ((Script.toHosts_eq_ok lengths).mp fixed)
        ((Script.toHosts_eq_ok others).mp rest) accepted rfl
    · intro h
      cases h with
      | fixed plain => cases variadic.symm.trans plain
      | collected _ params' fixed rest accepted made =>
        obtain ⟨rfl, last⟩ := List.append_inj' (params.symm.trans params') rfl
        cases last
        cases made
        rw [bind_ok ((Script.toHosts_eq_ok lengths).mpr fixed),
          bind_ok ((Script.toHosts_eq_ok others).mpr rest),
          bind_ok (host_ok (Slice.ofList_eq_ok.mpr ⟨accepted, rfl, rfl⟩))]
        rfl

theorem Passes.enough (passes : f.Passes receiver args st vs st') :
    f.needed receiver ≤ args.length := by
  cases passes with
  | fixed plain become =>
    have lengths := become.lengths.1
    simp only [needed, Signature.required, plain, List.length_drop, List.length_take] at lengths ⊢
    simp only [Bool.false_eq_true, if_false] at lengths ⊢
    omega
  | collected variadic params become =>
    have lengths := become.lengths.1
    simp only [needed, Signature.required, variadic, params, List.length_drop, List.length_take,
      List.length_append, List.length_singleton, if_true] at lengths ⊢
    omega

theorem Passes.length_eq (passes : f.Passes receiver args st vs st') (formed : f.Formed receiver) :
    vs.length = f.sig.params.length := by
  have bound : receiver.toList.length ≤ f.sig.required := by
    cases receiver with
    | none => exact Nat.zero_le _
    | some _ => exact formed.bound rfl
  cases passes with
  | fixed plain become =>
    have lengths := become.lengths
    simp only [Signature.required, plain, Bool.false_eq_true, if_false] at bound
    simp only [List.length_drop] at lengths
    simp only [List.length_append]
    omega
  | collected variadic params become =>
    have lengths := become.lengths
    simp only [Signature.required, variadic, params, List.length_append, List.length_singleton,
      if_true] at bound
    simp only [List.length_drop] at lengths
    simp only [params, List.length_append, List.length_singleton]
    omega

theorem call_of_admits (admitted : f.admits vs = .ok ()) (host : Host) :
    f.call host vs = host f.body vs := by
  simp only [call, admitted]
  rfl

theorem call_of_not_admits {e : HostError} (refused : f.admits vs = .error e) (host : Host) :
    f.call host vs st = .error (.error e) st := by
  simp only [call, refused]
  rfl

theorem admits_eq_ok (length : vs.length = f.sig.params.length) :
    f.admits vs = .ok () ↔ List.Forall₂ (fun t v => t.accepts v = true) f.sig.params vs := by
  simp only [admits]
  rw [if_pos length]
  exact Ty.checkArgs_eq_ok length.symm

theorem refused_of_admits {e : HostError} (refused : f.admits vs = .error e) :
    (vs.length ≠ f.sig.params.length ∧ e = .arity f.sig.params.length vs.length) ∨
      ∃ (i : Nat) (t : Ty) (v : Value), f.sig.params[i]? = some t ∧ vs[i]? = some v ∧
        t.accepts v = false ∧ e = .typeMismatch t.text v.typeText := by
  simp only [admits] at refused
  by_cases length : vs.length = f.sig.params.length
  · rw [if_pos length] at refused
    exact .inr (Ty.refused_of_checkArgs refused)
  · rw [if_neg length] at refused
    cases refused
    exact .inl ⟨length, rfl⟩

theorem mismatch_of_not_admits {e : HostError} (length : vs.length = f.sig.params.length)
    (refused : f.admits vs = .error e) : ∃ expected got, e = .typeMismatch expected got := by
  obtain ⟨differ, -⟩ | ⟨_, t, v, -, -, -, rfl⟩ := refused_of_admits refused
  · exact absurd length differ
  · exact ⟨t.text, v.typeText, rfl⟩

theorem deliver_eq (host : Host) (s : Nat) (f : Function) (vs : List Value) (st : Store) :
    f.deliver host s vs st = match host f.body vs st with
      | .ok results st' => Value.toScripts s results st'
      | .error (.panic text) st' =>
        .error (.error (.runtime (text.getD "host function panicked"))) st'
      | .error (.error e) st' => .error (.error (.ofHost e)) st'
      | .error .blocked st' => .error .blocked st' := by
  simp only [deliver]
  cases ran : host f.body vs st with
  | ok results st₁ =>
    have rescued : BridgeM.rescue (host f.body vs) st = .ok results st₁ := by
      simp only [BridgeM.rescue, host_ok ran]
    exact bind_ok rescued
  | error stop st₁ =>
    cases stop with
    | error e =>
      have rescued : BridgeM.rescue (host f.body vs) st = .error (.error (.ofHost e)) st₁ := by
        simp only [BridgeM.rescue, host_error ran, Stop.map]
      exact bind_error rescued
    | panic text =>
      have rescued : BridgeM.rescue (host f.body vs) st =
          .error (.error (.runtime (text.getD "host function panicked"))) st₁ := by
        simp only [BridgeM.rescue, host_error ran, Stop.map]
      exact bind_error rescued
    | blocked =>
      have rescued : BridgeM.rescue (host f.body vs) st = .error .blocked st₁ := by
        simp only [BridgeM.rescue, host_error ran, Stop.map]
      exact bind_error rescued

theorem arity_of_deliver {host : Host} {name : String} {expected got : Nat}
    (h : f.deliver host s vs st = .error (.error (.arity name expected got)) st') :
    name = "host function" ∧ host f.body vs st = .error (.error (.arity expected got)) st' := by
  rw [deliver_eq] at h
  cases ran : host f.body vs st with
  | ok results st₁ =>
    rw [ran] at h
    exact (Value.toScripts_ne_arity h).elim
  | error stop st₁ =>
    rw [ran] at h
    cases stop with
    | error e =>
      cases e with
      | arity expected got =>
        cases h
        exact ⟨rfl, rfl⟩
      | channel e => cases e <;> cases h
      | _ => cases h
    | panic text => cases h
    | blocked => cases h

def Runs (f : Function) (s : Nat) (call : Host → BridgeM (List Script)) (st : Store)
    (vs : List Value) (st' : Store) : Prop :=
  ∀ host, call host st = f.deliver host s vs st'

def Refused (call : Host → BridgeM (List Script)) (st : Store) : Prop :=
  ∃ expected got st', st.Grown st' ∧
    ∀ host, call host st = .error (.error (.typeMismatch expected got)) st'

theorem Runs.unique {call : Host → BridgeM (List Script)} {ws : List Value} {st₁ st₂ : Store}
    (first : f.Runs s call st vs st₁) (second : f.Runs s call st ws st₂) :
    vs = ws ∧ st₁ = st₂ := by
  classical
  -- a body that waits in the first run only, so the runs are told apart if they differ
  let host : Host := fun _ us st => if us = vs ∧ st = st₁ then .error .blocked st else .ok [] st
  have waits : f.deliver host s vs st₁ = .error .blocked st₁ := by
    have ran : host f.body vs st₁ = .error .blocked st₁ := if_pos ⟨rfl, rfl⟩
    rw [deliver_eq, ran]
  have same := (first host).symm.trans (second host)
  rw [waits] at same
  by_contra differ
  have ran : host f.body ws st₂ = .ok [] st₂ := if_neg fun h => differ ⟨h.1.symm, h.2.symm⟩
  rw [deliver_eq, ran] at same
  cases same

theorem Runs.not_refused {call : Host → BridgeM (List Script)} (runs : f.Runs s call st vs st') :
    ¬Refused call st := by
  rintro ⟨expected, got, st₁, _, refused⟩
  have silent := (refused fun _ _ => pure []).symm.trans (runs _)
  cases silent

theorem runs_of_admits (enough : f.needed receiver ≤ args.length)
    (marshalled : f.marshal receiver args st = .ok vs st') (admitted : f.admits vs = .ok ()) :
    f.Runs s (fun host => f.invoke host s receiver args) st vs st' := by
  intro host
  change f.invoke host s receiver args st = _
  rw [invoke_eq enough, bind_ok marshalled, call_of_admits admitted]
  rfl

theorem invoke_cases (s : Nat) (st : Store) (enough : f.needed receiver ≤ args.length) :
    (∃ vs st', f.marshal receiver args st = .ok vs st' ∧ (f.admits vs = .ok () ∨
        ∃ e, f.admits vs = .error e ∧
          ∀ host, f.invoke host s receiver args st = .error (.error (.ofHost e)) st')) ∨
      Refused (fun host => f.invoke host s receiver args) st := by
  cases marshalled : f.marshal receiver args st with
  | ok vs st' =>
    refine .inl ⟨vs, st', rfl, ?_⟩
    cases admitted : f.admits vs with
    | ok _ => exact .inl rfl
    | error e =>
      refine .inr ⟨e, rfl, fun host => ?_⟩
      have rescued : BridgeM.rescue (f.call host vs) st' = .error (.error (.ofHost e)) st' := by
        simp only [BridgeM.rescue, host_error (call_of_not_admits admitted host), Stop.map]
      rw [invoke_eq enough, bind_ok marshalled, bind_error rescued]
  | error stop st' =>
    obtain ⟨expected, got, rfl⟩ := (picky_marshal ..).refused marshalled
    refine .inr ⟨expected, got, st', (picky_marshal ..).mild.of_error marshalled, fun host => ?_⟩
    change f.invoke host s receiver args st = _
    rw [invoke_eq enough, bind_error marshalled]

theorem invoke_of_passes (formed : f.Formed receiver) (passes : f.Passes receiver args st vs st')
    (host : Host) : f.invoke host s receiver args st = (do
      let results ← BridgeM.rescue (f.call host vs)
      Value.toScripts s results : BridgeM (List Script)) st' := by
  rw [invoke_eq passes.enough, bind_ok ((marshal_eq_ok formed passes.enough).mpr passes)]

theorem runs_or_refused (formed : f.Formed receiver) (enough : f.needed receiver ≤ args.length) :
    (∃ vs st', f.Passes receiver args st vs st' ∧
        List.Forall₂ (fun t v => t.accepts v = true) f.sig.params vs ∧
        f.Runs s (fun host => f.invoke host s receiver args) st vs st') ∨
      Refused (fun host => f.invoke host s receiver args) st := by
  obtain ⟨vs, st', marshalled, admitted | ⟨e, unfit, failed⟩⟩ | refused :=
    invoke_cases s st enough
  · have passes := (marshal_eq_ok formed enough).mp marshalled
    exact .inl ⟨vs, st', passes, (admits_eq_ok (passes.length_eq formed)).mp admitted,
      runs_of_admits enough marshalled admitted⟩
  · have passes := (marshal_eq_ok formed enough).mp marshalled
    obtain ⟨expected, got, rfl⟩ := mismatch_of_not_admits (passes.length_eq formed) unfit
    exact .inr ⟨expected, got, st', (picky_marshal ..).mild.of_ok marshalled, failed⟩
  · exact .inr refused

theorem runs_iff (formed : f.Formed receiver) :
    f.Runs s (fun host => f.invoke host s receiver args) st vs st' ↔
      f.Passes receiver args st vs st' ∧
        List.Forall₂ (fun t v => t.accepts v = true) f.sig.params vs := by
  constructor
  · intro runs
    by_cases enough : f.needed receiver ≤ args.length
    · obtain ⟨ws, st₁, passes, accepted, runs'⟩ | refused := runs_or_refused formed enough
      · obtain ⟨rfl, rfl⟩ := runs.unique runs'
        exact ⟨passes, accepted⟩
      · exact (runs.not_refused refused).elim
    · have few := invoke_of_lt (s := s) (Nat.lt_of_not_le enough) (fun _ _ => pure []) st
      cases few.symm.trans (runs _)
  · rintro ⟨passes, accepted⟩ host
    change f.invoke host s receiver args st = _
    rw [invoke_of_passes formed passes,
      call_of_admits ((admits_eq_ok (passes.length_eq formed)).mpr accepted)]
    rfl

theorem invoke_append (plain : f.sig.variadic = false)
    (enough : f.needed receiver ≤ args.length) (more : List Script) (host : Host) :
    f.invoke host s receiver (args ++ more) = f.invoke host s receiver args := by
  have enough' : f.needed receiver ≤ (args ++ more).length := by
    rw [List.length_append]
    omega
  rw [invoke_eq enough, invoke_eq enough', marshal_fixed plain, marshal_fixed plain,
    List.take_append_of_le_length enough]

end Function

inductive Code.Calls : Code → Function → Option Value → Prop
  | host (f : Function) : Calls (.host f) f none
  | method (f : Function) (receiver : Value) : Calls (.method f receiver) f (some receiver)

def Code.used : Code → List Script → List Script
  | .method .., args => args.tail
  | _, args => args

section

variable {g : Closure} {f : Function} {receiver : Option Value}

theorem Script.call_eq_invoke (calls : g.code.Calls f receiver) (host : Host) (s : Nat)
    (args : List Script) :
    (Script.function g).call host s args = f.invoke host s receiver (g.code.used args) := by
  obtain ⟨id, name, code⟩ := g
  cases calls <;> cases args <;> rfl

theorem Code.used_append (code : Code) (args more : List Script) :
    ∃ rest, code.used (args ++ more) = code.used args ++ rest := by
  cases code with
  | method f receiver =>
    cases args with
    | nil => exact ⟨more.tail, rfl⟩
    | cons _ args => exact ⟨more, rfl⟩
  | _ => exact ⟨more, rfl⟩

structure Closure.Marshals (g : Closure) (f : Function) (receiver : Option Value) (s : Nat)
    (args : List Script) (st : Store) : Prop where
  arity : ∀ {host expected got st'}, (Script.function g).call host s args st =
      .error (.error (.arity f.sig.text expected got)) st' ↔
    (g.code.used args).length < f.needed receiver ∧ expected = f.needed receiver ∧
      got = (g.code.used args).length ∧ st' = st
  own : ∀ {host name expected got st'}, (Script.function g).call host s args st =
      .error (.error (.arity name expected got)) st' → name ≠ f.sig.text →
    ∃ vs st₁, f.Runs s ((Script.function g).call · s args) st vs st₁ ∧
      host f.body vs st₁ = .error (.error (.arity expected got)) st'
  runs : ∀ {vs st'}, f.Runs s ((Script.function g).call · s args) st vs st' ↔
    f.Passes receiver (g.code.used args) st vs st' ∧
      List.Forall₂ (fun t v => t.accepts v = true) f.sig.params vs
  once : ∀ {vs ws st₁ st₂}, f.Runs s ((Script.function g).call · s args) st vs st₁ →
    f.Runs s ((Script.function g).call · s args) st ws st₂ → vs = ws ∧ st₁ = st₂
  refused : Function.Refused ((Script.function g).call · s args) st ↔
    f.needed receiver ≤ (g.code.used args).length ∧
      ∀ vs st', ¬f.Runs s ((Script.function g).call · s args) st vs st'
  counted : ∀ {vs st'}, f.Passes receiver (g.code.used args) st vs st' →
    vs.length = f.sig.params.length ∧ (∀ expected got, f.admits vs ≠ .error (.arity expected got)) ∧
      ∀ host, (Script.function g).call host s args st = (do
        let results ← BridgeM.rescue (f.call host vs)
        Value.toScripts s results : BridgeM (List Script)) st'
  surplus : f.sig.variadic = false → f.needed receiver ≤ (g.code.used args).length →
    ∀ more host, (Script.function g).call host s (args ++ more) =
      (Script.function g).call host s args

/-- Arguments from a script get to the body one for each parameter, in order, or not at all. -/
theorem Closure.marshals (calls : g.code.Calls f receiver) (formed : f.Formed receiver) (s : Nat)
    (args : List Script) (st : Store) : g.Marshals f receiver s args st := by
  have calls_eq : ((Script.function g).call · s args) =
      fun host => f.invoke host s receiver (g.code.used args) :=
    funext fun host => Script.call_eq_invoke calls host s args
  have runs : ∀ {vs st'}, f.Runs s ((Script.function g).call · s args) st vs st' ↔
      f.Passes receiver (g.code.used args) st vs st' ∧
        List.Forall₂ (fun t v => t.accepts v = true) f.sig.params vs := by
    intro vs st'
    rw [calls_eq]
    exact Function.runs_iff formed
  have outcome (enough : f.needed receiver ≤ (g.code.used args).length) :
      (∃ vs st', f.Runs s ((Script.function g).call · s args) st vs st') ∨
        Function.Refused ((Script.function g).call · s args) st := by
    rw [calls_eq]
    exact (Function.runs_or_refused formed enough).imp_left fun ⟨vs, st', _, _, ran⟩ =>
      ⟨vs, st', ran⟩
  have few (short : (g.code.used args).length < f.needed receiver) (host : Host) :
      (Script.function g).call host s args st = .error (.error (.arity f.sig.text
        (f.needed receiver) (g.code.used args).length)) st := by
    rw [Script.call_eq_invoke calls]
    exact Function.invoke_of_lt short host st
  -- what fails for its count either has too few arguments or has run its body
  have counts {host : Host} {name : String} {expected got : Nat} {st' : Store}
      (failed : (Script.function g).call host s args st =
        .error (.error (.arity name expected got)) st') :
      (name = f.sig.text ∧ (g.code.used args).length < f.needed receiver ∧
          expected = f.needed receiver ∧ got = (g.code.used args).length ∧ st' = st) ∨
        name = "host function" ∧ ∃ vs st₁,
          f.Runs s ((Script.function g).call · s args) st vs st₁ ∧
            host f.body vs st₁ = .error (.error (.arity expected got)) st' := by
    by_cases enough : f.needed receiver ≤ (g.code.used args).length
    · obtain ⟨vs, st₁, ran⟩ | ⟨expected', got', st₁, _, refused⟩ := outcome enough
      · obtain ⟨named, own⟩ := Function.arity_of_deliver ((ran host).symm.trans failed)
        exact .inr ⟨named, vs, st₁, ran, own⟩
      · cases (refused host).symm.trans failed
    · have short := Nat.lt_of_not_le enough
      cases (few short host).symm.trans failed
      exact .inl ⟨rfl, short, rfl, rfl, rfl⟩
  exact {
    arity := by
      intro host expected got st'
      constructor
      · intro failed
        obtain ⟨_, few⟩ | ⟨named, _⟩ := counts failed
        · exact few
        · exact (Signature.text_ne _ named).elim
      · rintro ⟨short, rfl, rfl, rfl⟩
        exact few short _
    own := by
      intro host name expected got st' failed other
      obtain ⟨named, _⟩ | ⟨_, own⟩ := counts failed
      · exact (other named).elim
      · exact own
    runs := runs
    once := fun first second => first.unique second
    refused := by
      constructor
      · intro refused
        refine ⟨Nat.le_of_not_lt fun short => ?_, fun vs st' ran => ran.not_refused refused⟩
        obtain ⟨_, _, _, _, failed⟩ := refused
        cases (failed fun _ => pure).symm.trans (few short _)
      · rintro ⟨enough, silent⟩
        obtain ⟨vs, st', ran⟩ | refused := outcome enough
        · exact (silent vs st' ran).elim
        · exact refused
    counted := by
      intro vs st' passes
      have length := passes.length_eq formed
      refine ⟨length, fun expected got refused => ?_, fun host => ?_⟩
      · obtain ⟨_, _, mismatch⟩ := Function.mismatch_of_not_admits length refused
        cases mismatch
      · rw [Script.call_eq_invoke calls]
        exact Function.invoke_of_passes formed passes host
    surplus := by
      intro plain enough more host
      obtain ⟨rest, used⟩ := g.code.used_append args more
      rw [Script.call_eq_invoke calls, Script.call_eq_invoke calls, used]
      exact Function.invoke_append plain enough rest host }

theorem Closure.marshals_method :
    let f : Function := ⟨.withRest [.int .word, .string] .bool [], 0⟩
    let g : Closure := ⟨0, "mark", .method f (.int .word 7)⟩
    let args : List Script := [.function g, .string "a", .bool true, .bool false]
    g.Marshals f (some (.int .word 7)) 0 args {} ∧
      f.Runs 0 ((Script.function g).call · 0 args) {}
        [.int .word 7, .string "a", .slice ⟨.bool, 0, 0, 2, 2⟩]
        { backings := ⟨#[#[.bool true, .bool false]]⟩ } := by
  intro f g args
  have marshals : g.Marshals f (some (.int .word 7)) 0 args {} :=
    Closure.marshals (.method f _) ⟨fun _ => ⟨_, _, rfl⟩, fun _ => by decide⟩ 0 args {}
  have passes : f.Passes (some (.int .word 7)) (g.code.used args) {}
      [.int .word 7, .string "a", .slice ⟨.bool, 0, 0, 2, 2⟩]
      { backings := ⟨#[#[.bool true, .bool false]]⟩ } :=
    @Function.Passes.collected f _ _ _ [.int .word, .string] .bool [.string "a"]
      [.bool true, .bool false] 0 {} {} _ rfl rfl (.cons rfl .nil) (.cons rfl (.cons rfl .nil))
      (by simp [Ty.accepts, Value.type]) rfl
  exact ⟨marshals, marshals.runs.mpr ⟨passes, .cons rfl (.cons rfl (.cons rfl .nil))⟩⟩

end

end HostBridge
