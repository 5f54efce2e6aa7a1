import HostBridge.Proofs.Function.Arguments
import HostBridge.Proofs.Slice.Access

namespace HostBridge

namespace HostError

def category : HostError → ErrorCategory
  | .typeMismatch .. | .unhashable _ => .typeMismatch
  | .indexOutOfRange .. | .channel _ | .direction .. => .protocol
  | .nilPointer => .nilDereference
  | .arity .. => .arity
  | .call _ => .runtime

def names : HostError → List String
  | .typeMismatch expected got => [expected, got]
  | .unhashable type => [type]
  | .channel e => [e.message]
  | .direction op type => [op.text, type]
  | .call message => [message]
  | .indexOutOfRange .. | .nilPointer | .arity .. => []

def counts : HostError → List Nat
  | .indexOutOfRange _ length => [length]
  | .arity expected got => [expected, got]
  | _ => []

inductive Misplaced (i len : Nat) : HostError → Prop
  | given : Misplaced i len (.indexOutOfRange i len)
  | set {w : Slice} {v : Value} {st st' : Store} {e : HostError} : w.len = len → len ≤ i →
    w.set i v st = .error (.error e) st' → Misplaced i len e
  | slice {w : Slice} {low : Nat} {e : HostError} : w.cap = len → w.slice low i = .error e →
    Misplaced i len e
  | field {t : StructTy} {vs : List Value} {v : Value} {e : HostError} : vs.length = len →
    t.fields[i]? = none → t.setAt vs i v = .error e → Misplaced i len e

theorem Misplaced.eq {i len : Nat} {e : HostError} (misplaced : e.Misplaced i len) :
    e = .indexOutOfRange i len := by
  cases misplaced with
  | given => rfl
  | set length outside failed =>
    subst length
    rw [Slice.set_eq, if_neg (Nat.not_lt_of_le outside)] at failed
    cases failed
    rfl
  | slice capacity failed =>
    subst capacity
    simp only [Slice.slice] at failed
    split at failed
    · cases failed
    · cases failed
      rfl
  | field length undeclared failed =>
    subst length
    simp only [StructTy.setAt, undeclared] at failed
    cases failed
    rfl

end HostError

namespace BridgeError

def names : BridgeError → List String
  | .unsupported type => [type]
  | .typeMismatch expected got => [expected, got]
  | .notAddressable type field | .unknownField type field => [type, field]
  | .arity function .. => [function]
  | .sendOnClosed => [ChannelError.sendOnClosed.message]
  | .closeOfClosed => [ChannelError.closeOfClosed.message]
  | .direction op type => [op.text, type]
  | .badOperand op type => [op.name, type]
  | .registryCollision key => [key]
  | .runtime message => [message]
  | .nilDereference | .indexOutOfRange .. => []

def counts : BridgeError → List Nat
  | .indexOutOfRange _ length => [length]
  | .arity _ expected got => [expected, got]
  | _ => []

theorem scriptIndex_eq {i : Nat} (small : i < 2 ^ 64) :
    scriptIndex i = if i + 1 < 2 ^ 63 then (i : Int) + 1 else i + 1 - 2 ^ 64 := by
  have one : (1 : Int64).toInt = 1 := rfl
  have sum : scriptIndex i = ((i : Int) + 1).bmod (2 ^ 64) := by
    rw [scriptIndex, Int64.toInt_add, one, Int64.toInt_ofNat']
    exact Int.bmod_add_bmod
  rw [sum, Int.bmod_def]
  split <;> split <;> omega

/-- The failure says in the terms of scripts what the other one says on the host side. -/
structure Tells (b : BridgeError) (e : HostError) : Prop where
  category : b.category = e.category
  names : e.names <:+ b.names
  counts : b.counts = e.counts
  position : ∀ {i len : Nat}, e.Misplaced i len → i < 2 ^ 64 →
    b = .indexOutOfRange (if i + 1 < 2 ^ 63 then (i : Int) + 1 else i + 1 - 2 ^ 64) len
  counted : ∀ {i len : Nat}, e.Misplaced i len → i < 2 ^ 64 →
    (scriptIndex i = (Int64.ofNat i).toInt + 1 ↔ i + 1 ≠ 2 ^ 63)

theorem tells_ofHost (e : HostError) : (ofHost e).Tells e where
  category := by
    cases e with
    | channel e => cases e <;> rfl
    | _ => rfl
  names := by
    cases e with
    | channel e => cases e <;> exact List.suffix_refl _
    | unhashable type => exact List.suffix_cons _ _
    | arity expected got => exact List.nil_suffix
    | _ => exact List.suffix_refl _
  counts := by
    cases e with
    | channel e => cases e <;> rfl
    | _ => rfl
  position := by
    intro i len misplaced small
    rw [misplaced.eq, ofHost, scriptIndex_eq small]
  counted := by
    intro i len _ small
    rw [scriptIndex_eq small, Int64.toInt_ofNat', Int.bmod_def]
    simp only [Int64.size]
    split <;> split <;> omega

end BridgeError

theorem Value.mild_toScripts (s : Nat) (vs : List Value) : Mild (toScripts s vs) := by
  induction vs with
  | nil => exact Mild.pure _
  | cons v vs ih => exact (mild_toScript v).bind fun _ => ih.bind fun _ => Mild.pure _

variable {s : Nat}

inductive Surfaces (s : Nat) : EStateM.Result (Stop HostError) Store (List Value) →
    EStateM.Result (Stop BridgeError) Store (List Script) → Prop
  | results {vs : List Value} {st : Store} : Surfaces s (.ok vs st) (Value.toScripts s vs st)
  | panic {text : Option String} {st : Store} : Surfaces s (.error (.panic text) st)
    (.error (.error (.runtime (text.getD "host function panicked"))) st)
  | failure {e : HostError} {b : BridgeError} {st : Store} : b.Tells e →
    Surfaces s (.error (.error e) st) (.error (.error b) st)
  | blocked {st : Store} : Surfaces s (.error .blocked st) (.error .blocked st)

theorem Surfaces.settled {result : EStateM.Result (Stop HostError) Store (List Value)}
    {outcome : EStateM.Result (Stop BridgeError) Store (List Script)}
    (surfaces : Surfaces s result outcome) (busy : ∀ st', result ≠ .error .blocked st')
    {stop : Stop BridgeError} {st' : Store} (failed : outcome = .error stop st') :
    ∃ e, stop = .error e := by
  cases surfaces with
  | results => exact Settles.of_mild (Value.mild_toScripts s _) stop st' failed
  | panic | failure =>
    cases failed
    exact ⟨_, rfl⟩
  | blocked => exact absurd rfl (busy _)

namespace Function

theorem surfaces_deliver (host : Host) (s : Nat) (f : Function) (vs : List Value) (st : Store) :
    Surfaces s (host f.body vs st) (f.deliver host s vs st) := by
  rw [deliver_eq]
  cases host f.body vs st with
  | ok results st' => exact .results
  | error stop st' =>
    cases stop with
    | error e => exact .failure (BridgeError.tells_ofHost e)
    | panic text => exact .panic
    | blocked => exact .blocked

structure Enters (f : Function) (receiver : Option Value) (args : List Script) (st : Store)
    (vs : List Value) (st' : Store) : Prop where
  enough : f.needed receiver ≤ args.length
  marshalled : f.marshal receiver args st = .ok vs st'
  admitted : f.admits vs = .ok ()

variable {f : Function} {receiver : Option Value} {args : List Script} {st st' : Store}
  {vs : List Value}

theorem Enters.surfaces (enters : f.Enters receiver args st vs st') (host : Host) (s : Nat) :
    Surfaces s (host f.body vs st') (f.invoke host s receiver args st) := by
  have ran : f.invoke host s receiver args st = f.deliver host s vs st' :=
    runs_of_admits enters.enough enters.marshalled enters.admitted host
  rw [ran]
  exact f.surfaces_deliver host s vs st'

theorem enters_or_fails (f : Function) (receiver : Option Value) (args : List Script) (s : Nat)
    (st : Store) : (∃ vs st', f.Enters receiver args st vs st') ∨
      ∃ e st', ∀ host, f.invoke host s receiver args st = .error (.error e) st' := by
  by_cases enough : f.needed receiver ≤ args.length
  · obtain ⟨vs, st', marshalled, admitted | ⟨e, -, failed⟩⟩ | ⟨_, _, st', -, refused⟩ :=
      invoke_cases s st enough
    · exact .inl ⟨vs, st', enough, marshalled, admitted⟩
    · exact .inr ⟨_, st', failed⟩
    · exact .inr ⟨_, st', refused⟩
  · exact .inr ⟨_, st, fun host => invoke_of_lt (Nat.lt_of_not_le enough) host st⟩

end Function

namespace Closure

variable {g : Closure} {f : Function} {receiver : Option Value}

structure Surfaced (g : Closure) (f : Function) (receiver : Option Value) (s : Nat)
    (args : List Script) (st : Store) : Prop where
  entered : ∀ {vs st'}, f.Enters receiver (g.code.used args) st vs st' → ∀ host,
    Surfaces s (host f.body vs st') ((Script.function g).call host s args st)
  barred : (∀ vs st', ¬f.Enters receiver (g.code.used args) st vs st') →
    ∃ e st', ∀ host, (Script.function g).call host s args st = .error (.error e) st'
  settles : ∀ {host : Host}, (∀ vs st₁ st₂, host f.body vs st₁ ≠ .error .blocked st₂) →
    Settles st ((Script.function g).call host s args)

/-- Failures of host functions get to the scripts that call them, and nothing gets past them. -/
theorem surfaced (calls : g.code.Calls f receiver) (s : Nat) (args : List Script) (st : Store) :
    g.Surfaced f receiver s args st := by
  constructor
  case entered =>
    intro vs st' enters host
    rw [Script.call_eq_invoke calls]
    exact enters.surfaces host s
  case barred =>
    intro barred
    obtain ⟨vs, st', enters⟩ | failed := f.enters_or_fails receiver (g.code.used args) s st
    · exact absurd enters (barred vs st')
    · simpa only [Script.call_eq_invoke calls] using failed
  case settles =>
    intro host busy stop st₂ ended
    rw [Script.call_eq_invoke calls] at ended
    obtain ⟨vs, st₁, enters⟩ | ⟨e, st₁, failed⟩ :=
      f.enters_or_fails receiver (g.code.used args) s st
    · exact (enters.surfaces host s).settled (busy vs st₁) ended
    · cases (failed host).symm.trans ended
      exact ⟨e, rfl⟩

theorem surfaced_method :
    let f : Function := ⟨⟨[.int .word], [], false⟩, 0⟩
    let receiver : Value := .int .word 7
    Surfaced ⟨0, "mark", .method f receiver⟩ f (some receiver) 0 [.nil] {} ∧
      f.Enters (some receiver) [] {} [receiver] {} :=
  ⟨surfaced (.method _ _) 0 [.nil] {}, by decide, rfl, rfl⟩

/-- A function sets the last position of all in a slice of three, and zero is reported. -/
theorem misreports :
    let last : Nat := 0xffffffffffffffff
    let host : Host := fun _ _ => do
      Slice.set ⟨.string, 0, 0, 3, 3⟩ last .nil
      return []
    (Script.function ⟨0, "func()", .host ⟨⟨[], [], false⟩, 0⟩⟩).call host 0 [] {} =
        .error (.error (.indexOutOfRange 0 3)) {} ∧ (0 : Int) ≠ last + 1 :=
  ⟨rfl, by decide⟩

end Closure

end HostBridge
