import HostBridge.Function.Native
import HostBridge.Proofs.Conversion.Deep
import HostBridge.Proofs.Function.Arguments
import HostBridge.Proofs.Map.Keyable
import HostBridge.Proofs.Number.Precision

namespace HostBridge

theorem mapM_eq_ok {α β ε : Type} {f : α → Except ε β} {xs : List α} {ys : List β}
    (h : List.Forall₂ (fun x y => f x = .ok y) xs ys) : xs.mapM f = .ok ys := by
  induction h with
  | nil => rfl
  | cons head _ ih =>
    rw [List.mapM_cons, head, ih]
    rfl

theorem exists_mapM {α β ε : Type} {f : α → Except ε β} {xs : List α}
    (h : ∀ x ∈ xs, ∃ y, f x = .ok y) : ∃ ys, xs.mapM f = .ok ys := by
  induction xs with
  | nil => exact ⟨[], rfl⟩
  | cons x xs ih =>
    rw [List.forall_mem_cons] at h
    obtain ⟨y, head⟩ := h.1
    obtain ⟨ys, rest⟩ := ih h.2
    refine ⟨y :: ys, ?_⟩
    rw [List.mapM_cons, head, rest]
    rfl

namespace Single

def isNaN (x : Single) : Bool :=
  match x.datum with
  | .nan .. => true
  | _ => false

theorem isNaN_of_datum {x : Single} {negative : Bool} {payload : Nat}
    (h : x.datum = .nan negative payload) : x.isNaN = true := by
  simp only [isNaN, h]

/-- Double precision and back is the identity, but for what is not a number, which may come back as
another one that is none. -/
theorem toSingle_toDouble (x : Single) :
    x.toDouble.toSingle = x ∨ x.isNaN = true ∧ x.toDouble.toSingle.isNaN = true := by
  cases h : x.datum with
  | finite negative m q =>
    obtain ⟨m', q', eq, same, _⟩ := datum_toDouble_finite h
    have back : ofDatum (.finite negative m' q') = ofDatum x.datum := by
      rw [h]
      simp only [ofDatum, same]
    left
    rw [Double.toSingle_eq, eq, Datum.quiet_finite, back, ofDatum_datum]
  | infinite negative =>
    left
    rw [Double.toSingle_eq, datum_toDouble_infinite h, Datum.quiet_infinite, ← h, ofDatum_datum]
  | nan negative payload =>
    have small := Format.quietPayload_widen_lt (Format.payload_of_decode x.bits_lt h)
    have back : x.toDouble.toSingle.datum = .nan negative (Format.double.quietPayload .single
        (Format.single.quietPayload .double payload)) := by
      rw [Double.toSingle_eq, datum_toDouble_nan h, Datum.quiet_nan, datum_ofDatum,
        Format.decode_encode_nan wide _ (Format.quietPayload_narrow_ne_zero _)
          (Format.quietPayload_narrow_lt small)]
    exact .inr ⟨isNaN_of_datum h, isNaN_of_datum back⟩

end Single

namespace Native

/-- The same data, where whatever is not a number counts as the same. -/
def Same : (t : Native) → t.Carrier → t.Carrier → Prop
  | .single, x, y => y = x ∨ Single.isNaN x = true ∧ Single.isNaN y = true
  | .list t, xs, ys => List.Forall₂ t.Same xs ys
  | .bool, x, y | .int _, x, y | .uint _, x, y | .double, x, y | .string, x, y | .any, x, y => y = x

structure Stands (t : Native) (st : Store) (x : t.Carrier) (v : Value) : Prop where
  accepted : t.type.accepts v = true
  taken : ∀ {st' : Store}, st.Grown st' → ∃ y, t.ofValue st' v = .ok y ∧ t.Same x y

namespace Stands

variable {t : Native} {st st' : Store}

theorem mono {x : t.Carrier} {v : Value} (stands : t.Stands st x v) (grown : st.Grown st') :
    t.Stands st' x v where
  accepted := stands.accepted
  taken later := stands.taken (grown.trans later)

theorem list {xs : List t.Carrier} {vs : List Value}
    (items : List.Forall₂ (t.Stands st) xs vs) :
    (Native.list t).Stands (Store.newBacking vs.toArray st).2 xs
      (.slice (.whole t.type vs st)) where
  accepted := by simp [type, Ty.accepts, Value.type, Slice.type, Slice.whole]
  taken {st'} grown := by
    have whole : (Slice.whole t.type vs st).toList st' = vs := by
      rw [Slice.inside_whole.toList_eq grown, Slice.toList_whole]
    have before : st.Grown st' := (Store.grown_newBacking vs.toArray st).trans grown
    have each : ∃ ys, List.Forall₂ (fun v y => t.ofValue st' v = .ok y) vs ys ∧
        List.Forall₂ t.Same xs ys := by
      clear whole grown
      induction items with
      | nil => exact ⟨[], .nil, .nil⟩
      | cons head _ ih =>
        obtain ⟨y, taken, same⟩ := head.taken before
        obtain ⟨ys, rest, sames⟩ := ih
        exact ⟨y :: ys, .cons taken rest, .cons same sames⟩
    obtain ⟨ys, taken, same⟩ := each
    refine ⟨ys, ?_, same⟩
    change ((Slice.whole t.type vs st).toList st').mapM (t.ofValue st') = .ok ys
    rw [whole]
    exact mapM_eq_ok taken

end Stands

variable {t : Native} {st st' : Store}

theorem sliceOf_eq {elem : Ty} {vs : List Value} (accepted : ∀ v ∈ vs, elem.accepts v = true)
    (st : Store) : sliceOf elem vs st =
      (.slice (.whole elem vs st), (Store.newBacking vs.toArray st).2) := by
  have all : vs.all elem.accepts = true := List.all_eq_true.mpr accepted
  simp only [sliceOf, all, if_true]
  rfl

theorem stands_mapM (each : ∀ x (st : Store), st.Grown (t.toValue x st).2 ∧
      t.Stands (t.toValue x st).2 x (t.toValue x st).1) (xs : List t.Carrier) (st : Store) :
    st.Grown (xs.mapM t.toValue st).2 ∧
      List.Forall₂ (t.Stands (xs.mapM t.toValue st).2) xs (xs.mapM t.toValue st).1 := by
  induction xs generalizing st with
  | nil => exact ⟨.refl st, .nil⟩
  | cons x xs ih =>
    obtain ⟨grown, head⟩ := each x st
    obtain ⟨grown', rest⟩ := ih (t.toValue x st).2
    rw [List.mapM_cons]
    exact ⟨grown.trans grown', .cons (head.mono grown') rest⟩

theorem toValue_list (each : ∀ x (st : Store), st.Grown (t.toValue x st).2 ∧
      t.Stands (t.toValue x st).2 x (t.toValue x st).1) (xs : List t.Carrier) (st : Store) :
    (Native.list t).toValue xs st =
      (.slice (.whole t.type (xs.mapM t.toValue st).1 (xs.mapM t.toValue st).2),
        (Store.newBacking (xs.mapM t.toValue st).1.toArray (xs.mapM t.toValue st).2).2) := by
  obtain ⟨_, items⟩ := stands_mapM each xs st
  have accepted : ∀ v ∈ (xs.mapM t.toValue st).1, t.type.accepts v = true := by
    intro v member
    obtain ⟨i, hi, rfl⟩ := List.getElem_of_mem member
    exact ((List.forall₂_iff_get.mp items).2 i (items.length_eq ▸ hi) hi).accepted
  exact sliceOf_eq accepted _

theorem ofValue_int {w : IntWidth} {v : Value} {n : Int} (h : integer? v = some n)
    (inside : w.Signed n) : (Native.int w).ofValue st v = .ok ⟨n, inside⟩ := by
  unfold ofValue
  simp only [h]
  exact dif_pos inside

theorem ofValue_uint {w : IntWidth} {v : Value} {n : Int} (h : integer? v = some n)
    (inside : w.Unsigned n) : (Native.uint w).ofValue st v = .ok ⟨n, inside⟩ := by
  unfold ofValue
  simp only [h]
  exact dif_pos inside

theorem stands_toValue (t : Native) (x : t.Carrier) (st : Store) :
    st.Grown (t.toValue x st).2 ∧ t.Stands (t.toValue x st).2 x (t.toValue x st).1 := by
  induction t generalizing st with
  | bool | double | string | any => exact ⟨.refl st, rfl, fun _ => ⟨x, rfl, rfl⟩⟩
  | single => exact ⟨.refl st, rfl, fun _ => ⟨_, rfl, Single.toSingle_toDouble x⟩⟩
  | int w =>
    obtain ⟨n, inside⟩ := x
    have whole : integer? (.int w (Int64.ofInt n)) = some n :=
      congrArg some (IntWidth.signed_toInt inside)
    exact ⟨.refl st, (Value.int w (Int64.ofInt n)).accepts_type,
      fun _ => ⟨_, ofValue_int whole inside, rfl⟩⟩
  | uint w =>
    obtain ⟨n, inside⟩ := x
    have whole : integer? (.uint w (UInt64.ofNat n.toNat)) = some n :=
      congrArg some (IntWidth.unsigned_toNat inside)
    exact ⟨.refl st, (Value.uint w (UInt64.ofNat n.toNat)).accepts_type,
      fun _ => ⟨_, ofValue_uint whole inside, rfl⟩⟩
  | list t ih =>
    obtain ⟨grown, items⟩ := stands_mapM ih x st
    rw [toValue_list ih x st]
    exact ⟨grown.trans (Store.grown_newBacking _ _), .list items⟩

theorem exists_ofValue {v : Value} (accepted : t.type.accepts v = true) (deep : v.Deep st) :
    ∃ x, t.ofValue st v = .ok x := by
  induction t generalizing v with
  | any => exact ⟨v, rfl⟩
  | bool =>
    obtain rfl | ⟨b, rfl⟩ := Ty.shapes_of_accepts accepted
    · cases accepted
    · exact ⟨b, rfl⟩
  | int w =>
    obtain rfl | ⟨i, rfl⟩ := Ty.shapes_of_accepts accepted
    · cases accepted
    · exact ⟨_, ofValue_int rfl deep.proper⟩
  | uint w =>
    obtain rfl | ⟨u, rfl⟩ := Ty.shapes_of_accepts accepted
    · cases accepted
    · exact ⟨_, ofValue_uint rfl deep.proper⟩
  | single | double =>
    obtain rfl | ⟨x, rfl⟩ := Ty.shapes_of_accepts accepted
    · cases accepted
    · exact ⟨_, rfl⟩
  | string =>
    obtain rfl | ⟨text, rfl⟩ := Ty.shapes_of_accepts accepted
    · cases accepted
    · exact ⟨text, rfl⟩
  | list t ih =>
    obtain rfl | ⟨w, rfl⟩ := Ty.shapes_of_accepts accepted
    · exact ⟨[], rfl⟩
    · have elem : w.elem.ident = t.type.ident := by
        simpa [type, Ty.accepts, Value.type, Slice.type, Ty.ident] using accepted
      have items : ∀ u ∈ w.toList st, ∃ y, t.ofValue st u = .ok y := by
        intro u member
        have fits := deep.proper.2 u member
        rw [Ty.accepts_congr elem] at fits
        exact ih fits (deep.item member)
      exact exists_mapM items

theorem exists_arguments {ts : List Native} {vs : List Value}
    (accepted : List.Forall₂ (fun t v => t.accepts v = true) (ts.map type) vs)
    (deep : ∀ v ∈ vs, v.Deep st) : ∃ xs, arguments st ts vs = .ok xs := by
  induction ts generalizing vs with
  | nil => exact ⟨(), rfl⟩
  | cons t ts ih =>
    cases accepted with
    | cons head rest =>
      rw [List.forall_mem_cons] at deep
      obtain ⟨x, first⟩ := exists_ofValue head deep.1
      obtain ⟨xs, others⟩ := ih rest deep.2
      refine ⟨(x, xs), ?_⟩
      simp only [arguments, List.head?_cons, Option.getD_some, List.tail_cons, first, others]
      rfl

theorem accepts_results (ts : List Native) (xs : Tuple ts) (st : Store) :
    List.Forall₂ (fun t v => t.accepts v = true) (ts.map type) (results ts xs st).1 := by
  induction ts generalizing st with
  | nil => exact .nil
  | cons t ts ih =>
    obtain ⟨x, xs⟩ := xs
    exact .cons (stands_toValue t x st).2.accepted (ih xs _)

end Native

namespace NativeFunction

variable {f : NativeFunction} {st st' : Store}

def answer (f : NativeFunction) (xs : Native.Tuple f.params) : HostM (List Value) := do
  match ← f.run xs with
  | .ok ys => Native.results f.results ys
  | .error text => HostM.fail (.call text)

theorem body_eq_answer {args : List Value} {xs : Native.Tuple f.params}
    (taken : Native.arguments st f.params args = .ok xs) : f.body args st = f.answer xs st := by
  simp only [body]
  rw [get_bind, taken]
  rfl

theorem accepts_of_answer {xs : Native.Tuple f.params} {vs : List Value}
    (h : f.answer xs st = .ok vs st') :
    List.Forall₂ (fun t v => t.accepts v = true) f.sig.results vs := by
  simp only [answer] at h
  obtain ⟨r, st₁, ran, answered⟩ := ok_of_bind h
  cases r with
  | ok ys =>
    cases answered
    exact Native.accepts_results f.results ys st₁
  | error text => cases answered

end NativeFunction

section

variable {st st' : Store} {vs : List Value}

theorem Script.Become.deep {ts : List Ty} {xs : List Script} (become : Become ts xs st vs st')
    (deep : ∀ x ∈ xs, x.Deep st) : st.Grown st' ∧ ∀ v ∈ vs, v.Deep st' := by
  induction become with
  | nil => exact ⟨.refl _, by simp⟩
  | @cons t _ x _ _ _ _ _ _ converted _ ih =>
    rw [List.forall_mem_cons] at deep
    have grown := (mild_toHost t x).of_ok converted
    obtain ⟨grown', rest⟩ := ih fun y member => (deep.2 y member).mono grown
    rw [List.forall_mem_cons]
    exact ⟨grown.trans grown', (deep_toHost deep.1 converted).mono grown', rest⟩

theorem Function.Passes.deep {f : Function} {receiver : Option Value} {args : List Script}
    (passes : f.Passes receiver args st vs st') (hreceiver : ∀ v ∈ receiver, v.Deep st)
    (hargs : ∀ x ∈ args, x.Deep st) : ∀ v ∈ vs, v.Deep st' := by
  have bound : ∀ v ∈ receiver.toList, v.Deep st := by simpa using hreceiver
  have taken : ∀ x ∈ args.take (f.needed receiver), x.Deep st :=
    fun x member => hargs x (List.mem_of_mem_take member)
  cases passes with
  | fixed _ become =>
    obtain ⟨grown, fixed⟩ := become.deep taken
    rw [List.forall_mem_append]
    exact ⟨fun v member => (bound v member).mono grown, fixed⟩
  | @collected _ elem _ ws _ _ _ _ _ _ become become' accepted made =>
    obtain ⟨grown₁, fixed⟩ := become.deep taken
    obtain ⟨grown₂, rest⟩ := become'.deep fun x member =>
      (hargs x (List.mem_of_mem_drop member)).mono grown₁
    have grown₃ := Store.grown_newBacking ws.toArray
    cases made
    rw [List.forall_mem_append, List.forall_mem_append, List.forall_mem_singleton]
    refine ⟨⟨fun v member => ?_, fun v member => ?_⟩, ?_⟩
    · exact (bound v member).mono ((grown₁.trans grown₂).trans (grown₃ _))
    · exact (fixed v member).mono (grown₂.trans (grown₃ _))
    · refine Value.Deep.of_items Slice.inside_whole fun u member => ?_
      change u ∈ (Slice.whole elem ws _).toList (Store.newBacking ws.toArray _).2 at member
      rw [Slice.toList_whole] at member
      exact ⟨accepted u member, (rest u member).mono (grown₃ _)⟩

end

structure Native.Coherent (t : Native) : Prop where
  typed : ∀ x st, t.type.accepts (t.toValue x st).1 = true ∧
    ((t.toValue x st).1 = .nil → t = .any)
  back : ∀ x st, ∃ y, t.ofValue (t.toValue x st).2 (t.toValue x st).1 = .ok y ∧ t.Same x y
  taken : ∀ {v st}, t.type.accepts v = true → v.Deep st → ∃ x, t.ofValue st v = .ok x

structure NativeFunction.Coherent (f : NativeFunction) : Prop where
  admitted : ∀ {body args st}, (Function.mk f.sig body).admits args = .ok () →
    (∀ v ∈ args, v.Deep st) →
      ∃ xs, Native.arguments st f.params args = .ok xs ∧ f.body args st = f.answer xs st
  reached : ∀ {host body s receiver args st vs st'}, host body = f.body →
    (∀ v ∈ receiver, v.Deep st) → (∀ x ∈ args, x.Deep st) →
    (Function.mk f.sig body).Passes receiver args st vs st' →
    List.Forall₂ (fun t v => t.accepts v = true) f.sig.params vs →
      ∃ xs, Native.arguments st' f.params vs = .ok xs ∧
        (Function.mk f.sig body).invoke host s receiver args st = (do
          let results ← BridgeM.rescue (f.answer xs)
          Value.toScripts s results : BridgeM (List Script)) st'
  returned : ∀ {args st vs st'}, f.body args st = .ok vs st' →
    vs.length = f.sig.results.length ∧
      List.Forall₂ (fun t v => t.accepts v = true) f.sig.results vs

theorem Native.coherent_each (t : Native) : t.Coherent where
  typed x st := by
    refine ⟨(stands_toValue t x st).2.accepted, fun none => ?_⟩
    cases t with
    | any => rfl
    | list t =>
      rw [toValue_list (stands_toValue t) x st] at none
      cases none
    | _ => cases none
  back x st := (stands_toValue t x st).2.taken (.refl _)
  taken accepted deep := exists_ofValue accepted deep

theorem NativeFunction.coherent_each (f : NativeFunction) : f.Coherent where
  admitted {body args st} admitted deep := by
    have length : args.length = f.sig.params.length := by
      by_contra other
      simp only [Function.admits] at admitted
      rw [if_neg other] at admitted
      cases admitted
    have accepted := (Function.admits_eq_ok (f := ⟨f.sig, body⟩) length).mp admitted
    obtain ⟨xs, taken⟩ := Native.exists_arguments accepted deep
    exact ⟨xs, taken, body_eq_answer taken⟩
  reached {host body s receiver args st vs st'} own hreceiver hargs passes accepted := by
    have formed : (Function.mk f.sig body).Formed receiver := by
      refine ⟨fun variadic => (by cases variadic), fun bound => ?_⟩
      obtain ⟨v, rfl⟩ := Option.isSome_iff_exists.mp bound
      cases passes with
      | fixed _ become =>
        change 0 < f.sig.params.length
        simp [accepted.length_eq]
      | collected variadic => cases variadic
    obtain ⟨xs, taken⟩ := Native.exists_arguments accepted (passes.deep hreceiver hargs)
    refine ⟨xs, taken, ?_⟩
    have ran := (Function.runs_iff (s := s) formed).mpr ⟨passes, accepted⟩ host
    simp only [Function.deliver, own] at ran
    have answered : BridgeM.rescue (f.body vs) st' = BridgeM.rescue (f.answer xs) st' := by
      simp only [BridgeM.rescue, liftM, monadLift, MonadLift.monadLift, body_eq_answer taken]
    rw [ran]
    simp only [bind, EStateM.bind, answered]
  returned {args st vs st'} h := by
    cases taken : Native.arguments st f.params args with
    | ok xs =>
      rw [body_eq_answer taken] at h
      have accepted := accepts_of_answer h
      exact ⟨accepted.length_eq.symm, accepted⟩
    | error e =>
      simp only [body] at h
      rw [get_bind, taken] at h
      cases h

/-- What native types promise holds of every nesting of lists and of every signature. -/
theorem Native.coherent : (∀ t : Native, t.Coherent) ∧ ∀ f : NativeFunction, f.Coherent :=
  ⟨Native.coherent_each, NativeFunction.coherent_each⟩

example : ((Native.list (.list .bool)).toValue [[true], []] {}).1 =
    .slice ⟨.slice .bool, 2, 0, 2, 2⟩ := rfl

end HostBridge
