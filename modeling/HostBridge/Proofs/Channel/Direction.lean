import HostBridge.Proofs.Channel.Delivery
import HostBridge.Proofs.Storage.Location

/-! Directions of channels. A store does not narrow the reference that it stores, so a place that is
declared for one direction has a reference of both when one is stored there. A reference of one
direction stays so wherever it goes, and goes where its direction is declared. -/

namespace HostBridge

variable {W : World} {st : Store}

/-- The channel is there, and all references to it have one of the directions. -/
structure World.Views (W : World) (c : Chan) (ds : List Direction) : Prop where
  maker : c.direction = .both
  single : .both ∉ ds
  declared : W.channels[c.id]? = some (.declared (c.elem, some ds))

namespace World.Views

variable {c e : Chan} {ds : List Direction} {d : Direction}

theorem mono {W' : World} (le : W.Below W') (views : W.Views c ds) : W'.Views c ds :=
  { views with declared := le.channels.getElem? views.declared }

theorem restrict_eq (views : W.Views c ds) (d : Direction) :
    c.restrict d = { c with direction := d } := by
  rw [Chan.restrict, if_pos views.maker]

theorem typed_restrict (views : W.Views c ds) (given : d ∈ ds) :
    (Value.chan (c.restrict d)).Typed W := by
  rw [views.restrict_eq]
  refine Value.typed_chan.mpr ⟨some ds, views.declared, ?_⟩
  rintro _ ⟨⟩
  exact ⟨views.single, given⟩

end World.Views

namespace Session

variable {S : Session}

inductive Locates (S : Session) : Ty → Value → Prop
  | key {m : Map} {es : List Entry} {e : Entry} : S.Occurs (.value (.map m)) →
    S.store.maps.get? m.id = some es → e ∈ es → S.Locates m.key e.key
  | element {m : Map} {es : List Entry} {e : Entry} : S.Occurs (.value (.map m)) →
    S.store.maps.get? m.id = some es → e ∈ es → S.Locates m.elem e.value
  | item {w : Slice} {items : Array Value} {i : Nat} {v : Value} : S.Occurs (.value (.slice w)) →
    S.store.backings.get? w.backing = some items → i < w.cap → items[w.offset + i]? = some v →
      S.Locates w.elem v
  | field {t : StructTy} {vs : List Value} {i : Nat} {f : Field} {v : Value} :
    S.Occurs (.value (.struct t vs)) → t.fields[i]? = some f → vs[i]? = some v →
      S.Locates f.type v
  | pointee {p : Pointer} {i : Nat} {v : Value} : S.Occurs (.value (.ptr p)) → p.cell = some i →
    S.store.cells.get? i = some v → S.Locates p.elem v
  | queued {c : Chan} {ch : Channel Value} {v : Value} : S.Occurs (.value (.chan c)) →
    S.store.channels.get? c.id = some ch → v ∈ ch.queue → S.Locates c.elem v

theorem Locates.occurs {t : Ty} {v : Value} (located : S.Locates t v) : S.Occurs (.value v) := by
  cases located with
  | key _ hes he => exact .key hes he
  | element _ hes he => exact .entry hes he
  | item _ hitems _ hv =>
    obtain ⟨inside, rfl⟩ := Array.getElem?_eq_some_iff.mp hv
    exact .slot hitems (Array.getElem_mem inside)
  | field occurs _ hv => exact .part occurs (List.mem_map_of_mem (List.mem_of_getElem? hv))
  | pointee _ _ hv => exact .cell hv
  | queued _ hch hv => exact .queued hch hv

theorem Fits.accepts (fits : S.Fits W) {t : Ty} {v : Value} (located : S.Locates t v) :
    t.accepts v = true := by
  have sound {u : Value} (occurs : S.Occurs (.value u)) : u.Sound S.store :=
    Value.sound_of_typed fits.store (fits.occurs occurs)
  cases located with
  | key occurs hes he =>
    obtain ⟨es, hes', accepted⟩ := sound occurs
    cases hes.symm.trans hes'
    exact (accepted _ he).1
  | element occurs hes he =>
    obtain ⟨es, hes', accepted⟩ := sound occurs
    cases hes.symm.trans hes'
    exact (accepted _ he).2
  | item occurs hitems hi hv =>
    obtain ⟨items, hitems', accepted⟩ := sound occurs
    cases hitems.symm.trans hitems'
    obtain ⟨v', hv', h⟩ := accepted _ hi
    cases hv.symm.trans hv'
    exact h
  | field occurs hf hv => exact (sound occurs).2 _ _ _ hf hv
  | pointee occurs cell hv =>
    obtain ⟨v', hv', h⟩ := sound occurs _ cell
    cases hv.symm.trans hv'
    exact h
  | queued occurs hch hv =>
    obtain ⟨ch, hch', accepted⟩ := sound occurs
    cases hch.symm.trans hch'
    exact accepted _ hv

def Names (S : Session) : Location → Prop
  | .element m _ => S.Occurs (.value (.map m))
  | .item w _ => S.Occurs (.value (.slice w))
  | .pointee p | .field p .. => S.Occurs (.value (.ptr p))
  | .queue c => S.Occurs (.value (.chan c))

inductive Maker (S : Session) (c : Chan) (ds : List Direction) : HostAction → Prop
  | view {d : Direction} : d ∈ ds → Maker S c ds (.restrict c d)
  | send {v : Value} : .value v ∈ S.held → Maker S c ds (.send c v)
  | receive : Maker S c ds (.receive c)
  | close : Maker S c ds (.close c)

/-- The sessions of a host program, in which the makers of some channels keep to themselves the
reference that they have, and give out views of one direction each. -/
inductive Guarded (host : Host) : List (Chan × List Direction) → Session → Prop
  | start : Guarded host [] { host }
  | define {owned : List (Chan × List Direction)} {S : Session} {captured : List Value} {b : Body}
      (n : Nat) : Guarded host owned S → captured.map .value ⊆ S.held → b.Checked captured →
    Guarded host owned (S.define n b)
  | act {owned : List (Chan × List Direction)} {S : Session} {a : Action} :
    Guarded host owned S → S.Allows a → Guarded host owned (S.perform a)
  | make {owned : List (Chan × List Direction)} {S : Session} {elem : Ty} {capacity : Nat}
      {ds : List Direction} : Guarded host owned S → .both ∉ ds →
    Guarded host (((Chan.make elem capacity S.store).1, ds) :: owned)
      { S with store := (Chan.make elem capacity S.store).2 }
  | own {owned : List (Chan × List Direction)} {S : Session} {c : Chan} {ds : List Direction}
      {a : HostAction} : Guarded host owned S → (c, ds) ∈ owned → Maker S c ds a →
    Guarded host owned (S.perform (.host a))

theorem Fits.make (fits : S.Fits W) (elem : Ty) (capacity : Nat) {ds : List Direction}
    (single : .both ∉ ds) :
    ∃ W', W.Extends none W' ∧
      ({ S with store := (Chan.make elem capacity S.store).2 } : Session).Fits W' ∧
      W'.Views (Chan.make elem capacity S.store).1 ds := by
  have extended : W.Extends none _ := World.extends_channel (elem, some ds)
  have ht := fits.store.mono extended.below
  have made : S.store.channels.size = W.channels.length := fits.store.channels.size
  have whole := fits.whole.mono extended.toGrows
  refine ⟨_, extended, ⟨⟨?_, ?_, ?_, fits.makers⟩, whole⟩, rfl, single, ?_⟩
  · exact { ht with channels := ht.channels.push (by simp) }
  · exact fun i hi => (fits.held i hi).mono extended.below
  · exact fits.host.mono extended.below
  · change (W.channels ++ [.declared (elem, some ds)])[S.store.channels.size]? = _
    rw [made, List.getElem?_concat_length]
    rfl

theorem Fits.own (fits : S.Fits W) {c : Chan} {ds : List Direction} (views : W.Views c ds)
    {a : HostAction} (own : Maker S c ds a) :
    ∃ W', W.Extends none W' ∧ (S.perform (.host a)).Fits W' := by
  have declared : c.Declared W := ⟨some ds, views.declared⟩
  have safe : Safe none W a.run fun W' vs => ∀ v ∈ vs, v.Typed W' := by
    cases own with
    | view given => exact Safe.pure (List.forall_mem_singleton.mpr (views.typed_restrict given))
    | send hv => exact Safe.none (Chan.send_safe declared (fits.held _ hv))
    | receive =>
      apply (Chan.receive_safe declared).bind
      intro W' r _ hr
      exact Safe.pure (by simpa using hr)
    | close => exact Safe.none (Chan.close_safe declared)
  apply fits.perform_of_safe (a := .host a)
  apply (Safe.host safe).bind
  intro W' vs _ hvs
  exact Safe.pure (List.forall_mem_map.mpr hvs)

theorem Guarded.fits {host : Host} (hhost : ∀ n, (host n).Checked [])
    {owned : List (Chan × List Direction)} (guarded : Guarded host owned S) :
    ∃ W, S.Fits W ∧ W.rules = .none ∧ ∀ o ∈ owned, W.Views o.1 o.2 := by
  -- a new channel is declared with the directions of its views, and no later world changes that
  induction guarded with
  | start => exact ⟨_, fits_start hhost .none, rfl, by simp⟩
  | define n _ held checked ih =>
    obtain ⟨W, fits, rules, views⟩ := ih
    exact ⟨W, fits.define n held checked, rules, views⟩
  | act _ allowed ih =>
    obtain ⟨W, fits, rules, views⟩ := ih
    obtain ⟨W', le, fits'⟩ := fits.perform allowed (rules ▸ Rules.permits_none _)
    exact ⟨W', fits', le.rules.trans rules, fun o ho => (views o ho).mono le.below⟩
  | make _ single ih =>
    obtain ⟨W, fits, rules, views⟩ := ih
    obtain ⟨W', le, fits', made⟩ := fits.make _ _ single
    refine ⟨W', fits', le.rules.trans rules, List.forall_mem_cons.mpr ⟨made, fun o ho => ?_⟩⟩
    exact (views o ho).mono le.below
  | own _ owns step ih =>
    obtain ⟨W, fits, rules, views⟩ := ih
    obtain ⟨W', le, fits'⟩ := fits.own (views _ owns) step
    exact ⟨W', fits', le.rules.trans rules, fun o ho => (views o ho).mono le.below⟩

end Session

namespace Chan

variable {c : Chan}

end Chan

namespace Session

end Session

end HostBridge
