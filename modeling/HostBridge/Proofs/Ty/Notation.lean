import HostBridge.Bridge.Text
import Mathlib.Data.List.Chain

/-! Notation of types is faithful: two types are written alike exactly when they are the same. A
type begins with a word, which may be empty, and the mark behind the word tells what the type is
built like. -/

namespace HostBridge

namespace Ident

def marks : List Char := [' ', '(', ')', '[', ']', '*', ',', '.', '<']

def leaves : List Ident :=
  [.bool, .int .word, .int .w8, .int .w16, .int .w32, .int .w64, .uint .word, .uint .w8, .uint .w16,
    .uint .w32, .uint .w64, .float .w32, .float .w64, .complex .w32, .complex .w64, .string]

def word : Ident → List Char
  | .bool => ['b', 'o', 'o', 'l']
  | .int w => ['i', 'n', 't'] ++ w.text.toList
  | .uint w => ['u', 'i', 'n', 't'] ++ w.text.toList
  | .float .w32 => ['f', 'l', 'o', 'a', 't', '3', '2']
  | .float .w64 => ['f', 'l', 'o', 'a', 't', '6', '4']
  | .complex .w32 => ['c', 'o', 'm', 'p', 'l', 'e', 'x', '6', '4']
  | .complex .w64 => ['c', 'o', 'm', 'p', 'l', 'e', 'x', '1', '2', '8']
  | .string => ['s', 't', 'r', 'i', 'n', 'g']
  | .func .. => ['f', 'u', 'n', 'c']
  | .chan .both _ | .chan .send _ => ['c', 'h', 'a', 'n']
  | .map .. => ['m', 'a', 'p']
  | .struct name => name.toList
  | .any => ['i', 'n', 't', 'e', 'r', 'f', 'a', 'c', 'e']
  | .address => ['u', 'n', 's', 'a', 'f', 'e']
  | .chan .receive _ | .slice _ | .ptr _ => []

/-- A name that a struct type may have: like every identifier it has no mark in it, and it is not
the word of another type. -/
structure IsName (name : String) : Prop where
  nonempty : name.toList ≠ []
  unmarked : ∀ c ∈ name.toList, c ∉ marks
  free : ∀ i ∈ leaves, i.word ≠ name.toList

end Ident

def Idents.EndsInSlice : Idents → Prop
  | .nil => False
  | .cons i .nil => ∃ e, i = .slice e
  | .cons _ (.cons j is) => (Idents.cons j is).EndsInSlice

def Idents.answered : Idents → List Char → List Char
  | .nil, _ => []
  | .cons _ .nil, text => ' ' :: text
  | .cons _ (.cons ..), text => ' ' :: '(' :: (text ++ [')'])

mutual

def Ident.Readable : Ident → Prop
  | .func params results variadic =>
    params.Readable ∧ results.Readable ∧ (variadic = true → params.EndsInSlice)
  | .chan _ e | .slice e | .ptr e => e.Readable
  | .map k e => k.Readable ∧ e.Readable
  | .struct name => Ident.IsName name
  | _ => True

def Idents.Readable : Idents → Prop
  | .nil => True
  | .cons i is => i.Readable ∧ is.Readable

end

mutual

def Ident.tail (trailing : Bool) : Ident → List Char
  | .func params results variadic =>
    '(' :: (params.joined variadic ++ ')' :: results.answered (results.joined false))
  | .chan .both e => ' ' :: (e.word ++ e.tail false)
  | .chan .send e => '<' :: '-' :: ' ' :: (e.word ++ e.tail false)
  | .chan .receive e => '<' :: '-' :: 'c' :: 'h' :: 'a' :: 'n' :: ' ' :: (e.word ++ e.tail false)
  | .map k e => '[' :: (k.word ++ k.tail false ++ ']' :: (e.word ++ e.tail false))
  | .slice e => (if trailing then ['.', '.', '.'] else ['[', ']']) ++ (e.word ++ e.tail false)
  | .ptr e => '*' :: (e.word ++ e.tail false)
  | .any => [' ', '{', '}']
  | .address => ['.', 'P', 'o', 'i', 'n', 't', 'e', 'r']
  | _ => []

def Idents.joined (trailing : Bool) : Idents → List Char
  | .nil => []
  | .cons i .nil => i.word ++ i.tail trailing
  | .cons i (.cons j is) =>
    i.word ++ i.tail false ++ ',' :: ' ' :: Idents.joined trailing (.cons j is)

end

namespace Ident

def chars (i : Ident) (trailing : Bool) : List Char := i.word ++ i.tail trailing

inductive Form
  | leaf (i : Ident)
  | func
  | chan (direction : Direction)
  | map
  | slice (trailing : Bool)
  | ptr

def form (trailing : Bool) : Ident → Form
  | .func .. => .func
  | .chan d _ => .chan d
  | .map .. => .map
  | .slice _ => .slice trailing
  | .ptr _ => .ptr
  | i => .leaf i

def named (word : List Char) : Ident :=
  (leaves.find? (·.word = word)).getD (.struct (String.ofList word))

/-- The mark behind the first word decides. -/
def Form.read (word : List Char) : List Char → Form
  | ' ' :: _ => if word = ['c', 'h', 'a', 'n'] then .chan .both else .leaf .any
  | '(' :: _ => .func
  | '[' :: _ => if word = [] then .slice false else .map
  | '*' :: _ => .ptr
  | '.' :: _ => if word = [] then .slice true else .leaf .address
  | '<' :: _ => if word = [] then .chan .receive else .chan .send
  | _ => .leaf (named word)

def Follows (r : List Char) : Prop := ∀ c ∈ r.head?, c = ',' ∨ c = ')' ∨ c = ']'

def Marked (r : List Char) : Prop := ∀ c ∈ r.head?, c ∈ marks

theorem eq_of_marked {w w' r r' : List Char} (hw : ∀ c ∈ w, c ∉ marks) (hw' : ∀ c ∈ w', c ∉ marks)
    (hr : Marked r) (hr' : Marked r') (h : w ++ r = w' ++ r') : w = w' ∧ r = r' := by
  induction w generalizing w' with
  | nil =>
    cases w' with
    | nil => exact ⟨rfl, h⟩
    | cons c w' =>
      rw [List.nil_append] at h
      subst h
      exact absurd (hr c rfl) (hw' c List.mem_cons_self)
  | cons c w ih =>
    cases w' with
    | nil =>
      rw [List.nil_append] at h
      subst h
      exact absurd (hr' c rfl) (hw c List.mem_cons_self)
    | cons c' w' =>
      obtain ⟨rfl, rest⟩ := List.cons_eq_cons.mp h
      rw [List.forall_mem_cons] at hw hw'
      obtain ⟨rfl, rfl⟩ := ih hw.2 hw'.2 rest
      exact ⟨rfl, rfl⟩

theorem unmarked_word {i : Ident} (hi : i.Readable) : ∀ c ∈ i.word, c ∉ marks := by
  cases i with
  | struct name => exact hi.unmarked
  | int w | uint w | float w | complex w => cases w <;> simp [word, marks, IntWidth.text]
  | chan d e => cases d <;> simp [word, marks]
  | bool | string | func _ _ _ | map _ _ | slice _ | ptr _ | any | address => simp [word, marks]

theorem Follows.marked {r : List Char} (h : Follows r) : Marked r := by
  intro c hc
  rcases h c hc with rfl | rfl | rfl <;> decide

theorem marked_tail (i : Ident) (trailing : Bool) {r : List Char} (hr : Follows r) :
    Marked (i.tail trailing ++ r) := by
  cases i with
  | chan d e => cases d <;> simp [tail, Marked, marks]
  | slice e => cases trailing <;> simp [tail, Marked, marks]
  | func _ _ _ | map _ _ | ptr _ | any | address => simp [tail, Marked, marks]
  | bool | int _ | uint _ | float _ | complex _ | string | struct _ => exact hr.marked

theorem named_word {i : Ident} (hi : i ∈ leaves) : named i.word = i := by
  revert i
  decide

theorem named_name {name : String} (h : IsName name) : named name.toList = .struct name := by
  have absent : leaves.find? (·.word = name.toList) = none :=
    List.find?_eq_none.mpr fun i hi => by simpa using h.free i hi
  rw [named, absent]
  simp

theorem read_follows {r : List Char} (hr : Follows r) (w : List Char) :
    Form.read w r = .leaf (named w) := by
  cases r with
  | nil => rfl
  | cons c r => rcases hr c rfl with rfl | rfl | rfl <;> rfl

theorem read_word {i : Ident} (hi : i.Readable) (trailing : Bool) {r : List Char} (hr : Follows r) :
    Form.read i.word (i.tail trailing ++ r) = i.form trailing := by
  cases i with
  | bool | string => exact (read_follows hr _).trans (congrArg Form.leaf (named_word (by decide)))
  | int w | uint w | float w | complex w =>
    exact (read_follows hr _).trans (congrArg Form.leaf (named_word (by cases w <;> decide)))
  | struct name => exact (read_follows hr _).trans (congrArg Form.leaf (named_name hi))
  | chan d e => cases d <;> rfl
  | slice e => cases trailing <;> rfl
  | func _ _ _ | map _ _ | ptr _ | any | address => rfl

theorem form_eq {i j : Ident} (hi : i.Readable) (hj : j.Readable) {b b' : Bool} {r r' : List Char}
    (hr : Follows r) (hr' : Follows r') (h : i.chars b ++ r = j.chars b' ++ r') :
    i.form b = j.form b' ∧ i.tail b ++ r = j.tail b' ++ r' := by
  simp only [chars, List.append_assoc] at h
  obtain ⟨word, tail⟩ := eq_of_marked (unmarked_word hi) (unmarked_word hj) (marked_tail i b hr)
    (marked_tail j b' hr') h
  rw [← read_word hi b hr, ← read_word hj b' hr', word, tail]
  exact ⟨rfl, rfl⟩

theorem head_chars {i : Ident} (hi : i.Readable) (b : Bool) :
    ∀ c ∈ (i.chars b).head?, c ≠ '(' ∧ c ≠ ')' ∧ c ≠ ' ' := by
  cases i with
  | struct name =>
    simp only [chars, word, tail, List.append_nil]
    intro c hc
    have unmarked := hi.unmarked c (List.mem_of_mem_head? hc)
    refine ⟨?_, ?_, ?_⟩ <;> rintro rfl <;> exact unmarked (by decide)
  | int w | uint w | float w | complex w => cases w <;> simp [chars, word]
  | chan d e => cases d <;> simp [chars, word, tail]
  | slice e => cases b <;> simp [chars, word, tail]
  | bool | string | func _ _ _ | map _ _ | ptr _ | any | address => simp [chars, word, tail]

theorem chars_ne_nil {i : Ident} (hi : i.Readable) (b : Bool) : i.chars b ≠ [] := by
  cases i with
  | struct name => simpa [chars, word, tail] using hi.nonempty
  | int w | uint w | float w | complex w => cases w <;> simp [chars, word]
  | chan d e => cases d <;> simp [chars, word, tail]
  | slice e => cases b <;> simp [chars, word, tail]
  | bool | string | func _ _ _ | map _ _ | ptr _ | any | address => simp [chars, word, tail]

section

variable {i j : Ident} {b : Bool}

theorem exists_of_form_func (h : .func = j.form b) : ∃ ps rs v, j = .func ps rs v := by
  cases j <;> simp_all [form]

theorem exists_of_form_chan {d : Direction} (h : .chan d = j.form b) : ∃ e, j = .chan d e := by
  cases j <;> simp_all [form]

theorem exists_of_form_map (h : .map = j.form b) : ∃ k e, j = .map k e := by
  cases j <;> simp_all [form]

theorem exists_of_form_slice {trailing : Bool} (h : .slice trailing = j.form b) :
    b = trailing ∧ ∃ e, j = .slice e := by
  cases j <;> simp_all [form]

theorem exists_of_form_ptr (h : .ptr = j.form b) : ∃ e, j = .ptr e := by
  cases j <;> simp_all [form]

theorem eq_of_form_leaf (h : .leaf i = j.form b) : i = j := by
  cases j <;> simp_all [form]

end

end Ident

/-- Unique reading: where the notation of the type ends in a text is known from the text. -/
def Ident.Reads (i : Ident) : Prop :=
  ∀ {j : Ident}, j.Readable → ∀ {b b' : Bool} {r r' : List Char}, Ident.Follows r →
    Ident.Follows r' → i.chars b ++ r = j.chars b' ++ r' → i = j ∧ r = r'

namespace Idents

def Reads : Idents → Prop
  | .nil => True
  | .cons i is => i.Reads ∧ is.Reads

def behind (b : Bool) (r : List Char) : Idents → List Char
  | .nil => ')' :: r
  | .cons i is => ',' :: ' ' :: ((Idents.cons i is).joined b ++ ')' :: r)

theorem follows_behind (b : Bool) (r : List Char) (is : Idents) :
    Ident.Follows (is.behind b r) := by
  cases is <;> simp [behind, Ident.Follows]

def isLast (b : Bool) : Idents → Bool
  | .nil => b
  | .cons .. => false

theorem joined_cons (b : Bool) (r : List Char) (i : Ident) (is : Idents) :
    (Idents.cons i is).joined b ++ ')' :: r = i.chars (is.isLast b) ++ is.behind b r := by
  cases is <;> simp [joined, Ident.chars, behind, isLast]

theorem joined_ne (b : Bool) {i : Ident} {is : Idents} (hi : i.Readable) (r r' : List Char) :
    (Idents.cons i is).joined b ++ ')' :: r ≠ ')' :: r' := by
  rw [joined_cons]
  intro h
  obtain ⟨c, l, eq⟩ := List.exists_cons_of_ne_nil (Ident.chars_ne_nil hi (is.isLast b))
  rw [eq] at h
  obtain ⟨rfl, _⟩ := List.cons_eq_cons.mp h
  exact (Ident.head_chars hi (is.isLast b) ')' (by rw [eq]; rfl)).2.1 rfl

theorem eq_of_trailing {i : Ident} {b b' : Bool} {r : List Char}
    (last : b = true → ∃ e, i = .slice e) (last' : b' = true → ∃ e, i = .slice e)
    (h : i.chars b ++ r = i.chars b' ++ r) : b = b' := by
  cases b <;> cases b' <;> try rfl
  · obtain ⟨e, rfl⟩ := last' rfl
    simp [Ident.chars, Ident.word, Ident.tail] at h
  · obtain ⟨e, rfl⟩ := last rfl
    simp [Ident.chars, Ident.word, Ident.tail] at h

theorem eq_of_joined {is js : Idents} (reads : is.Reads) (hi : is.Readable) (hj : js.Readable)
    {b b' : Bool} (last : b = true → is.EndsInSlice) (last' : b' = true → js.EndsInSlice)
    {r r' : List Char} (h : is.joined b ++ ')' :: r = js.joined b' ++ ')' :: r') :
    is = js ∧ b = b' ∧ r = r' := by
  match is, js with
  | .nil, .nil =>
    have plain : b = false := Bool.eq_false_iff.mpr last
    have plain' : b' = false := Bool.eq_false_iff.mpr last'
    exact ⟨rfl, plain.trans plain'.symm, (List.cons_eq_cons.mp h).2⟩
  | .nil, .cons j js => exact absurd h.symm (joined_ne b' hj.1 r' r)
  | .cons i is, .nil => exact absurd h (joined_ne b hi.1 r r')
  | .cons i is, .cons j js =>
    rw [joined_cons, joined_cons] at h
    obtain ⟨rfl, rest⟩ := reads.1 hj.1 (follows_behind b r is) (follows_behind b' r' js) h
    match is, js with
    | .nil, .nil =>
      obtain rfl := (List.cons_eq_cons.mp rest).2
      exact ⟨rfl, eq_of_trailing last last' h, rfl⟩
    | .nil, .cons .. => simp [behind] at rest
    | .cons .., .nil => simp [behind] at rest
    | .cons i' is, .cons j' js =>
      have rest : (Idents.cons i' is).joined b ++ ')' :: r =
        (Idents.cons j' js).joined b' ++ ')' :: r' := by simpa [behind] using rest
      obtain ⟨eq, rfl, rfl⟩ := eq_of_joined reads.2 hi.2 hj.2 last last' rest
      exact ⟨congrArg (Idents.cons i) eq, rfl, rfl⟩

theorem single_ne {i : Ident} (hi : i.Readable) (r r' : List Char) :
    i.chars false ++ r ≠ '(' :: r' := by
  intro h
  obtain ⟨c, l, eq⟩ := List.exists_cons_of_ne_nil (Ident.chars_ne_nil hi false)
  rw [eq] at h
  obtain ⟨rfl, _⟩ := List.cons_eq_cons.mp h
  exact (Ident.head_chars hi false '(' (by rw [eq]; rfl)).1 rfl

theorem eq_of_answered {is js : Idents} (reads : is.Reads) (hi : is.Readable) (hj : js.Readable)
    {r r' : List Char} (hr : Ident.Follows r) (hr' : Ident.Follows r')
    (h : is.answered (is.joined false) ++ r = js.answered (js.joined false) ++ r') :
    is = js ∧ r = r' := by
  match is, js with
  | .nil, .nil => exact ⟨rfl, h⟩
  | .nil, .cons j .nil | .nil, .cons j (.cons ..) =>
    subst h
    simp [answered, Ident.Follows] at hr
  | .cons i .nil, .nil | .cons i (.cons ..), .nil =>
    subst h
    simp [answered, Ident.Follows] at hr'
  | .cons i .nil, .cons j .nil =>
    have inner : i.chars false ++ r = j.chars false ++ r' := (List.cons_eq_cons.mp h).2
    obtain ⟨rfl, rfl⟩ := reads.1 hj.1 hr hr' inner
    exact ⟨rfl, rfl⟩
  | .cons i (.cons ..), .cons j .nil =>
    exact absurd (List.cons_eq_cons.mp h).2.symm (single_ne hj.1 _ _)
  | .cons i .nil, .cons j (.cons ..) =>
    exact absurd (List.cons_eq_cons.mp h).2 (single_ne hi.1 _ _)
  | .cons i (.cons i' is), .cons j (.cons j' js) =>
    have inner : (Idents.cons i (.cons i' is)).joined false ++ ')' :: r =
        (Idents.cons j (.cons j' js)).joined false ++ ')' :: r' := by simpa [answered] using h
    obtain ⟨eq, -, rest⟩ := eq_of_joined reads hi hj (by simp) (by simp) inner
    exact ⟨eq, rest⟩

end Idents

mutual

theorem Ident.reads {i : Ident} (hi : i.Readable) : i.Reads := by
  intro j hj b b' r r' hr hr' h
  obtain ⟨form, tail⟩ := Ident.form_eq hi hj hr hr' h
  cases i with
  | ptr e =>
    obtain ⟨e', rfl⟩ := Ident.exists_of_form_ptr form
    have he' : e'.Readable := hj
    have inner : e.chars false ++ r = e'.chars false ++ r' := List.cons_eq_cons.mp tail |>.2
    obtain ⟨rfl, rfl⟩ := Ident.reads (i := e) hi he' hr hr' inner
    exact ⟨rfl, rfl⟩
  | slice e =>
    obtain ⟨rfl, e', rfl⟩ := Ident.exists_of_form_slice form
    have he' : e'.Readable := hj
    simp only [Ident.tail, List.append_assoc] at tail
    have inner : e.chars false ++ r = e'.chars false ++ r' := by
      simpa [Ident.chars] using List.append_cancel_left tail
    obtain ⟨rfl, rfl⟩ := Ident.reads (i := e) hi he' hr hr' inner
    exact ⟨rfl, rfl⟩
  | chan d e =>
    obtain ⟨e', rfl⟩ := Ident.exists_of_form_chan form
    have he' : e'.Readable := hj
    have inner : e.chars false ++ r = e'.chars false ++ r' := by
      cases d <;> simpa [Ident.tail, Ident.chars] using tail
    obtain ⟨rfl, rfl⟩ := Ident.reads (i := e) hi he' hr hr' inner
    exact ⟨rfl, rfl⟩
  | map k e =>
    obtain ⟨k', e', rfl⟩ := Ident.exists_of_form_map form
    have inner : k.chars false ++ (']' :: (e.chars false ++ r)) =
        k'.chars false ++ (']' :: (e'.chars false ++ r')) := by
      simpa [Ident.tail, Ident.chars] using tail
    obtain ⟨rfl, closed⟩ := Ident.reads (i := k) hi.1 hj.1 (by simp [Ident.Follows])
      (by simp [Ident.Follows]) inner
    obtain ⟨rfl, rfl⟩ := Ident.reads (i := e) hi.2 hj.2 hr hr' (List.cons_eq_cons.mp closed).2
    exact ⟨rfl, rfl⟩
  | func ps rs v =>
    obtain ⟨ps', rs', v', rfl⟩ := Ident.exists_of_form_func form
    have inner : ps.joined v ++ ')' :: (rs.answered (rs.joined false) ++ r) =
        ps'.joined v' ++ ')' :: (rs'.answered (rs'.joined false) ++ r') := by
      simpa [Ident.tail] using tail
    obtain ⟨hps, hrs, last⟩ := hi
    obtain ⟨hps', hrs', last'⟩ := hj
    obtain ⟨rfl, rfl, answer⟩ := Idents.eq_of_joined (Idents.reads hps) hps hps' last last' inner
    obtain ⟨rfl, rfl⟩ := Idents.eq_of_answered (Idents.reads hrs) hrs hrs' hr hr' answer
    exact ⟨rfl, rfl⟩
  | bool | int _ | uint _ | float _ | complex _ | string | struct _ | any | address =>
    obtain rfl := Ident.eq_of_form_leaf form
    exact ⟨rfl, List.append_cancel_left tail⟩

theorem Idents.reads {is : Idents} (hi : is.Readable) : is.Reads := by
  cases is with
  | nil => trivial
  | cons i is => exact ⟨Ident.reads hi.1, Idents.reads hi.2⟩

end

mutual

theorem Ty.toList_notated (t : Ty) (b : Bool) : (t.notated b).toList = t.ident.chars b := by
  cases t with
  | bool | string | any | address =>
    simp [Ty.notated, Ty.ident, Ident.chars, Ident.word, Ident.tail]
  | int w | uint w =>
    simp [Ty.notated, Ty.ident, Ident.chars, Ident.word, Ident.tail]
  | float w | complex w =>
    cases w <;> simp [Ty.notated, Ty.ident, Ident.chars, Ident.word, Ident.tail]
  | struct t => simp [Ty.notated, Ty.ident, Ident.chars, Ident.word, Ident.tail]
  | func sig => exact Signature.toList_text sig b
  | chan d e =>
    cases d <;> simp [Ty.notated, Direction.text, Ty.ident, Ident.chars, Ident.word, Ident.tail,
      Ty.toList_notated e]
  | map k e =>
    simp [Ty.notated, Ty.ident, Ident.chars, Ident.word, Ident.tail, Ty.toList_notated k,
      Ty.toList_notated e]
  | slice e =>
    cases b <;> simp [Ty.notated, Ty.ident, Ident.chars, Ident.word, Ident.tail,
      Ty.toList_notated e]
  | ptr e =>
    simp [Ty.notated, Ty.ident, Ident.chars, Ident.word, Ident.tail, Ty.toList_notated e]

theorem Signature.toList_text (sig : Signature) (b : Bool) :
    sig.text.toList = sig.ident.chars b := by
  obtain ⟨params, results, variadic⟩ := sig
  have hps := Ty.toList_texts params variadic
  have hrs := Ty.toList_texts results false
  simp only [Signature.text, Signature.ident, Ident.chars, Ident.word, Ident.tail, ← hps, ← hrs]
  match results with
  | [] => simp [Ty.texts, Ty.idents, Idents.answered]
  | [r] => simp [Ty.texts, Ty.idents, Idents.answered]
  | r :: r' :: rs => simp [Ty.texts, Ty.idents, Idents.answered]

theorem Ty.toList_texts (ts : List Ty) (b : Bool) :
    (", ".intercalate (Ty.texts b ts)).toList = (Ty.idents ts).joined b := by
  match ts with
  | [] => rfl
  | [t] => simp [Ty.texts, Ty.idents, Idents.joined, Ty.toList_notated t, Ident.chars]
  | t :: u :: ts =>
    have rest := Ty.toList_texts (u :: ts) b
    have first := Ty.toList_notated t false
    simp only [Ty.texts, String.toList_intercalate, List.map_cons] at rest
    simp only [Ty.texts, Ty.idents, Idents.joined, List.isEmpty_cons, Bool.and_false,
      String.toList_intercalate, List.map_cons, List.intercalate_cons_cons, rest, first,
      Ident.chars]
    simp

end

theorem Ty.toList_text (t : Ty) : t.text.toList = t.ident.chars false := t.toList_notated false

/-- No word that ends in an `s` has a space behind it. -/
def Gapless (l : List Char) : Prop := l.IsChain fun c d => c = 's' → d ≠ ' '

namespace Gapless

theorem nil : Gapless [] := List.isChain_nil

theorem cons {c : Char} {l : List Char} (hl : Gapless l) (h : c ≠ 's') : Gapless (c :: l) :=
  List.isChain_cons.mpr ⟨fun _ _ eq => absurd eq h, hl⟩

theorem append {l r : List Char} (hl : Gapless l) (hr : Gapless r) (h : ∀ c ∈ r.head?, c ≠ ' ') :
    Gapless (l ++ r) := List.isChain_append.mpr ⟨hl, hr, fun _ _ d hd _ => h d hd⟩

theorem of_spaceless {l : List Char} (h : ' ' ∉ l) : Gapless l := by
  induction l with
  | nil => exact nil
  | cons c l ih =>
    obtain ⟨_, rest⟩ := List.ne_and_not_mem_of_not_mem_cons h
    refine List.isChain_cons.mpr ⟨?_, ih rest⟩
    rintro d hd _ rfl
    exact rest (List.mem_of_mem_head? hd)

theorem not_gap {l : List Char} (p : List Char) : ¬Gapless (p ++ 's' :: ' ' :: l) := by
  intro h
  have tail := (List.isChain_append.mp h).2.1
  exact (List.isChain_cons_cons.mp tail).1 rfl rfl

theorem cut {l m r r' : List Char} (hl' : Gapless (l ++ m)) (hr : Gapless r)
    (h : ' ' :: 'a' :: 's' :: ' ' :: r = m ++ ' ' :: 'a' :: 's' :: ' ' :: r') : m = [] := by
  match m with
  | [] => rfl
  | [_] | [_, _] => simp at h
  | [_, _, _] =>
    obtain ⟨-, -, -, rfl⟩ : _ ∧ _ ∧ _ ∧ r = 'a' :: 's' :: ' ' :: r' := by simpa using h
    exact absurd hr (not_gap ['a'])
  | c :: c' :: d :: e :: m =>
    obtain ⟨rfl, rfl, rfl, rfl, _⟩ : c = ' ' ∧ c' = 'a' ∧ d = 's' ∧ e = ' ' ∧
      r = m ++ ' ' :: 'a' :: 's' :: ' ' :: r' := by
      simp only [List.cons_append, List.cons.injEq] at h
      obtain ⟨h₁, h₂, h₃, h₄, h₅⟩ := h
      exact ⟨h₁.symm, h₂.symm, h₃.symm, h₄.symm, h₅⟩
    exact absurd hl' (by simpa using not_gap (l ++ [' ', 'a']))

/-- A text in which a gapless one stands on either side of ` as ` is cut there in one way only. -/
theorem eq_of_as {l l' r r' : List Char} (hl : Gapless l) (hl' : Gapless l') (hr : Gapless r)
    (hr' : Gapless r')
    (h : l ++ ' ' :: 'a' :: 's' :: ' ' :: r = l' ++ ' ' :: 'a' :: 's' :: ' ' :: r') :
    l = l' ∧ r = r' := by
  obtain ⟨m, rfl, rest⟩ | ⟨m, rfl, rest⟩ := List.append_eq_append_iff.mp h
  · obtain rfl := cut hl' hr rest
    simpa using rest
  · obtain rfl := cut hl hr' rest
    simpa using rest.symm

end Gapless

mutual

theorem Ident.gapless {i : Ident} (hi : i.Readable) (b : Bool) : Gapless (i.chars b) := by
  cases i with
  | bool | string | any | address => simp [Gapless, Ident.chars, Ident.word, Ident.tail]
  | int w | uint w | float w | complex w =>
    cases w <;> simp [Gapless, Ident.chars, Ident.word, Ident.tail, IntWidth.text]
  | struct name =>
    refine .of_spaceless ?_
    simp only [Ident.chars, Ident.word, Ident.tail, List.append_nil]
    intro h
    exact hi.unmarked ' ' h (by decide)
  | ptr e => exact (Ident.gapless (i := e) hi false).cons (by decide)
  | chan d e =>
    have inner := Ident.gapless (i := e) hi false
    cases d <;> simpa [Gapless, Ident.chars, Ident.word, Ident.tail, List.isChain_cons] using inner
  | slice e =>
    have inner := Ident.gapless (i := e) hi false
    cases b <;> simpa [Gapless, Ident.chars, Ident.word, Ident.tail, List.isChain_cons] using inner
  | map k e =>
    have key := Ident.gapless (i := k) hi.1 false
    have elem := Ident.gapless (i := e) hi.2 false
    have both : Gapless (k.chars false ++ ']' :: e.chars false) :=
      key.append (elem.cons (by decide)) (by simp)
    simpa [Gapless, Ident.chars, Ident.word, Ident.tail, List.isChain_cons] using both
  | func ps rs v =>
    have params : Gapless (ps.joined v) := Idents.gapless hi.1 v
    have results : Gapless (rs.joined false) := Idents.gapless hi.2.1 false
    have answer : Gapless (')' :: rs.answered (rs.joined false)) := by
      match rs with
      | .nil => simp [Gapless, Idents.answered]
      | .cons _ .nil =>
        simpa [Gapless, Idents.answered, List.isChain_cons] using results
      | .cons _ (.cons ..) =>
        have closed := results.append (r := [')']) (by simp [Gapless]) (by simp)
        simpa [Gapless, Idents.answered, List.isChain_cons] using closed
    have both := params.append answer (by simp)
    simpa [Gapless, Ident.chars, Ident.word, Ident.tail, List.isChain_cons] using both

theorem Idents.gapless {is : Idents} (hi : is.Readable) (b : Bool) : Gapless (is.joined b) := by
  match is with
  | .nil => exact .nil
  | .cons i .nil => exact Ident.gapless hi.1 b
  | .cons i (.cons j is) =>
    have first := Ident.gapless hi.1 false
    have rest := Idents.gapless hi.2 b
    have spaced : Gapless (' ' :: (Idents.cons j is).joined b) := rest.cons (by decide)
    exact first.append (spaced.cons (by decide)) (by simp)

end

namespace Ty

theorem equivalence_same : Equivalence fun t u : Ty => t.same u = true where
  refl t := by simp
  symm h := by simpa using (same_iff.mp h).symm
  trans h h' := by simpa using (same_iff.mp h).trans (same_iff.mp h')

variable {t u : Ty}

theorem text_eq_iff (ht : t.ident.Readable) (hu : u.ident.Readable) :
    t.text = u.text ↔ t.same u = true := by
  rw [same_iff]
  constructor
  · intro h
    have chars : t.ident.chars false ++ [] = u.ident.chars false ++ [] := by
      rw [← toList_text, ← toList_text, h]
    exact (Ident.reads ht hu (by simp [Ident.Follows]) (by simp [Ident.Follows]) chars).1
  · intro h
    rw [← String.toList_inj, toList_text, toList_text, h]

inductive Got : String → Prop
  | value (v : Value) : v.type.ident.Readable → Got v.typeText
  | script (x : Script) : Got x.typeText

theorem text_gapless (ht : t.ident.Readable) : Gapless t.text.toList := by
  rw [toList_text]
  exact Ident.gapless ht false

theorem typeText_eq {v : Value} (h : v.isNil = false) : v.typeText = v.type.text := by
  cases v <;> first | rfl | cases h

theorem Got.gapless {got : String} (h : Got got) : Gapless got.toList := by
  cases h with
  | value v hv =>
    cases nil : v.isNil with
    | true =>
      cases v <;> cases nil
      simp [Gapless, Value.typeText]
    | false =>
      rw [typeText_eq nil]
      exact text_gapless hv
  | script x => cases x <;> simp [Gapless, Script.typeText]

structure Faithful (t u : Ty) : Prop where
  text : t.text = u.text ↔ t.same u = true
  value : ∀ {v w : Value}, v.isNil = false → w.isNil = false → v.type = t → w.type = u →
    (v.typeText = w.typeText ↔ t.same u = true)
  constructor : ∀ {i j set set' : Nat} {st st' : Store},
    Script.text st (.handle ⟨i, .type t, some ⟨set, .type⟩⟩) =
      Script.text st' (.handle ⟨j, .type u, some ⟨set', .type⟩⟩) ↔ t.same u = true
  hostMismatch : ∀ {got got' : String},
    (HostError.typeMismatch t.text got).message = (HostError.typeMismatch u.text got').message ↔
      t.same u = true ∧ got = got'
  bridgeMismatch : ∀ {got got' : String}, Got got → Got got' →
    ((BridgeError.typeMismatch t.text got).message =
      (BridgeError.typeMismatch u.text got').message ↔ t.same u = true ∧ got = got')

theorem hostMismatch_eq_iff (ht : t.ident.Readable) (hu : u.ident.Readable) {got got' : String} :
    (HostError.typeMismatch t.text got).message = (HostError.typeMismatch u.text got').message ↔
      t.same u = true ∧ got = got' := by
  rw [← text_eq_iff ht hu]
  constructor
  · intro h
    have chars : ("type mismatch: expected " ++ t.text ++ ", got " ++ got).toList =
        ("type mismatch: expected " ++ u.text ++ ", got " ++ got').toList :=
      congrArg String.toList h
    simp only [String.toList_append, List.append_assoc, List.append_right_inj, toList_text] at chars
    have follows (got : String) : Ident.Follows (", got ".toList ++ got.toList) := by
      simp [Ident.Follows]
    obtain ⟨eq, rest⟩ := Ident.reads ht hu (follows got) (follows got') chars
    refine ⟨?_, String.toList_inj.mp (List.append_cancel_left rest)⟩
    rw [← String.toList_inj, toList_text, toList_text, eq]
  · rintro ⟨eq, rfl⟩
    rw [eq]

theorem bridgeMismatch_eq_iff (ht : t.ident.Readable) (hu : u.ident.Readable) {got got' : String}
    (hgot : Got got) (hgot' : Got got') :
    (BridgeError.typeMismatch t.text got).message =
      (BridgeError.typeMismatch u.text got').message ↔ t.same u = true ∧ got = got' := by
  rw [← text_eq_iff ht hu]
  refine ⟨fun h => ?_, ?_⟩
  · have chars := congrArg String.toList h
    simp only [BridgeError.message, String.toList_append, List.append_assoc,
      List.append_right_inj] at chars
    have as : " as ".toList = [' ', 'a', 's', ' '] := by simp
    rw [as] at chars
    obtain ⟨eq, eq'⟩ :=
      Gapless.eq_of_as hgot.gapless hgot'.gapless (text_gapless ht) (text_gapless hu) chars
    exact ⟨String.toList_inj.mp eq', String.toList_inj.mp eq⟩
  · rintro ⟨eq, rfl⟩
    rw [eq]

/-- The notation of types is faithful, and so is whatever names a type by it: a text of a type, of
a value's type, of a type constructor, and a message that says which type was expected. -/
theorem text_faithful (ht : t.ident.Readable) (hu : u.ident.Readable) :
    (Equivalence fun a b : Ty => a.same b = true) ∧ Faithful t u := by
  refine ⟨equivalence_same, ?_⟩
  exact {
    text := text_eq_iff ht hu
    value := by
      rintro v w hv hw rfl rfl
      rw [typeText_eq hv, typeText_eq hw]
      exact text_eq_iff ht hu
    constructor := by
      intro i j set set' st st'
      rw [← text_eq_iff ht hu]
      constructor
      · intro h
        have whole := congrArg String.toList h
        simp only [Script.text, Handle.text, Handle.kind?, Option.map_some,
          String.toList_append] at whole
        exact String.toList_inj.mp (List.append_cancel_left whole)
      · intro h
        simp only [Script.text, Handle.text, Handle.kind?, Option.map_some, h]
    hostMismatch := hostMismatch_eq_iff ht hu
    bridgeMismatch := bridgeMismatch_eq_iff ht hu }

theorem text_faithful_arrows :
    let port : Ty := .struct ⟨"Port", [], []⟩
    let sig (channel : Ty) : Ty := .func ⟨[channel, .slice (.func ⟨[], [], false⟩)],
      [port, .func ⟨[], [port], false⟩], true⟩
    let t := sig (.chan .both (.chan .receive port))
    let u := sig (.chan .send (.chan .both port))
    t.ident.Readable ∧ u.ident.Readable ∧
      t.text = "func(chan <-chan Port, ...func()) (Port, func() Port)" ∧ t.same u = false ∧
      (Equivalence fun a b : Ty => a.same b = true) ∧ Faithful t u := by
  intro port sig t u
  have name : Ident.IsName "Port" := ⟨by decide, by simp [Ident.marks], by decide⟩
  have readable {channel : Ty} (h : channel.ident.Readable) : (sig channel).ident.Readable :=
    ⟨⟨h, ⟨trivial, trivial, nofun⟩, trivial⟩, ⟨name, ⟨trivial, ⟨name, trivial⟩, nofun⟩, trivial⟩,
      fun _ => ⟨_, rfl⟩⟩
  have ht : t.ident.Readable := readable name
  have hu : u.ident.Readable := readable name
  exact ⟨ht, hu, by decide, by decide, text_faithful ht hu⟩

end Ty

end HostBridge
