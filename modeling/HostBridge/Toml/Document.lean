import HostBridge.Toml.Scalar
import HostBridge.Toml.Text

namespace HostBridge

inductive Toml.Origin
  | braces
  | header
  | implicit
  | dotted
  deriving DecidableEq

inductive Toml
  | string (s : String)
  | scalar
  | array (items : List Toml)
  | table (origin : Toml.Origin) (entries : List (String × Toml))
  | tables (all : List (List (String × Toml)))

namespace Toml

abbrev Entries := List (String × Toml)

def replace (key : String) (v : Toml) (es : Entries) : Entries :=
  es.map fun (k, old) => (k, if k = key then v else old)

/-- Put a value under a free key of the table that a path leads to. With `origin` a missing table
on the way is made; one that is there may be entered as `origin` allows. -/
def descend (origin : Origin) (change : Origin → Entries → Option Entries) :
    List String → Origin → Entries → Option Entries
  | [], own, es => change own es
  | key :: path, _, es =>
    match es.lookup key with
    | none => do
      let inner ← descend origin change path origin []
      return es ++ [(key, .table origin inner)]
    | some (.table own inner) => do
      guard (own != .braces)
      guard (origin != .dotted || own != .header)
      return replace key (.table own (← descend origin change path own inner)) es
    | some (.tables (last :: others)) => do
      return replace key (.tables ((← descend origin change path .header last) :: others)) es
    | some _ => none

def insertNew (key : String) (v : Toml) (es : Entries) : Option Entries :=
  if (es.lookup key).isSome then none else some (es ++ [(key, v)])

/-- A key and its value; a dotted key does not reach into a table that was made otherwise. -/
def insertPair (parts : List String) (v : Toml) (es : Entries) : Option Entries :=
  match parts.getLast? with
  | none => none
  | some key =>
    descend .dotted
      (fun own es => do
        guard (parts.dropLast.isEmpty || own = .dotted)
        insertNew key v es)
      parts.dropLast .header es

abbrev Reader := List Char → Option (Toml × List Char)

def items (value : Reader) : Nat → List Toml → List Char → Option (List Toml × List Char)
  | 0, _, _ => none
  | fuel + 1, read, cs =>
    match cs with
    | ']' :: r => some (read.reverse, r)
    | cs => do
      let (v, r) ← value cs
      match skipLines (r.length + 1) r with
      | ',' :: r => items value fuel (v :: read) (skipLines (r.length + 1) r)
      | ']' :: r => return ((v :: read).reverse, r)
      | _ => none

def pair (value : Reader) (cs : List Char) : Option (List String × Toml × List Char) := do
  let (parts, r) ← key? cs
  let '=' :: r := skipBlanks r | none
  let (v, r) ← value (skipBlanks r)
  return (parts, v, r)

def pairs (value : Reader) : Nat → Entries → List Char → Option (Entries × List Char)
  | 0, _, _ => none
  | fuel + 1, es, cs => do
    let (parts, v, r) ← pair value cs
    let es ← insertPair parts v es
    match skipBlanks r with
    | ',' :: r => pairs value fuel es r
    | '\x7d' :: r => return (es, r)
    | _ => none

def single : Reader
  | '"' :: r => (string? ('"' :: r)).map fun (s, r) => (.string s, r)
  | '\'' :: r => (string? ('\'' :: r)).map fun (s, r) => (.string s, r)
  | cs =>
    let (word, r) := token cs
    if isScalar word then some (.scalar, r) else none

/-- A value with arrays and tables at most `depth` within one another; a further bracket or brace
starts no token and is refused. -/
def value : Nat → Reader
  | 0, cs => single cs
  | depth + 1, cs =>
    match cs with
    | '[' :: r => do
      let (vs, r) ← items (value depth) (r.length + 1) [] (skipLines (r.length + 1) r)
      return (.array vs, r)
    | '\x7b' :: r =>
      match skipBlanks r with
      | '\x7d' :: r => some (.table .braces [], r)
      | r => do
        let (es, r) ← pairs (value depth) (r.length + 1) [] r
        return (.table .braces es, r)
    | cs => single cs

def openTable (path : List String) (root : Entries) : Option Entries := do
  let key ← path.getLast?
  descend .implicit
    (fun _ es =>
      match es.lookup key with
      | none => some (es ++ [(key, .table .header [])])
      | some (.table .implicit inner) => some (replace key (.table .header inner) es)
      | some _ => none)
    path.dropLast .header root

def openNext (path : List String) (root : Entries) : Option Entries := do
  let key ← path.getLast?
  descend .implicit
    (fun _ es =>
      match es.lookup key with
      | none => some (es ++ [(key, .tables [[]])])
      | some (.tables all) => some (replace key (.tables ([] :: all)) es)
      | some _ => none)
    path.dropLast .header root

def document : Nat → List String → Entries → List Char → Option Entries
  | 0, _, _, _ => none
  | fuel + 1, path, root, cs =>
    match skipBlanks cs with
    | [] => some root
    | '[' :: '[' :: r => do
      let (path, r) ← key? r
      let ']' :: ']' :: r := r | none
      document fuel path (← openNext path root) (← lineEnd? r)
    | '[' :: r => do
      let (path, r) ← key? r
      let ']' :: r := r | none
      document fuel path (← openTable path root) (← lineEnd? r)
    | c :: r =>
      if c == '#' || (newline? (c :: r)).isSome then do
        document fuel path root (← lineEnd? (c :: r))
      else do
        let (parts, v, r) ← pair (value nestingLimit) (c :: r)
        let root ← descend .implicit (fun _ es => insertPair parts v es) path .header root
        document fuel path root (← lineEnd? r)

def parse (s : String) : Option Entries :=
  let cs := match s.toList with
    | '\ufeff' :: r => r
    | cs => cs
  document (cs.length + 1) [] [] cs

end Toml

end HostBridge
