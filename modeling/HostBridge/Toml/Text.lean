/-! The lexical layer of TOML: blanks, comments, line ends, strings and keys. A reader takes the
characters it wants from the front of the rest of a document and gives back what follows. -/

namespace HostBridge.Toml

def isBlank (c : Char) : Bool := c == ' ' || c == '\t'

def isPlain (c : Char) : Bool := c == '\t' || (0x20 ≤ c.val && c.val != 0x7f)

def skipBlanks (cs : List Char) : List Char := cs.dropWhile isBlank

def newline? : List Char → Option (List Char)
  | '\n' :: r => some r
  | '\r' :: '\n' :: r => some r
  | _ => none

def lineEnd? (cs : List Char) : Option (List Char) :=
  let r := match skipBlanks cs with
    | '#' :: r => r.dropWhile isPlain
    | r => r
  if r.isEmpty then some [] else newline? r

def skipLines : Nat → List Char → List Char
  | 0, cs => cs
  | fuel + 1, cs =>
    match skipBlanks cs with
    | '#' :: r =>
      match newline? (r.dropWhile isPlain) with
      | some r => skipLines fuel r
      | none => '#' :: r
    | r =>
      match newline? r with
      | some r => skipLines fuel r
      | none => r

def skipSpace : Nat → List Char → List Char
  | 0, cs => cs
  | fuel + 1, cs =>
    match newline? (skipBlanks cs) with
    | some r => skipSpace fuel r
    | none => skipBlanks cs

def hexDigit? (c : Char) : Option Nat :=
  if '0' ≤ c && c ≤ '9' then some (c.toNat - '0'.toNat)
  else if 'a' ≤ c && c ≤ 'f' then some (c.toNat - 'a'.toNat + 10)
  else if 'A' ≤ c && c ≤ 'F' then some (c.toNat - 'A'.toNat + 10)
  else none

def codePoint? (n : Nat) (cs : List Char) : Option (Char × List Char) := do
  let digits ← (cs.take n).mapM hexDigit?
  guard (digits.length = n)
  let v := digits.foldl (16 * · + ·) 0
  guard v.isValidChar
  return (Char.ofNat v, cs.drop n)

def escape? : List Char → Option (Char × List Char)
  | 'b' :: r => some ('\x08', r)
  | 't' :: r => some ('\t', r)
  | 'n' :: r => some ('\n', r)
  | 'f' :: r => some ('\x0c', r)
  | 'r' :: r => some ('\r', r)
  | '"' :: r => some ('"', r)
  | '\\' :: r => some ('\\', r)
  | 'u' :: r => codePoint? 4 r
  | 'U' :: r => codePoint? 8 r
  | _ => none

def line? (quote : Char) : Nat → List Char → List Char → Option (String × List Char)
  | 0, _, _ | _, _, [] => none
  | fuel + 1, read, c :: r =>
    if c = quote then some (String.ofList read.reverse, r)
    else if c = '\\' && quote = '"' then do
      let (e, r) ← escape? r
      line? quote fuel (e :: read) r
    else if isPlain c then line? quote fuel (c :: read) r
    else none

/-- The rest of a string in three quotes. Up to two quotes more belong to its text. -/
def lines? (quote : Char) : Nat → List Char → List Char → Option (String × List Char)
  | 0, _, _ | _, _, [] => none
  | fuel + 1, read, c :: r =>
    if c = quote then
      let n := min 5 ((c :: r).takeWhile (· == quote)).length
      let rest := (c :: r).drop n
      if n < 3 then lines? quote fuel (List.replicate n quote ++ read) rest
      else some (String.ofList (List.replicate (n - 3) quote ++ read).reverse, rest)
    else if c = '\\' && quote = '"' then
      match newline? (skipBlanks r) with
      | some r => lines? quote fuel read (skipSpace (r.length + 1) r)
      | none => do
        let (e, r) ← escape? r
        lines? quote fuel (e :: read) r
    else
      match newline? (c :: r) with
      | some r => lines? quote fuel ('\n' :: read) r
      | none => if isPlain c then lines? quote fuel (c :: read) r else none

def string? : List Char → Option (String × List Char)
  | '"' :: '"' :: '"' :: r => lines? '"' (r.length + 1) [] ((newline? r).getD r)
  | '\'' :: '\'' :: '\'' :: r => lines? '\'' (r.length + 1) [] ((newline? r).getD r)
  | '"' :: r => line? '"' (r.length + 1) [] r
  | '\'' :: r => line? '\'' (r.length + 1) [] r
  | _ => none

def isBare (c : Char) : Bool := c.isAlphanum || c == '-' || c == '_'

def keyPart? : List Char → Option (String × List Char)
  | '"' :: r => line? '"' (r.length + 1) [] r
  | '\'' :: r => line? '\'' (r.length + 1) [] r
  | cs =>
    let name := cs.takeWhile isBare
    if name.isEmpty then none else some (String.ofList name, cs.dropWhile isBare)

def nestingLimit : Nat := 79

def keyParts? (count : Nat) (cs : List Char) : Option (List String × List Char) :=
  match count with
  | 0 => none
  | count + 1 => do
    let (part, r) ← keyPart? (skipBlanks cs)
    match skipBlanks r with
    | '.' :: r =>
      let (parts, r) ← keyParts? count r
      return (part :: parts, r)
    | r => return ([part], r)

def key? (cs : List Char) : Option (List String × List Char) := keyParts? nestingLimit cs

end HostBridge.Toml
