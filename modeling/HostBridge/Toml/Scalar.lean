namespace HostBridge.Toml

def digits? (isDigit : Char → Bool) : List Char → Option (List Char)
  | [] => none
  | [c] => if isDigit c then some [c] else none
  | c :: '_' :: r => if isDigit c then (digits? isDigit r).map (c :: ·) else none
  | c :: r => if isDigit c then (digits? isDigit r).map (c :: ·) else none

def digitValue (c : Char) : Nat :=
  if c.isDigit then c.toNat - '0'.toNat else c.toLower.toNat - 'a'.toNat + 10

def number (base : Nat) (cs : List Char) : Nat :=
  cs.foldl (fun n c => base * n + digitValue c) 0

def unsigned : List Char → Bool × List Char
  | '-' :: r => (true, r)
  | '+' :: r => (false, r)
  | r => (false, r)

/-- Decimal digits of a whole part: no zero in front of others. -/
def whole? (cs : List Char) : Option (List Char) :=
  match cs with
  | '0' :: _ :: _ => none
  | cs => digits? Char.isDigit cs

def isInteger (cs : List Char) : Bool :=
  let below (base : Nat) (isDigit : Char → Bool) (cs : List Char) :=
    match digits? isDigit cs with
    | some ds => number base ds < 0x8000000000000000
    | none => false
  match cs with
  | '0' :: 'x' :: r => below 16 (fun c => c.isDigit || ('a' ≤ c.toLower && c.toLower ≤ 'f')) r
  | '0' :: 'o' :: r => below 8 (fun c => '0' ≤ c && c ≤ '7') r
  | '0' :: 'b' :: r => below 2 (fun c => c == '0' || c == '1') r
  | cs =>
    let (negative, r) := unsigned cs
    match whole? r with
    | some ds =>
      number 10 ds < 0x8000000000000000 || negative && number 10 ds == 0x8000000000000000
    | none => false

def overflows (m : Nat) (e : Int) : Bool :=
  let width := (Nat.toDigits 10 m).length + e
  if m = 0 || width < 309 then false
  else if 310 < width then true
  else ((1 <<< 1024) - (1 <<< 970)) * Nat.pow 10 (-e).toNat ≤ m * Nat.pow 10 e.toNat

/-- A fraction or an exponent follows the whole part; only negative numbers may overflow. -/
def isFloat (cs : List Char) : Bool :=
  let (negative, r) := unsigned cs
  if r = ['i', 'n', 'f'] || r = ['n', 'a', 'n'] then true
  else
    let isExponent (c : Char) := c == 'e' || c == 'E'
    let mantissa := r.takeWhile (!isExponent ·)
    let exponent := r.dropWhile (!isExponent ·)
    let whole := mantissa.takeWhile (· != '.')
    let fraction := mantissa.dropWhile (· != '.')
    let parts := do
      let w ← whole? whole
      let f ← match fraction with
        | [] => some []
        | _ :: f => digits? Char.isDigit f
      let e ← match exponent with
        | [] => some (0 : Int)
        | _ :: e =>
          let (minus, e) := unsigned e
          (digits? Char.isDigit e).map fun ds =>
            if minus then -(number 10 ds : Int) else number 10 ds
      return (number 10 (w ++ f), e - f.length)
    match parts with
    | some (m, e) =>
      !(fraction.isEmpty && exponent.isEmpty) && (negative || !overflows m e)
    | none => false

def digitsOf (n : Nat) (cs : List Char) : Option (Nat × List Char) :=
  let ds := cs.take n
  if ds.length = n && ds.all Char.isDigit then some (number 10 ds, cs.drop n) else none

def daysIn (year month : Nat) : Nat :=
  if month = 2 then
    if year % 4 = 0 && (year % 100 != 0 || year % 400 = 0) then 29 else 28
  else if month = 4 || month = 6 || month = 9 || month = 11 then 30
  else 31

def date? (cs : List Char) : Option (List Char) := do
  let (year, r) ← digitsOf 4 cs
  let '-' :: r := r | none
  let (month, r) ← digitsOf 2 r
  let '-' :: r := r | none
  let (day, r) ← digitsOf 2 r
  guard (1 ≤ month && month ≤ 12 && 1 ≤ day && day ≤ daysIn year month)
  return r

def hourMinute? (cs : List Char) : Option (List Char) := do
  let (hour, r) ← digitsOf 2 cs
  let ':' :: r := r | none
  let (minute, r) ← digitsOf 2 r
  guard (hour ≤ 23 && minute ≤ 59)
  return r

def time? (cs : List Char) : Option (List Char) := do
  let ':' :: r ← hourMinute? cs | none
  let (second, r) ← digitsOf 2 r
  guard (second ≤ 60)
  match r with
  | '.' :: c :: r =>
    guard c.isDigit
    return r.dropWhile Char.isDigit
  | '.' :: [] => none
  | r => return r

def isOffset : List Char → Bool
  | [] => true
  | [c] => c == 'z' || c == 'Z'
  | c :: r => (c == '+' || c == '-') && hourMinute? r == some []

/-- A time of day, or a date with or without one; an offset needs both. -/
def isDateTime (cs : List Char) : Bool :=
  match date? cs with
  | some [] => true
  | some (c :: r) =>
    (c == 'T' || c == 't' || c == ' ') &&
      match time? r with
      | some r => isOffset r
      | none => false
  | none => time? cs == some []

def isTokenChar (c : Char) : Bool :=
  c.isAlphanum || c == '+' || c == '-' || c == '.' || c == '_' || c == ':'

def token (cs : List Char) : List Char × List Char :=
  let word := cs.takeWhile isTokenChar
  let rest := cs.dropWhile isTokenChar
  match date? word, rest with
  | some [], ' ' :: c :: r =>
    if c.isDigit then
      (word ++ ' ' :: (c :: r).takeWhile isTokenChar, (c :: r).dropWhile isTokenChar)
    else (word, rest)
  | _, _ => (word, rest)

def isScalar (cs : List Char) : Bool :=
  cs = ['t', 'r', 'u', 'e'] || cs = ['f', 'a', 'l', 's', 'e'] || isInteger cs || isFloat cs ||
    isDateTime cs

end HostBridge.Toml
