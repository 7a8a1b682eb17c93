import SpecAtlas.Text.Decimal
import SpecAtlas.Toml.Text
import SpecAtlas.Toml.Value

/-!
Numbers, dates and times of TOML. Digits may be parted by single underscores.
-/

namespace SpecAtlas.Toml

def moreDigits? (isDigit : Char → Bool) : List Char → Option (List Char × List Char)
  | [] => some ([], [])
  | ['_'] => none
  | '_' :: c :: rest => if isDigit c then (moreDigits? isDigit rest).map (prepend c) else none
  | c :: rest =>
    if isDigit c then (moreDigits? isDigit rest).map (prepend c) else some ([], c :: rest)

def digits? (isDigit : Char → Bool) : List Char → Option (List Char × List Char)
  | c :: rest => if isDigit c then (moreDigits? isDigit rest).map (prepend c) else none
  | [] => none

def sign : List Char → Bool × List Char
  | '-' :: rest => (true, rest)
  | '+' :: rest => (false, rest)
  | s => (false, s)

def decimal? : List Char → Option (List Char × List Char)
  | '0' :: rest => some (['0'], rest)
  | s => digits? Char.isDigit s

def fraction? : List Char → Option (List Char × List Char)
  | '.' :: rest => digits? Char.isDigit rest
  | s => some ([], s)

structure Exponent where
  negative : Bool
  digits : List Char

def exponent? : List Char → Option (Option Exponent × List Char)
  | [] => some (none, [])
  | c :: rest =>
    if c == 'e' || c == 'E' then do
      let (negative, rest) := sign rest
      let (digits, rest) ← digits? Char.isDigit rest
      return (some { negative, digits }, rest)
    else some (none, c :: rest)

/-- The least number that no finite floating-point number of 64 bits is nearest to. -/
def floatBound : Nat := Nat.pow 2 1024 - Nat.pow 2 970

/-- Whether `n * 10 ^ e` reaches the bound of floating-point numbers. Numbers of more than 310 or
fewer than 308 digits before the point need no computation. -/
def overflows (n : Nat) (e : Int) : Bool :=
  let width := (Text.digits n).length + e
  if n == 0 || width < 308 then false
  else if 310 < width then true
  else if 0 ≤ e then floatBound ≤ n * Nat.pow 10 e.toNat
  else floatBound * Nat.pow 10 (-e).toNat ≤ n

def float? (negative : Bool) (whole frac : List Char) (exp : Option Exponent) (text : String) :
    Option Value :=
  let power : Int := match exp with
    | some x => if x.negative then -(Text.ofDigits x.digits : Int) else Text.ofDigits x.digits
    | none => 0
  if !negative && overflows (Text.ofDigits (whole ++ frac)) (power - frac.length) then none
  else some (.float text)

def written (s rest : List Char) : String := String.ofList (s.take (s.length - rest.length))

def integer? (i : Int) : Option Value :=
  if Int64.minValue.toInt ≤ i && i ≤ Int64.maxValue.toInt then some (.integer i) else none

def based? (base : Nat) (isDigit : Char → Bool) (s : List Char) :
    Option (Value × List Char) := do
  let (digits, rest) ← digits? isDigit s
  let n := digits.foldl (fun n c => n * base + (Json.hexValue? c).getD 0) 0
  return (← integer? n, rest)

def decimalNumber? (s : List Char) : Option (Value × List Char) := do
  let (negative, unsigned) := sign s
  let (whole, rest) ← decimal? unsigned
  let (frac, rest) ← fraction? rest
  let (exp, rest) ← exponent? rest
  if frac.isEmpty && exp.isNone then
    let n : Int := Text.ofDigits whole
    return (← integer? (if negative then -n else n), rest)
  else
    return (← float? negative whole frac exp (written s rest), rest)

def afterWord? (word : String) (s : List Char) : Option (List Char) :=
  if word.toList.isPrefixOf s then some (s.drop word.length) else none

def specialFloat? (s : List Char) : Option (Value × List Char) := do
  let (_, unsigned) := sign s
  let rest ← (afterWord? "inf" unsigned).or (afterWord? "nan" unsigned)
  return (.float (written s rest), rest)

def number? : List Char → Option (Value × List Char)
  | '0' :: 'x' :: rest => based? 16 (fun c => (Json.hexValue? c).isSome) rest
  | '0' :: 'o' :: rest => based? 8 (fun c => '0' ≤ c && c ≤ '7') rest
  | '0' :: 'b' :: rest => based? 2 (fun c => c == '0' || c == '1') rest
  | s => (specialFloat? s).or (decimalNumber? s)

def fixed? (width low high : Nat) (s : List Char) : Option (Nat × List Char) := do
  let n ← Text.nat? (s.take width)
  guard ((s.take width).length == width && low ≤ n && n ≤ high)
  return (n, s.drop width)

def after? (c : Char) : List Char → Option (List Char)
  | d :: rest => if c == d then some rest else none
  | [] => none

def daysInMonth (year month : Nat) : Nat :=
  if month == 2 then if year % 4 == 0 && (year % 100 != 0 || year % 400 == 0) then 29 else 28
  else if month == 4 || month == 6 || month == 9 || month == 11 then 30
  else 31

def date? (s : List Char) : Option (List Char) := do
  let (year, rest) ← fixed? 4 0 9999 s
  let (month, rest) ← fixed? 2 1 12 (← after? '-' rest)
  let (_, rest) ← fixed? 2 1 (daysInMonth year month) (← after? '-' rest)
  return rest

def secondFraction? : List Char → Option (List Char)
  | '.' :: rest =>
    match rest.span Char.isDigit with
    | ([], _) => none
    | (_, rest) => some rest
  | s => some s

def time? (s : List Char) : Option (List Char) := do
  let (_, rest) ← fixed? 2 0 23 s
  let (_, rest) ← fixed? 2 0 59 (← after? ':' rest)
  let (_, rest) ← fixed? 2 0 60 (← after? ':' rest)
  secondFraction? rest

def offset? : List Char → Option (List Char)
  | [] => some []
  | c :: rest =>
    if c == 'Z' || c == 'z' then some rest
    else if c == '+' || c == '-' then do
      let (_, rest) ← fixed? 2 0 23 rest
      let (_, rest) ← fixed? 2 0 59 (← after? ':' rest)
      return rest
    else some (c :: rest)

/-- What follows the time behind a date, if there is one. A blank may part the two only if a time
follows it. -/
def timeOfDate? : List Char → Option (List Char)
  | [] => some []
  | c :: rest =>
    if c == 'T' || c == 't' then (time? rest).bind offset?
    else if c == ' ' then
      match time? rest with
      | some rest => offset? rest
      | none => some (c :: rest)
    else some (c :: rest)

def datetime? (s : List Char) : Option (Value × List Char) := do
  let rest ← match date? s with
    | some rest => timeOfDate? rest
    | none => time? s
  return (.datetime (written s rest), rest)

end SpecAtlas.Toml
