import SpecAtlas.Text.Decimal
import SpecAtlas.Json.Reader

/-!
Network addresses of a server: an address of four numbers, or one of eight hexadecimal groups
between brackets, and a number after a colon.
-/

namespace SpecAtlas.CommandLine.Address

def after? (c : Char) : List Char → Option (List Char)
  | d :: rest => if c == d then some rest else none
  | [] => none

def number? (bound : Nat) (s : List Char) : Option (Nat × List Char) := do
  let (digits, rest) := s.span Char.isDigit
  let n ← Text.nat? digits
  guard (n < bound)
  return (n, rest)

def octet? (s : List Char) : Option (List Char) := do
  let digits := s.takeWhile Char.isDigit
  guard (digits.length ≤ 3 && (digits.length ≤ 1 || digits.head? != some '0'))
  return (← number? 256 s).2

def four? (s : List Char) : Option (List Char) := do
  let s ← after? '.' (← octet? s)
  let s ← after? '.' (← octet? s)
  let s ← after? '.' (← octet? s)
  octet? s

def group? (s : List Char) : Option (List Char) :=
  match (s.takeWhile fun c => (Json.hexValue? c).isSome).length with
  | 0 => none
  | n => if n ≤ 4 then some (s.drop n) else none

structure Groups where
  count : Nat
  endsInFour : Bool := false
  rest : List Char

/-- Reads at most `room` groups; all but the first follow a colon. The last two of them may be
written as four numbers. -/
def groups (first : Bool) : Nat → List Char → Groups
  | 0, s => { count := 0, rest := s }
  | room + 1, s =>
    let start := if first then some s else after? ':' s
    match if 0 < room then start.bind four? else none with
    | some rest => { count := 2, endsInFour := true, rest }
    | none =>
      match start.bind group? with
      | none => { count := 0, rest := s }
      | some rest =>
        let more := groups false room rest
        { more with count := more.count + 1 }

def eight? (s : List Char) : Option (List Char) :=
  let head := groups true 8 s
  if head.count == 8 then some head.rest
  else if head.endsInFour then none
  else do
    let rest ← after? ':' (← after? ':' head.rest)
    return (groups true (7 - head.count) rest).rest

def scope? : List Char → Option (List Char)
  | '%' :: rest => (number? UInt32.size rest).map (·.2)
  | s => some s

def portNumber? (s : List Char) : Option (List Char) := do
  return (← number? UInt16.size (← after? ':' s)).2

def withPort? (s : List Char) : Option (List Char) :=
  ((four? s).bind portNumber?).or do
    let rest ← eight? (← after? '[' s)
    portNumber? (← after? ']' (← scope? rest))

def isValid (text : String) : Bool := withPort? text.toList == some []

end SpecAtlas.CommandLine.Address
