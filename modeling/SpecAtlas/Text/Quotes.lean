import SpecAtlas.Text.Blank

/-!
The written forms of names: backticked identifiers, string literals and type references, and the
plain names they stand for.
-/

namespace SpecAtlas.Text

def backtick : Char := '\x60'

def stripBackticksChars (s : List Char) : List Char :=
  match s with
  | [] => []
  | c :: rest => if c == backtick && rest.getLast? == some backtick then rest.dropLast else s

def stripBackticks (s : String) : String :=
  String.ofList (stripBackticksChars s.toList)

def enclosedBy (quote s : List Char) : Bool :=
  2 * quote.length ≤ s.length && quote.isPrefixOf s && quote.isSuffixOf s

def inner (n : Nat) (s : List Char) : List Char :=
  (s.drop n).take (s.length - 2 * n)

theorem inner_append (q s : List Char) : inner q.length (q ++ s ++ q) = s := by
  simp only [inner, List.append_assoc, List.drop_left, List.length_append]
  rw [show q.length + (s.length + q.length) - 2 * q.length = s.length by omega]
  simp

def tripleQuote : List Char := ['"', '"', '"']

/-- Contents of a string literal, raw or plain; a text without enclosing quotes is kept. Escapes and
templates are not evaluated. -/
def unquoteChars (s : List Char) : List Char :=
  if enclosedBy tripleQuote s then inner 3 s
  else if enclosedBy ['"'] s then inner 1 s
  else s

def unquote (s : String) : String :=
  String.ofList (unquoteChars s.toList)

def afterLast (sep : Char) (s : List Char) : List Char :=
  (s.reverse.takeWhile (· != sep)).reverse

/-- Last dotted segment of a written type: everything from the first `<` on and final question marks
are dropped first. -/
def simpleTypeNameChars (s : List Char) : List Char :=
  let head := trimChars (s.takeWhile (· != '<'))
  stripBackticksChars (trimChars (afterLast '.' (dropEndWhile (· == '?') head)))

def simpleTypeName (written : String) : String :=
  String.ofList (simpleTypeNameChars written.toList)

def stripLead? (lead s : String) : Option String :=
  if lead.toList.isPrefixOf s.toList then some (String.ofList (s.toList.drop lead.length)) else none

def withoutLead (lead s : String) : String := (stripLead? lead s).getD s

def lowerAscii (s : String) : String :=
  String.ofList (s.toList.map Char.toLower)

def eqIgnoringCase (a b : String) : Bool :=
  lowerAscii a == lowerAscii b

end SpecAtlas.Text
