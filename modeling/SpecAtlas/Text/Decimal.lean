/-!
Decimal numerals. Writing gives the fewest digits; reading takes any non-empty run of digits.
-/

namespace SpecAtlas.Text

def digits (n : Nat) : List Char := Nat.toDigits 10 n

def ofDigits (s : List Char) : Nat := Nat.ofDigitChars 10 s 0

@[simp] theorem ofDigits_digits (n : Nat) : ofDigits (digits n) = n :=
  Nat.ofDigitChars_toDigits (by decide) (by decide)

theorem isDigit_of_mem_digits {n : Nat} {c : Char} (h : c ∈ digits n) : c.isDigit = true :=
  Nat.isDigit_of_mem_toDigits (by decide) (by decide) h

def nat? (s : List Char) : Option Nat :=
  if !s.isEmpty && s.all Char.isDigit then some (ofDigits s) else none

def unsigned? (bound : Nat) (s : String) : Option Nat := do
  let n ← match s.toList with
    | '+' :: rest => nat? rest
    | cs => nat? cs
  guard (n < bound)
  return n

def intDigits : Int → List Char
  | .ofNat n => digits n
  | .negSucc n => '-' :: digits (n + 1)

end SpecAtlas.Text
