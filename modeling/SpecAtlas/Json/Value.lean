import SpecAtlas.Text.Decimal

/-!
JSON values and their compact text.
-/

namespace SpecAtlas.Json

inductive Value where
  | null
  | bool (b : Bool)
  | int (i : Int)
  /-- A number written with a fraction, an exponent or as minus zero, as it was written. -/
  | real (text : String)
  | string (s : String)
  /-- A string literal with an unpaired surrogate escape, or an object with such a key: it can be
  skipped but not read. -/
  | unpaired
  | array (items : List Value)
  | object (fields : List (String × Value))
deriving Repr, Inhabited

namespace Value

mutual

def depth : Value → Nat
  | array items => depthAll items + 1
  | object fields => depthFields fields + 1
  | null | bool _ | int _ | real _ | string _ | unpaired => 0

def depthAll : List Value → Nat
  | [] => 0
  | v :: vs => max v.depth (depthAll vs)

def depthFields : List (String × Value) → Nat
  | [] => 0
  | (_, v) :: fs => max v.depth (depthFields fs)

end

end Value

def hexDigit (n : Nat) : Char := if n < 10 then Char.ofNat (48 + n) else Char.ofNat (87 + n)

def escape (c : Char) : List Char :=
  if c == '\x22' then ['\\', '\x22']
  else if c == '\\' then ['\\', '\\']
  else if c == '\x08' then ['\\', 'b']
  else if c == '\x09' then ['\\', 't']
  else if c == '\x0a' then ['\\', 'n']
  else if c == '\x0c' then ['\\', 'f']
  else if c == '\x0d' then ['\\', 'r']
  else if c.toNat < 0x20 then
    ['\\', 'u', '0', '0', hexDigit (c.toNat / 16), hexDigit (c.toNat % 16)]
  else [c]

def literal (s : String) : List Char := '\x22' :: s.toList.flatMap escape ++ ['\x22']

namespace Value

mutual

def chars : Value → List Char
  | null => "null".toList
  | bool true => "true".toList
  | bool false => "false".toList
  | int i => Text.intDigits i
  | real text => text.toList
  | string s => literal s
  | unpaired => "null".toList
  | array items => '[' :: charsAll items ++ [']']
  | object fields => '\x7b' :: charsFields fields ++ ['\x7d']

def charsAll : List Value → List Char
  | [] => []
  | [v] => v.chars
  | v :: vs => v.chars ++ ',' :: charsAll vs

def charsFields : List (String × Value) → List Char
  | [] => []
  | [(k, v)] => literal k ++ ':' :: v.chars
  | (k, v) :: fs => literal k ++ ':' :: v.chars ++ ',' :: charsFields fs

end

def render (v : Value) : String := String.ofList v.chars

end Value

end SpecAtlas.Json
