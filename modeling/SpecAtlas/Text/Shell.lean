/-!
Words of a shell command line. A word that holds only plain characters stands for itself; any other
is enclosed in single quotes, and a quote inside it is written as an escaped quote between two
quoted parts.
-/

namespace SpecAtlas.Text.Shell

def apostrophe : Char := '\x27'

def isPlain (c : Char) : Bool :=
  c.isAlphanum || c == '-' || c == '_' || c == '.' || c == ',' || c == ':' || c == '/' || c == '='
    || c == '@' || c == '+'

def quoted : List Char → List Char
  | [] => []
  | c :: rest =>
    if c == apostrophe then apostrophe :: '\\' :: apostrophe :: apostrophe :: quoted rest
    else c :: quoted rest

def quoteChars (word : List Char) : List Char :=
  if !word.isEmpty && word.all isPlain then word else apostrophe :: quoted word ++ [apostrophe]

def quote (word : String) : String := String.ofList (quoteChars word.toList)

def line (words : List String) : String := " ".intercalate (words.map quote)

end SpecAtlas.Text.Shell
