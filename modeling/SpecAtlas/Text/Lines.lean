/-!
The lines of a file, read from its bytes. Reading ends at the first line that is no text.
-/

namespace SpecAtlas.Text

def linePieces : List UInt8 → List (List UInt8)
  | [] => [[]]
  | b :: rest =>
    match linePieces rest with
    | [] => [[b]]
    | piece :: more => if b == 10 then [] :: piece :: more else (b :: piece) :: more

def withoutReturn (line : List UInt8) : List UInt8 :=
  if line.getLast? == some 13 then line.dropLast else line

def byteLines (bytes : List UInt8) : List (List UInt8) :=
  let pieces := linePieces bytes
  let last := (pieces.getLast?.getD [])
  pieces.dropLast.map withoutReturn ++ (if last.isEmpty then [] else [last])

/-- The lines of a file up to the first that is no text. -/
def linesOf (bytes : ByteArray) : List String :=
  let texts := (byteLines bytes.data.toList).map fun line => String.fromUTF8? ⟨line.toArray⟩
  (texts.takeWhile Option.isSome).filterMap id

end SpecAtlas.Text
