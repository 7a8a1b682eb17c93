/-!
Positions in a source text. A `Point` counts rows and byte columns from zero; a `TextRange` is the
half-open range shown to users, with lines and columns counted from one.
-/

namespace SpecAtlas.Source

/-- Row and byte column, both counted from zero. -/
structure Point where
  row : Nat
  column : Nat
deriving DecidableEq, Repr, Inhabited

namespace Point

def origin : Point := ⟨0, 0⟩

def advance (p : Point) (b : UInt8) : Point :=
  if b == 10 then ⟨p.row + 1, 0⟩ else ⟨p.row, p.column + 1⟩

def before (p q : Point) : Bool :=
  p.row < q.row || (p.row == q.row && p.column < q.column)

theorem before_iff {p q : Point} :
    p.before q = true ↔ p.row < q.row ∨ p.row = q.row ∧ p.column < q.column := by
  simp [before]

theorem before_irrefl (p : Point) : p.before p = false := by
  simp [before]

theorem before_advance (p : Point) (b : UInt8) : p.before (p.advance b) = true := by
  rw [before_iff, advance]
  split <;> simp

def byteAt (bytes : ByteArray) (i : Nat) : UInt8 :=
  if h : i < bytes.size then bytes[i] else 0

def scan (bytes : ByteArray) : Nat → Nat → Point → Point
  | 0, _, p => p
  | n + 1, i, p => scan bytes n (i + 1) (p.advance (byteAt bytes i))

def ofOffset (bytes : ByteArray) (n : Nat) : Point :=
  scan bytes n 0 origin

theorem scan_succ (bytes : ByteArray) (n i : Nat) (p : Point) :
    scan bytes (n + 1) i p = (scan bytes n i p).advance (byteAt bytes (i + n)) := by
  induction n generalizing i p with
  | zero => rfl
  | succ n ih =>
    rw [scan, ih, scan]
    congr 2
    omega

@[simp] theorem ofOffset_zero (bytes : ByteArray) : ofOffset bytes 0 = origin := rfl

theorem ofOffset_succ (bytes : ByteArray) (n : Nat) :
    ofOffset bytes (n + 1) = (ofOffset bytes n).advance (byteAt bytes n) := by
  simp [ofOffset, scan_succ]

end Point

/-- A half-open range of a source text with 1-based lines and byte columns. -/
structure TextRange where
  startLine : UInt32
  startColumn : UInt32
  endLine : UInt32
  endColumn : UInt32
deriving DecidableEq, Repr, Inhabited

namespace TextRange

def contains (r : TextRange) (line column : UInt32) : Bool :=
  let afterStart := r.startLine < line || (line == r.startLine && r.startColumn ≤ column)
  let beforeEnd := line < r.endLine || (line == r.endLine && column < r.endColumn)
  afterStart && beforeEnd

def ofPoints (first last : Point) : TextRange where
  startLine := .ofNat (first.row + 1)
  startColumn := .ofNat (first.column + 1)
  endLine := .ofNat (last.row + 1)
  endColumn := .ofNat (last.column + 1)

def startText (r : TextRange) : String :=
  toString r.startLine.toNat ++ ":" ++ toString r.startColumn.toNat

end TextRange

end SpecAtlas.Source
