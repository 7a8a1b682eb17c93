/-!
Regular expressions over bytes, of which only sets of bytes are repeated. An expression is matched
against a text at all places at once: from the places where a match may start it computes those
where one ends, so that matching takes a number of steps that is the product of the two sizes.
-/

namespace SpecAtlas.Glob

structure ByteSet where
  negated : Bool
  ranges : List (UInt8 × UInt8)
deriving DecidableEq, Repr

def ByteSet.contains (s : ByteSet) (b : UInt8) : Bool :=
  s.negated != s.ranges.any fun (lo, hi) => lo ≤ b && b ≤ hi

def ByteSet.all : ByteSet := ⟨true, []⟩

def ByteSet.single (b : UInt8) : ByteSet := ⟨false, [(b, b)]⟩

def ByteSet.except (b : UInt8) : ByteSet := ⟨true, [(b, b)]⟩

@[simp] theorem ByteSet.contains_all (b : UInt8) : ByteSet.all.contains b = true := by
  simp [contains, all]

inductive Regex where
  | never
  | empty
  | byte (set : ByteSet)
  | many (set : ByteSet)
  | seq (a b : Regex)
  | alt (a b : Regex)
deriving DecidableEq, Repr

/-- Marks on the places of a text: before its first byte, and after each byte. -/
abbrev Marks := List Bool

namespace Marks

def advance (set : ByteSet) (text : List UInt8) (marks : Marks) : Marks :=
  false :: List.zipWith (fun mark b => mark && set.contains b) marks text

def spread (set : ByteSet) (reached : Bool) : List UInt8 → Marks → Marks
  | _, [] => []
  | [], mark :: _ => [mark || reached]
  | b :: text, mark :: marks =>
    let here := mark || reached
    here :: spread set (here && set.contains b) text marks

def union (a b : Marks) : Marks := List.zipWith (· || ·) a b

theorem length_advance {set : ByteSet} {text : List UInt8} {marks : Marks}
    (h : marks.length = text.length + 1) : (advance set text marks).length = text.length + 1 := by
  simp [advance, h]

theorem length_spread {set : ByteSet} {text : List UInt8} {marks : Marks} {reached : Bool}
    (h : marks.length = text.length + 1) :
    (spread set reached text marks).length = text.length + 1 := by
  induction text generalizing marks reached with
  | nil =>
    obtain ⟨mark, rfl⟩ := List.length_eq_one_iff.1 h
    rfl
  | cons b text ih =>
    cases marks with
    | nil => simp at h
    | cons mark marks =>
      rw [spread, List.length_cons, ih (Nat.succ.inj h), List.length_cons]

end Marks

namespace Regex

/-- The places where a match ends that starts at one of the given places. -/
def ends (text : List UInt8) : Regex → Marks → Marks
  | never, marks => marks.map fun _ => false
  | empty, marks => marks
  | byte set, marks => marks.advance set text
  | many set, marks => marks.spread set false text
  | seq a b, marks => ends text b (ends text a marks)
  | alt a b, marks => (ends text a marks).union (ends text b marks)

theorem length_ends {text : List UInt8} (r : Regex) {marks : Marks}
    (h : marks.length = text.length + 1) : (ends text r marks).length = text.length + 1 := by
  induction r generalizing marks with
  | never => simpa [ends] using h
  | empty => exact h
  | byte set => exact Marks.length_advance h
  | many set => exact Marks.length_spread h
  | seq a b iha ihb => exact ihb (iha h)
  | alt a b iha ihb => simp [ends, Marks.union, iha h, ihb h]

def accepts (r : Regex) (text : List UInt8) : Bool :=
  (ends text r (true :: text.map fun _ => false)).getLast? == some true

def anything : Regex := many .all

def ofBytes : List UInt8 → Regex
  | [] => empty
  | [b] => byte (.single b)
  | b :: bs => seq (byte (.single b)) (ofBytes bs)

def anyOf (rs : List Regex) : Regex := rs.foldr alt never

end Regex

end SpecAtlas.Glob
