import Mathlib.Data.List.TakeWhile
import SpecAtlas.Source.Preorder
import SpecAtlas.Spec.Basic

/-! Written types. A type is written as segments with dots between them, each a name with or without
an argument list, and question marks at the end. It is read up to its first argument list, whatever
follows: the name that decides on the style of a class is that of the first segment with arguments,
and of the last segment only if no other has any. -/

namespace SpecAtlas

open Source

namespace Text

def isNameChar (c : Char) : Bool := !(['.', '<', '>', '?', backtick].contains c || isBlank c)

structure TypeSegment where
  name : String
  arguments : String := ""
  name_ne : name ≠ ""
  plain : name.toList.all isNameChar = true
  enclosed : arguments = "" ∨ ∃ content, arguments = "<" ++ content ++ ">"

/-- A written type: at least one segment, and any number of question marks. -/
structure WrittenType where
  front : List TypeSegment := []
  last : TypeSegment
  marks : Nat := 0

namespace TypeSegment

def text (s : TypeSegment) : String := s.name ++ s.arguments

variable {s : TypeSegment} {c : Char}

lemma isNameChar_of_mem (h : c ∈ s.name.toList) : isNameChar c = true :=
  List.all_eq_true.mp s.plain c h

lemma isBlank_of_mem (h : c ∈ s.name.toList) : isBlank c = false := by
  have hname := isNameChar_of_mem h
  rw [isNameChar, Bool.not_eq_true', Bool.or_eq_false_iff] at hname
  exact hname.2

lemma ne_of_mem {mark : Char} (h : c ∈ s.name.toList)
    (hmark : isNameChar mark = false := by decide) : c ≠ mark := by
  rintro rfl
  rw [isNameChar_of_mem h] at hmark
  cases hmark

end TypeSegment

namespace WrittenType

def text (t : WrittenType) : String :=
  ".".intercalate ((t.front ++ [t.last]).map TypeSegment.text) ++
    String.ofList (List.replicate t.marks '?')

/-- The segment that the type is read by. -/
def deciding (t : WrittenType) : TypeSegment := (t.front.find? (·.arguments != "")).getD t.last

end WrittenType

section Cuts

variable {s lead name : List Char}

lemma trimChars_eq_self (h : ∀ c ∈ s, isBlank c = false) : trimChars s = s := by
  have hdrop {l : List Char} (hl : ∀ c ∈ l, isBlank c = false) : l.dropWhile isBlank = l :=
    List.dropWhile_eq_self_iff.mpr fun hpos => by simp [hl _ (List.getElem_mem hpos)]
  have hback : s.reverse.dropWhile isBlank = s.reverse := hdrop fun c hc => h c (by simpa using hc)
  rw [trimChars, hdrop h, dropEndWhile, hback, List.reverse_reverse]

lemma dropEndWhile_append_replicate (mark : Char) (n : Nat) (hne : name ≠ [])
    (h : ∀ c ∈ name, c ≠ mark) :
    dropEndWhile (· == mark) (lead ++ name ++ List.replicate n mark) = lead ++ name := by
  obtain ⟨front, c, rfl⟩ : ∃ front c, name = front ++ [c] :=
    ⟨_, _, (List.dropLast_concat_getLast hne).symm⟩
  have hc : (c == mark) = false := by simpa using h c (by simp)
  rw [dropEndWhile, List.reverse_append, List.reverse_replicate,
    List.dropWhile_append_of_pos (by simp), ← List.append_assoc, List.reverse_append,
    List.reverse_singleton, List.singleton_append, List.dropWhile_cons_of_neg (by simp [hc])]
  simp

lemma afterLast_append (sep : Char) (hlead : ∀ c ∈ lead.getLast?, c = sep)
    (h : ∀ c ∈ name, c ≠ sep) : afterLast sep (lead ++ name) = name := by
  have hname : ∀ c ∈ name.reverse, (c != sep) = true := by simpa using h
  rw [afterLast, List.reverse_append, List.takeWhile_append_of_pos hname]
  cases hl : lead.reverse with
  | nil => simp
  | cons c rest =>
    have hc : c = sep := hlead c (by rw [← List.head?_reverse, hl]; rfl)
    simp [hc]

lemma stripBackticksChars_eq_self (h : ∀ c ∈ s, c ≠ backtick) : stripBackticksChars s = s := by
  cases s with
  | nil => rfl
  | cons c rest => simp [stripBackticksChars, h c List.mem_cons_self]

end Cuts

namespace WrittenType

variable {s last : TypeSegment} {front : List TypeSegment} {marks : Nat}

lemma toList_text_cons : (text ⟨s :: front, last, marks⟩).toList =
    s.name.toList ++ s.arguments.toList ++ '.' :: (text ⟨front, last, marks⟩).toList := by
  simp only [text, List.cons_append, List.map_cons]
  rw [String.intercalate_cons_of_ne_nil (by simp)]
  simp [TypeSegment.text]

lemma toList_text_nil : (text ⟨[], last, marks⟩).toList =
    last.name.toList ++ last.arguments.toList ++ List.replicate marks '?' := by
  simp [text, TypeSegment.text]

lemma takeWhile_of_arguments (h : s.arguments ≠ "") (rest : List Char) :
    (s.name.toList ++ s.arguments.toList ++ rest).takeWhile (· != '<') = s.name.toList := by
  obtain ⟨content, he⟩ := s.enclosed.resolve_left h
  have hname : ∀ c ∈ s.name.toList, (c != '<') = true := fun c hc => by
    simpa using TypeSegment.ne_of_mem hc
  rw [List.append_assoc, List.takeWhile_append_of_pos hname, he]
  simp

lemma takeWhile_of_bare (h : s.arguments = "") (rest : List Char) :
    (s.name.toList ++ s.arguments.toList ++ rest).takeWhile (· != '<') =
      s.name.toList ++ rest.takeWhile (· != '<') := by
  have hname : ∀ c ∈ s.name.toList, (c != '<') = true := fun c hc => by
    simpa using TypeSegment.ne_of_mem hc
  rw [h, String.toList_empty, List.append_nil, List.takeWhile_append_of_pos hname]

lemma exists_takeWhile_text (t : WrittenType) :
    ∃ lead n, t.text.toList.takeWhile (· != '<') =
        lead ++ t.deciding.name.toList ++ List.replicate n '?' ∧
      (∀ c ∈ lead.getLast?, c = '.') ∧ ∀ c ∈ lead, isBlank c = false := by
  obtain ⟨front, last, marks⟩ := t
  -- the names in front of the deciding segment gather in the lead; its arguments end the induction
  induction front with
  | nil =>
    by_cases hargs : last.arguments = ""
    · refine ⟨[], marks, ?_, by simp, by simp⟩
      rw [toList_text_nil, takeWhile_of_bare hargs, List.takeWhile_eq_self_iff.mpr (by simp)]
      rfl
    · refine ⟨[], 0, ?_, by simp, by simp⟩
      rw [toList_text_nil, takeWhile_of_arguments hargs]
      simp [deciding]
  | cons s front ih =>
    by_cases hargs : s.arguments = ""
    · obtain ⟨lead, n, he, hlast, hblank⟩ := ih
      refine ⟨s.name.toList ++ '.' :: lead, n, ?_, ?_, ?_⟩
      · have hdeciding : deciding ⟨s :: front, last, marks⟩ = deciding ⟨front, last, marks⟩ := by
          simp [deciding, hargs]
        rw [toList_text_cons, takeWhile_of_bare hargs, List.takeWhile_cons_of_pos (by decide), he,
          hdeciding]
        simp
      · cases lead with
        | nil => simp
        | cons c lead => simpa using hlast
      · simp only [List.mem_append, List.mem_cons]
        rintro c (hc | rfl | hc)
        · exact TypeSegment.isBlank_of_mem hc
        · decide
        · exact hblank c hc
    · refine ⟨[], 0, ?_, by simp, by simp⟩
      rw [toList_text_cons, takeWhile_of_arguments hargs]
      simp [deciding, hargs]

lemma simpleTypeName_text (t : WrittenType) : simpleTypeName t.text = t.deciding.name := by
  obtain ⟨lead, n, he, hlast, hblank⟩ := exists_takeWhile_text t
  have hname : ∀ c ∈ t.deciding.name.toList, isBlank c = false :=
    fun c hc => TypeSegment.isBlank_of_mem hc
  have hhead : trimChars (t.text.toList.takeWhile (· != '<')) =
      lead ++ t.deciding.name.toList ++ List.replicate n '?' := by
    rw [he]
    refine trimChars_eq_self ?_
    simp only [List.mem_append, List.mem_replicate]
    rintro c ((hc | hc) | ⟨-, rfl⟩)
    · exact hblank c hc
    · exact hname c hc
    · decide
  have hne : t.deciding.name.toList ≠ [] := by simpa using t.deciding.name_ne
  rw [simpleTypeName, simpleTypeNameChars, hhead,
    dropEndWhile_append_replicate '?' n hne (fun c hc => TypeSegment.ne_of_mem hc),
    afterLast_append '.' hlast (fun c hc => TypeSegment.ne_of_mem hc), trimChars_eq_self hname,
    stripBackticksChars_eq_self (fun c hc => TypeSegment.ne_of_mem hc), String.ofList_toList]

end WrittenType

end Text

namespace Spec

open Text

/-- The name of a written type is that of its deciding segment, and the style of a class depends on
nothing else of the type of its constructor call. -/
theorem style_of_written_type (t : WrittenType) :
    simpleTypeName t.text = t.deciding.name ∧
    ((∀ s ∈ t.front, s.arguments = "") → simpleTypeName t.text = t.last.name) ∧
    (∀ before s after, t.front = before ++ s :: after → (∀ b ∈ before, b.arguments = "") →
      s.arguments ≠ "" → simpleTypeName t.text = s.name) ∧
    ∀ (f : File) (cls invocation written : Place), cls.isClass = true →
      cls.supertypeCall? = some invocation → invocation.constructorType? = some written →
      f.textOf written = t.text → classify? f cls = Style.ofBaseName? t.deciding.name := by
  have hname := t.simpleTypeName_text
  refine ⟨hname, fun hbare => ?_, fun before s after hfront hbare hargs => ?_, ?_⟩
  · have hnone : t.front.find? (·.arguments != "") = none := by simpa using hbare
    rw [hname, WrittenType.deciding, hnone, Option.getD_none]
  · have hnone : before.find? (·.arguments != "") = none := by simpa using hbare
    rw [hname, WrittenType.deciding, hfront, List.find?_append, hnone, Option.none_or,
      List.find?_cons_of_pos (by simpa using hargs), Option.getD_some]
  · intro f cls invocation written hcls hcall htype htext
    have hguard : (guard (cls.isClass = true) : Option Unit) = some () := if_pos hcls
    rw [classify?, hguard, hcall]
    simp only [Option.bind_eq_bind, Option.bind_some, htype, htext, hname]

def superclassSpecimen (written : String) : File where
  text := "class A : " ++ written ++ "()"
  root :=
    let stop := 10 + written.utf8ByteSize
    (Node.ofPreorder
      [(⟨"source_file", 0, stop + 2, true, false, false⟩, 1),
        (⟨"class_declaration", 0, stop + 2, true, false, false⟩, 2),
        (⟨"identifier", 6, 7, true, true, false⟩, 0),
        (⟨"delegation_specifiers", 10, stop + 2, true, false, false⟩, 1),
        (⟨"delegation_specifier", 10, stop + 2, true, false, false⟩, 1),
        (⟨"constructor_invocation", 10, stop + 2, true, false, false⟩, 2),
        (⟨"user_type", 10, stop, true, false, false⟩, 0),
        (⟨"value_arguments", stop, stop + 2, true, false, false⟩, 0)]).headD default

def superclassSpecimenClass (file : File) : Place := file.rootPlace.namedChildren.headD default

def appliedLast : WrittenType where
  front := [⟨"kotest", "", by decide, by decide, .inl rfl⟩]
  last := ⟨"FunSpec", "<a.B<C>>", by decide, by decide, .inr ⟨"a.B<C>", rfl⟩⟩
  marks := 1

def appliedOuter : WrittenType where
  front := [⟨"Outer", "<Int>", by decide, by decide, .inr ⟨"Int", rfl⟩⟩]
  last := ⟨"FunSpec", "", by decide, by decide, .inl rfl⟩

theorem style_of_written_type_appliedLast :
    let file := superclassSpecimen "kotest.FunSpec<a.B<C>>?"
    appliedLast.text = "kotest.FunSpec<a.B<C>>?" ∧ simpleTypeName appliedLast.text = "FunSpec" ∧
      classify? file (superclassSpecimenClass file) = some .function ∧
      simpleTypeName appliedOuter.text = "Outer" := by
  intro file
  have htext : appliedLast.text = "kotest.FunSpec<a.B<C>>?" := by decide +kernel
  have hfound : ((superclassSpecimenClass file).supertypeCall?.bind Place.constructorType?).map
      file.textOf = some appliedLast.text := by decide +kernel
  obtain ⟨written, hwritten, hsame⟩ := Option.map_eq_some_iff.mp hfound
  obtain ⟨invocation, hcall, htype⟩ := Option.bind_eq_some_iff.mp hwritten
  obtain ⟨-, hlast, -, hstyle⟩ := style_of_written_type appliedLast
  obtain ⟨-, -, houter, -⟩ := style_of_written_type appliedOuter
  refine ⟨htext, hlast (by simp [appliedLast]), ?_, houter [] _ [] rfl (by simp) (by decide)⟩
  exact (hstyle file _ _ _ rfl hcall htype hsame).trans (by decide +kernel)

theorem outer_segment_decides :
    let file := superclassSpecimen "Outer<Int>.FunSpec"
    appliedOuter.text = "Outer<Int>.FunSpec" ∧ simpleTypeName appliedOuter.text = "Outer" ∧
      Style.ofBaseName? appliedOuter.last.name = some .function ∧
      classify? file (superclassSpecimenClass file) = none := by
  decide +kernel

end Spec

end SpecAtlas
