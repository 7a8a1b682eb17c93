import Mathlib.Data.List.Basic
import SpecAtlas.Launch
import SpecAtlas.Report.Lines
import SpecAtlas.Text.Quotes

/-! Command lines as a shell reads them. Blanks separate words, single quotes take what stands
between them as it is, and a backslash takes the next character as it is. No other character with a
meaning for the shell may stand outside quotes. Main statement: the line of a launch command is read
as the words that it was made from. -/

namespace SpecAtlas

namespace Text.Shell

inductive Mode where
  | bare
  | quoted
  | escaped
deriving DecidableEq

structure Reading where
  done : List String := []
  word : Option (List Char) := none
  mode : Mode := .bare

def specials : List Char :=
  ['|', '&', ';', '<', '>', '(', ')', '$', backtick, '"', '*', '?', '[', ']', '#', '~', '%', '!',
    '^', '\x7b', '\x7d', '\n']

namespace Reading

def add (r : Reading) (c : Char) : Reading := { r with word := some (r.word.getD [] ++ [c]) }

def close (r : Reading) : Reading :=
  { r with done := r.done ++ r.word.toList.map String.ofList, word := none }

/-- Whether a bare character would be syntax. In the first word, which names the command, an equals
sign would make an assignment. -/
def isSyntax (r : Reading) (c : Char) : Bool := specials.contains c || r.done.isEmpty && c == '='

/-- Reads one character; there is no reading where it would be syntax. An escaped line feed is
dropped, so that the line goes on. -/
def step (r : Reading) (c : Char) : Option Reading :=
  match r.mode with
  | .quoted => some (if c == apostrophe then { r with mode := .bare } else r.add c)
  | .escaped => some { (if c == '\n' then r else r.add c) with mode := .bare }
  | .bare =>
    if c == ' ' || c == '\t' then some r.close
    else if c == apostrophe then some { r with word := some (r.word.getD []), mode := .quoted }
    else if c == '\\' then some { r with mode := .escaped }
    else if r.isSyntax c then none
    else some (r.add c)

end Reading

/-- The words of a line. There are none if a character would be syntax, or if a quote or an escape
is left open. -/
def words? (line : String) : Option (List String) :=
  (line.toList.foldlM Reading.step {}).bind fun r =>
    if r.mode = .bare then some r.close.done else none

lemma notMem_of_isPlain {c : Char} (h : isPlain c = true) :
    c ∉ [' ', '\t', apostrophe, '\\'] ++ specials := by
  intro hc
  have hnone : ([' ', '\t', apostrophe, '\\'] ++ specials).any isPlain = false := by decide
  exact List.any_eq_false.mp hnone c hc h

namespace Reading

def inside (done : List String) (word : List Char) (mode : Mode) : Reading :=
  { done, word := some word, mode }

variable {done : List String} {chars word : List Char}

lemma step_of_isPlain {r : Reading} {c : Char} (hmode : r.mode = .bare) (hc : isPlain c = true)
    (hcommand : r.done = [] → c ≠ '=') : step r c = some (r.add c) := by
  have hnot := notMem_of_isPlain hc
  simp only [List.mem_append, List.mem_cons, not_or] at hnot
  obtain ⟨⟨hblank, htab, hquote, hescape, -⟩, hspecial⟩ := hnot
  have hsyntax : r.isSyntax c = false := by
    rw [isSyntax, List.contains_eq_mem, decide_eq_false hspecial, Bool.false_or]
    cases hdone : r.done with
    | nil => simp [hcommand hdone]
    | cons word words => rfl
  rw [step, hmode]
  simp [hblank, htab, hquote, hescape, hsyntax]

lemma foldlM_plain (r : Reading) (hmode : r.mode = .bare) (hne : chars ≠ [])
    (hchars : chars.all isPlain = true) (hcommand : r.done = [] → '=' ∉ chars) :
    chars.foldlM step r = some (inside r.done (r.word.getD [] ++ chars) .bare) := by
  induction chars generalizing r with
  | nil => exact absurd rfl hne
  | cons c chars ih =>
    obtain ⟨hc, hrest⟩ := by simpa only [List.all_cons, Bool.and_eq_true] using hchars
    have hstep : step r c = some (r.add c) :=
      step_of_isPlain hmode hc fun hdone he => hcommand hdone (he ▸ List.mem_cons_self)
    rw [List.foldlM_cons, hstep]
    by_cases hlast : chars = []
    · subst hlast
      simp [add, inside, hmode]
    · have hmore := ih (r.add c) hmode hlast hrest fun hdone hmem =>
        hcommand hdone (List.mem_cons_of_mem _ hmem)
      simpa [add] using hmore

lemma foldlM_quoted : (quoted chars).foldlM step (inside done word .quoted) =
    some (inside done (word ++ chars) .quoted) := by
  induction chars generalizing word with
  | nil => simp [quoted]
  | cons c chars ih =>
    rw [quoted]
    split_ifs with hc
    · -- a quote in the word closes the quotes, is escaped, and opens them again
      obtain rfl := beq_iff_eq.mp hc
      have hpair : apostrophe :: '\\' :: apostrophe :: apostrophe :: quoted chars =
          [apostrophe, '\\', apostrophe, apostrophe] ++ quoted chars := rfl
      have hagain : [apostrophe, '\\', apostrophe, apostrophe].foldlM step
        (inside done word .quoted) =
          some (inside done (word ++ [apostrophe]) .quoted) := rfl
      rw [hpair, List.foldlM_append, hagain, List.append_cons word apostrophe chars]
      exact ih
    · have hstep : step (inside done word .quoted) c =
        some (inside done (word ++ [c]) .quoted) := by
        simp [step, inside, add, hc]
      rw [List.foldlM_cons, hstep, List.append_cons word c chars]
      exact ih

lemma foldlM_quoteChars (hcommand : done = [] → '=' ∉ chars) :
    (quoteChars chars).foldlM step { done } = some (inside done chars .bare) := by
  rw [quoteChars]
  split_ifs with hplain
  · obtain ⟨hne, hchars⟩ := by simpa only [Bool.and_eq_true] using hplain
    exact foldlM_plain { done } rfl (by simpa using hne) hchars hcommand
  · have hopen : step { done } apostrophe = some (inside done [] .quoted) := rfl
    have hclose : step (inside done chars .quoted) apostrophe =
        some (inside done chars .bare) := rfl
    rw [List.cons_append, List.foldlM_cons, hopen]
    simp only [Option.bind_eq_bind, Option.bind_some, List.foldlM_append, foldlM_quoted]
    simp [hclose]

lemma step_blank : step (inside done word .bare) ' ' =
    some { done := done ++ [String.ofList word] } := by
  simp [step, inside, close]

lemma foldlM_line {first : String} {rest : List String}
    (hcommand : done = [] → '=' ∉ first.toList) :
    ∃ r, (line (first :: rest)).toList.foldlM step { done } = some r ∧ r.mode = .bare ∧
      r.close.done = done ++ first :: rest := by
  induction rest generalizing first done with
  | nil =>
    have hword := foldlM_quoteChars hcommand
    refine ⟨inside done first.toList .bare, ?_, rfl, ?_⟩
    · simpa [line, quote] using hword
    · simp [close, inside]
  | cons second rest ih =>
    have hword := foldlM_quoteChars hcommand
    have hnext : done ++ [first] = [] → '=' ∉ second.toList := by simp
    obtain ⟨r, hr, hmode, hdone⟩ := ih hnext
    refine ⟨r, ?_, hmode, by rw [hdone, List.append_cons done first (second :: rest)]⟩
    have hline : (line (first :: second :: rest)).toList =
        quoteChars first.toList ++ ' ' :: (line (second :: rest)).toList := by
      rw [line, List.map_cons, String.intercalate_cons_of_ne_nil (by simp)]
      simp [line, quote]
    rw [hline, List.foldlM_append, hword]
    simp only [Option.bind_eq_bind, Option.bind_some, List.foldlM_cons, step_blank,
      String.ofList_toList]
    exact hr

end Reading

lemma words?_line {first : String} (hcommand : '=' ∉ first.toList) (rest : List String) :
    words? (line (first :: rest)) = some (first :: rest) := by
  have hfirst : ([] : List String) = [] → '=' ∉ first.toList := fun _ => hcommand
  obtain ⟨r, hr, hmode, hdone⟩ := Reading.foldlM_line hfirst
  rw [words?, hr, Option.bind_some, if_pos hmode, hdone, List.nil_append]

example : line ["run", "", "it\x27s $x"] = "run \x27\x27 \x27it\x27\\\x27\x27s $x\x27" ∧
    words? "run \x27\x27 \x27it\x27\\\x27\x27s $x\x27" = some ["run", "", "it\x27s $x"] ∧
    words? "run it\\\x27s $x" = none := by decide +kernel

end Text.Shell

/-- A shell reads the line of a launch command as the main class and the arguments of the runner. -/
theorem LaunchSelectors.words?_command (s : LaunchSelectors) :
    Text.Shell.words? s.command.text = some (launcherMainClass :: s.programArgs) := by
  have hcommand : '=' ∉ launcherMainClass.toList := by decide +kernel
  exact Text.Shell.words?_line hcommand s.programArgs

end SpecAtlas
