import Mathlib.Data.List.Forall2
import SpecAtlas.Proofs.CommandLine.Reading
import SpecAtlas.Settings.Defaults

/-! Which value an option ends up with. What the words of a command line give prevails over the
settings of the project, and the settings count where the words leave an option out. An option whose
default is written out is not told apart from one that is left out. -/

namespace SpecAtlas

lemma Text.lt_of_unsigned? {bound n : Nat} {text : String}
    (h : Text.unsigned? bound text = some n) : n < bound := by
  rw [Text.unsigned?] at h
  split at h
  all_goals
    obtain ⟨m, -, h⟩ := Option.bind_eq_some_iff.mp h
    obtain ⟨_, hguard, h⟩ := Option.bind_eq_some_iff.mp h
    obtain rfl := Option.some.inj h
    rw [guard] at hguard
    split at hguard
    · assumption
    · cases hguard

namespace CommandLine

open Settings

inductive Held where
  | texts (values : List String)
  | text (value : Option String)
  | flag (on : Bool)
  | number (value : Option UInt32)
  | format (value : Format)
  | style (value : Style)
deriving DecidableEq

def Held.Says : Held → List String → Prop
  | .texts values, written => values = written
  | .text value, written => value.toList = written
  | .flag on, _ => on = true
  | .number value, written => written.map number? = value.toList.map fun n => some n.toNat
  | .format value, written => written = [value.name]
  | .style value, written => written.map Style.ofText? = [some value]

def ServerChoice.held (c : ServerChoice) : List (String × Held) :=
  [("server", .text c.server), ("no-server", .flag c.noServer)]

def Command.held : Command → List (String × Held)
  | .scan a =>
    [("path", .texts a.paths), ("glob", .texts a.globs), ("exclude", .texts a.excludeGlobs),
      ("hide-callbacks", .flag a.hideCallbacks), ("hide-includes", .flag a.hideIncludes),
      ("use-index", .flag a.useIndex), ("index-path", .text a.indexPath),
      ("format", .format a.format)] ++ a.remote.held
  | .testAt a =>
    [("file", .text (some a.file)), ("line", .number (some a.line)),
      ("column", .number (some a.column)), ("leaf", .flag a.leaf), ("format", .format a.format)] ++
      a.remote.held
  | .launch a =>
    [("file", .text a.file), ("line", .number a.line), ("column", .number a.column),
      ("package", .text a.package), ("format", .format a.format)]
  | .skeleton style name => [("style", .style style), ("name", .text (some name))]
  | .styles format => [("format", .format format)]
  | .index a =>
    [("path", .texts a.paths), ("glob", .texts a.globs), ("exclude", .texts a.excludeGlobs),
      ("index-path", .text a.indexPath), ("format", .format a.format)] ++ a.remote.held
  | .indexInfo a =>
    [("path", .texts a.paths), ("index-path", .text a.indexPath), ("format", .format a.format)] ++
      a.remote.held
  | .serve addr => [("addr", .text (some addr))]

/-- The command without the options that may be left out. -/
def Command.bare (environment : Option String) : Command → Command
  | .scan _ => .scan { remote := { server := environment } }
  | .testAt a => .testAt { file := a.file, line := a.line, remote := { server := environment } }
  | .launch _ => .launch {}
  | .skeleton style name => .skeleton style name
  | .styles _ => .styles .text
  | .index _ => .index { remote := { server := environment } }
  | .indexInfo _ => .indexInfo { remote := { server := environment } }
  | .serve _ => .serve defaultAddress

/-- Options written with the value that they have by default. -/
def writtenDefaults : List (String × List String) :=
  [("format", [Format.text.name]), ("addr", [defaultAddress])]

/-- What an option holds, next to what it would hold if it were left out. -/
inductive Resolved (r : Reading) : String × Held → String × Held → Prop
  | written {name : String} {held other : Held} (hw : r.values name ≠ [])
      (hs : held.Says (r.values name)) : Resolved r (name, held) (name, other)
  | writtenDefault {name : String} {held : Held} (hw : (name, r.values name) ∈ writtenDefaults) :
      Resolved r (name, held) (name, held)
  | leftOut {name : String} {held : Held} (hw : r.values name = []) :
      Resolved r (name, held) (name, held)

lemma OptionSpec.Allows.single {o : OptionSpec} {check : String → Option Stop}
    {values : List String} (h : o.Allows values) (ho : o.kind = .single check) :
    values = [] ∨ ∃ v, values = [v] ∧ check v = none := by
  obtain ⟨haccepts, hone⟩ := h
  have hsingle : o.isRepeated = false := by rw [isRepeated, ho]
  match values, hone hsingle with
  | [], _ => exact .inl rfl
  | [v], _ =>
    have hv := haccepts v (List.mem_singleton_self v)
    rw [Accepts, ho] at hv
    exact .inr ⟨v, rfl, hv⟩

lemma number?_lt {text : String} {n : Nat} (h : number? text = some n) : n < UInt32.size := by
  rw [number?] at h
  split at h
  · obtain ⟨m, -, h⟩ := Option.bind_eq_some_iff.mp h
    obtain ⟨-, -, h⟩ := Option.bind_eq_some_iff.mp h
    exact Option.some.inj h ▸ (by decide)
  · exact Text.lt_of_unsigned? h

namespace Resolved

variable {r : Reading} {o : OptionSpec}

lemma texts (name : String) (d : List String) :
    Resolved r (name, .texts (orList (r.values name) d)) (name, .texts (orList [] d)) := by
  cases h : r.values name with
  | nil => exact .leftOut h
  | cons v vs => exact .written (by simp [h]) h.symm

lemma flag {name : String} {on : Bool} {d : Option Bool} (hon : on = orFlag (r.has name) d) :
    Resolved r (name, .flag on) (name, .flag (orFlag false d)) := by
  rw [hon, Reading.has_eq]
  cases h : r.values name with
  | nil => exact .leftOut h
  | cons v vs => exact .written (by simp [h]) rfl

lemma text {check : String → Option Stop} {held d : Option String}
    (hallows : o.Allows (r.values o.name)) (ho : o.kind = .single check)
    (hheld : held = (r.value? o.name).or d) :
    Resolved r (o.name, .text held) (o.name, .text d) := by
  rw [hheld, Reading.value?_eq]
  rcases hallows.single ho with h | ⟨v, h, -⟩
  · rw [h]
    exact .leftOut h
  · refine .written (by simp [h]) ?_
    rw [h]
    rfl

lemma number {held d : Option UInt32} (hallows : o.Allows (r.values o.name))
    (ho : o.kind = .single numberText) (hheld : held = (r.uint32? o.name).or d) :
    Resolved r (o.name, .number held) (o.name, .number d) := by
  rw [hheld, Reading.uint32?, Reading.value?_eq]
  rcases hallows.single ho with h | ⟨v, h, hcheck⟩
  · rw [h]
    exact .leftOut h
  · refine .written (by simp [h]) ?_
    obtain ⟨n, hn⟩ : ∃ n, number? v = some n :=
      Option.ne_none_iff_exists'.mp (by simpa [numberText] using hcheck)
    rw [h]
    simp [Held.Says, hn, UInt32.toNat_ofNat_of_lt' (number?_lt hn)]

lemma style {held other : Style} (hallows : o.Allows (r.values o.name))
    (ho : o.kind = .single styleText) (hheld : (r.value? o.name).bind Style.ofText? = some held) :
    Resolved r (o.name, .style held) (o.name, .style other) := by
  rw [Reading.value?_eq] at hheld
  rcases hallows.single ho with h | ⟨v, h, -⟩
  · rw [h] at hheld
    cases hheld
  · rw [h, List.head?_cons, Option.bind_some] at hheld
    exact .written (by simp [h]) (by simp [Held.Says, h, hheld])

lemma format {held : Format} {d : Option Format}
    (hallows : formatOption.Allows (r.values "format")) (hheld : held = orFormat r.format d) :
    Resolved r ("format", .format held) ("format", .format (orFormat .text d)) := by
  rw [hheld, Reading.format, Reading.value?_eq]
  rcases hallows.single rfl with h | ⟨v, h, hcheck⟩
  · rw [h]
    exact .leftOut h
  · obtain ⟨f, hf⟩ : ∃ f, Format.ofName? v = some f :=
      Option.ne_none_iff_exists'.mp (by simpa [formatText] using hcheck)
    have hname : f.name = v := by simpa using List.find?_some hf
    have hread : ((r.values "format").head?.bind Format.ofName?).getD .text = f := by simp [h, hf]
    rw [hread]
    by_cases htext : f = .text
    · rw [htext]
      exact .writtenDefault (by simp [writtenDefaults, h, ← hname, htext])
    · refine .written (by simp [h]) ?_
      simp [Held.Says, orFormat, htext, h, hname]

lemma address (s : Settings) {check : String → Option Stop} (hallows : o.Allows (r.values o.name))
    (ho : o.kind = .single check) (hname : o.name = "addr") :
    Resolved r ("addr", .text (some (s.address ((r.value? "addr").getD defaultAddress))))
      ("addr", .text (some (s.address defaultAddress))) := by
  rw [hname] at hallows
  rw [Reading.value?_eq]
  rcases hallows.single ho with h | ⟨v, h, -⟩
  · rw [h]
    exact .leftOut h
  · by_cases hv : v = defaultAddress
    · rw [h, hv]
      exact .writtenDefault (by simp [writtenDefaults, h, hv])
    · refine .written (by simp [h]) ?_
      simp [Held.Says, Settings.address, h, hv]

lemma remote (s : Settings) (environment section_ : Option String) (noServer : Option Bool)
    (hallows : ∀ o ∈ serverOptions, o.Allows (r.values o.name)) :
    List.Forall₂ (Resolved r) (s.orServer (r.remote environment) section_ noServer).held
      (s.orServer { server := environment } section_ noServer).held := by
  have hserver := text (d := (environment.or section_).or (s.http.bind Http.serverUrl))
    (hallows _ (.head _)) rfl rfl
  rw [← Option.or_assoc, ← Option.or_assoc] at hserver
  exact .cons hserver (.cons (flag rfl) .nil)

end Resolved

lemma clear_options : ∀ spec ∈ commandSpecs, Clear (helpOption :: spec.options) := by
  have hnames : ∀ spec ∈ commandSpecs,
      ((helpOption :: spec.options).map OptionSpec.name).Nodup := by
    decide
  have hletters : ∀ spec ∈ commandSpecs, ∀ o ∈ helpOption :: spec.options,
      o.letter.isSome = true → (o.takesValue || o.isRequest) = true := by decide
  exact fun spec hspec => ⟨hnames spec hspec, hletters spec hspec⟩

lemma resolved_of_build {spec : CommandSpec} {r : Reading} {env : Option String} {c : Command}
    (hspec : spec ∈ commandSpecs) (s : Settings)
    (hallows : ∀ o ∈ spec.options, o.Allows (r.values o.name))
    (hbuild : spec.build r env = some c) :
    (s.complete c).held.map Prod.fst = spec.options.map OptionSpec.name ∧
      List.Forall₂ (Resolved r) (s.complete c).held (s.complete (c.bare env)).held := by
  have hkept : orFormat r.format none = r.format := by simp [orFormat]
  simp only [commandSpecs, List.mem_cons, List.not_mem_nil, or_false] at hspec
  -- for each command, its options one by one, and those of the server behind them
  obtain rfl | rfl | rfl | rfl | rfl | rfl | rfl | rfl := hspec
  · obtain rfl := Option.some.inj hbuild
    obtain ⟨hown, hserver⟩ := List.forall_mem_append.mp hallows
    simp only [List.forall_mem_cons] at hown
    obtain ⟨-, -, -, -, -, -, hindex, hformat, -⟩ := hown
    exact ⟨rfl, .cons (.texts ..) <| .cons (.texts ..) <| .cons (.texts ..) <| .cons (.flag rfl) <|
      .cons (.flag rfl) <| .cons (.flag rfl) <| .cons (.text hindex rfl rfl) <|
      .cons (.format hformat rfl) <| Resolved.remote s env _ _ hserver⟩
  · obtain ⟨file, hvalue, hbuild⟩ := Option.bind_eq_some_iff.mp hbuild
    obtain ⟨line, hnumber, hbuild⟩ := Option.bind_eq_some_iff.mp hbuild
    obtain rfl := Option.some.inj hbuild
    obtain ⟨hown, hserver⟩ := List.forall_mem_append.mp hallows
    simp only [List.forall_mem_cons] at hown
    obtain ⟨hfile, hline, hcolumn, -, hformat, -⟩ := hown
    have hvalue' : some file = (r.value? "file").or (some file) := by rw [hvalue]; rfl
    have hnumber' : some line = (r.uint32? "line").or (some line) := by rw [hnumber]; rfl
    have hleaf : r.has "leaf" = orFlag (r.has "leaf") none := by simp [orFlag]
    exact ⟨rfl, .cons (.text hfile rfl hvalue') <| .cons (.number hline rfl hnumber') <|
      .cons (.number hcolumn rfl Option.or_some.symm) <| .cons (.flag hleaf) <|
      .cons (.format (d := none) hformat hkept.symm) <|
      Resolved.remote s env _ _ hserver⟩
  · obtain rfl := Option.some.inj hbuild
    simp only [List.forall_mem_cons] at hallows
    obtain ⟨hfile, hline, hcolumn, hpackage, hformat, -⟩ := hallows
    exact ⟨rfl, .cons (.text hfile rfl Option.or_none.symm) <|
      .cons (.number hline rfl Option.or_none.symm) <|
      .cons (.number hcolumn rfl Option.or_none.symm) <|
      .cons (.text hpackage rfl Option.or_none.symm) <|
      .cons (.format (d := none) hformat hkept.symm) .nil⟩
  · obtain ⟨style, hstyle, hbuild⟩ := Option.bind_eq_some_iff.mp hbuild
    obtain ⟨name, hvalue, hbuild⟩ := Option.bind_eq_some_iff.mp hbuild
    obtain rfl := Option.some.inj hbuild
    simp only [List.forall_mem_cons] at hallows
    obtain ⟨hid, hname, -⟩ := hallows
    have hvalue' : some name = (r.value? "name").or (some name) := by rw [hvalue]; rfl
    exact ⟨rfl, .cons (.style hid rfl hstyle) <| .cons (.text hname rfl hvalue') .nil⟩
  · obtain rfl := Option.some.inj hbuild
    simp only [List.forall_mem_cons] at hallows
    exact ⟨rfl, .cons (.format (d := none) hallows.1 hkept.symm) .nil⟩
  · obtain rfl := Option.some.inj hbuild
    obtain ⟨hown, hserver⟩ := List.forall_mem_append.mp hallows
    simp only [List.forall_mem_cons] at hown
    obtain ⟨-, -, -, hindex, hformat, -⟩ := hown
    exact ⟨rfl, .cons (.texts ..) <| .cons (.texts ..) <| .cons (.texts ..) <|
      .cons (.text hindex rfl rfl) <| .cons (.format (d := none) hformat hkept.symm) <|
      Resolved.remote s env _ _ hserver⟩
  · obtain rfl := Option.some.inj hbuild
    obtain ⟨hown, hserver⟩ := List.forall_mem_append.mp hallows
    simp only [List.forall_mem_cons] at hown
    obtain ⟨-, hindex, hformat, -⟩ := hown
    exact ⟨rfl, .cons (.texts ..) <| .cons (.text hindex rfl rfl) <| .cons (.format hformat rfl) <|
      Resolved.remote s env _ _ hserver⟩
  · obtain rfl := Option.some.inj hbuild
    simp only [List.forall_mem_cons] at hallows
    exact ⟨rfl, .cons (.address s hallows.1 rfl rfl) .nil⟩

lemma exists_spec_of_readFrom {words : List String} {env : Option String} {r : Reading}
    {i : Invocation} {c : Command} (h : readFrom env r words = .ok i) (hc : i.command = some c) :
    ∃ front name rest spec, words = front ++ name :: rest ∧
      (∀ w ∈ front, commandSpec? w = none) ∧ commandSpec? name = some spec ∧
      spec.read rest env = .ok c := by
  induction words generalizing r with
  | nil =>
    obtain rfl := Except.ok.inj h
    cases hc
  | cons w words ih =>
    rw [readFrom] at h
    cases he : r.escaped with
    | true =>
      -- after two hyphens every further word is a fault
      have hstray (stray : Stop) (options : List OptionSpec) :
          r.word options stray w = .error stray := by rw [Reading.word, he, if_pos rfl]
      simp only [he, hstray, Bool.not_true, Bool.and_false, Bool.false_eq_true, if_false] at h
      cases h
    | false =>
      cases hspec : commandSpec? w with
      | some spec =>
        simp only [hspec, he, Option.isSome_some, Bool.or_true, Bool.not_false, Bool.and_self,
          if_true] at h
        obtain ⟨command, hcommand, h⟩ := exists_ok_of_bind_eq_ok h
        obtain rfl := Except.ok.inj h
        obtain rfl := Option.some.inj hc
        exact ⟨[], w, words, spec, rfl, by simp, hspec, hcommand⟩
      | none =>
        cases hhelp : w == "help" with
        | true =>
          simp [hspec, he, hhelp] at h
        | false =>
          simp only [hspec, he, hhelp, Option.isSome_none, Bool.or_false, Bool.false_and,
            Bool.false_eq_true, if_false] at h
          obtain ⟨mid, -, h⟩ := exists_ok_of_bind_eq_ok h
          obtain ⟨front, name, rest, spec, rfl, hfront, hname, hread⟩ := ih h
          exact ⟨w :: front, name, rest, spec, rfl, List.forall_mem_cons.mpr ⟨hspec, hfront⟩, hname,
            hread⟩

/-- Options that the words of a command line give hold in the end what was written, whatever the
settings say, except that a written default counts as nothing; the other options hold what the
settings and the environment give to a command line without them. -/
theorem given_options_win (words : List String) (env : Option String) (s : Settings)
    (i : Invocation) (c : Command) (hread : Invocation.read words env = .ok i)
    (hc : i.command = some c) :
    ∃ front name rest spec r, words = front ++ name :: rest ∧
      (∀ w ∈ front, commandSpec? w = none) ∧ commandSpec? name = some spec ∧
      Gives (helpOption :: spec.options) rest r.given ∧
      (∀ g ∈ r.given, g.1 ∈ (s.complete c).held.map Prod.fst) ∧
      List.Forall₂ (Resolved r) (s.complete c).held (s.complete (c.bare env)).held := by
  obtain ⟨front, name, rest, spec, hwords, hfront, hspec, hcommand⟩ :=
    exists_spec_of_readFrom hread hc
  have hmem : spec ∈ commandSpecs := List.mem_of_find?_eq_some hspec
  obtain ⟨r, hr, hcommand⟩ := exists_ok_of_bind_eq_ok hcommand
  obtain ⟨-, -, hcommand⟩ := exists_ok_of_bind_eq_ok hcommand
  have hclear := clear_options spec hmem
  have hgives := Reading.gives_of_ofWords hclear hr
  cases hbuild : spec.build r env with
  | none =>
    rw [hbuild] at hcommand
    cases hcommand
  | some built =>
    rw [hbuild] at hcommand
    obtain rfl := Except.ok.inj hcommand
    have hallows := (Reading.Sound.ofWords hclear hr).allowed
    obtain ⟨hhelp, hallows⟩ := List.forall_mem_cons.mp hallows
    obtain ⟨hnames, hresolved⟩ := resolved_of_build hmem s hallows hbuild
    refine ⟨front, name, rest, spec, r, hwords, hfront, hspec, hgives, fun g hg => ?_, hresolved⟩
    rw [hnames]
    rcases List.mem_cons.mp (hgives.mem_names g hg) with heq | hown
    · -- asking for help is no value that an option can be given
      exact (hhelp.1 g.2 (heq ▸ Reading.mem_values hg)).elim
    · exact hown

theorem given_options_win_scan :
    let s : Settings := { scan := some { paths := ["lib"], excludeGlobs := ["gen"] } }
    let c : Command := .scan { paths := ["src"], globs := ["*.kt"], format := .json }
    Invocation.read ["scan", "-p", "src", "--glob=*.kt", "--format", "json"] none =
      .ok { command := some c } ∧
    (s.complete c).held.take 3 =
      [("path", .texts ["src"]), ("glob", .texts ["*.kt"]), ("exclude", .texts ["gen"])] ∧
    ∃ name rest spec r, commandSpec? name = some spec ∧
      Gives (helpOption :: spec.options) rest r.given ∧
      List.Forall₂ (Resolved r) (s.complete c).held (s.complete (c.bare none)).held := by
  intro s c
  have hread : Invocation.read ["scan", "-p", "src", "--glob=*.kt", "--format", "json"] none =
      .ok { command := some c } := by rfl
  obtain ⟨-, name, rest, spec, r, -, -, hspec, hgives, -, hresolved⟩ :=
    given_options_win _ none s _ c hread rfl
  exact ⟨hread, by decide, name, rest, spec, r, hspec, hgives, hresolved⟩

theorem written_default_given_up :
    let s : Settings := { scan := some { format := some .json } }
    Invocation.read ["scan", "--format", "text"] none = .ok { command := some (.scan {}) } ∧
      ("format", Held.format .json) ∈ (s.complete (.scan {})).held ∧
      ("format", Held.format .text) ∉ (s.complete (.scan {})).held :=
  ⟨rfl, by decide, by decide⟩

end CommandLine

end SpecAtlas
