import Mathlib.Data.List.Nodup
import SpecAtlas.CommandLine.Command
import SpecAtlas.Proofs.Index.Rows

/-! What a command line gives. The words of a command are read by a machine that keeps an option
pending until its value is complete; here the options and values that words give are said without
the machine, and what it reads is shown to be that. -/

namespace SpecAtlas.CommandLine

def isOptionWord (w : String) : Bool :=
  match w.toList with
  | '-' :: _ :: _ => true
  | _ => false

namespace OptionSpec

def isRepeated (o : OptionSpec) : Bool :=
  match o.kind with
  | .repeated _ => true
  | _ => false

def isRequest (o : OptionSpec) : Bool :=
  match o.kind with
  | .request _ => true
  | _ => false

def Accepts (o : OptionSpec) (value : String) : Prop :=
  match o.kind with
  | .flag => True
  | .single check | .repeated check => check value = none
  | .request _ => False

lemma Accepts.isRequest_eq_false {o : OptionSpec} {value : String} (h : o.Accepts value) :
    o.isRequest = false := by
  obtain ⟨name, letter, kind⟩ := o
  cases kind with
  | request stop => exact h.elim
  | flag | single | repeated => rfl

def Allows (o : OptionSpec) (values : List String) : Prop :=
  (∀ v ∈ values, o.Accepts v) ∧ (o.isRepeated = false → values.length ≤ 1)

end OptionSpec

/-- Options that no word confuses: names differ, and no letter stands for a flag, so that letters
are never run together. -/
structure Clear (options : List OptionSpec) : Prop where
  names : (options.map OptionSpec.name).Nodup
  letters : ∀ o ∈ options, o.letter.isSome = true → (o.takesValue || o.isRequest) = true

inductive Shows (o : OptionSpec) : String → Option String → Prop
  | name : Shows o ("--" ++ o.name) none
  | nameValue (value : String) : Shows o ("--" ++ o.name ++ "=" ++ value) (some value)
  | letter {c : Char} (hc : o.letter = some c) : Shows o (String.ofList ['-', c]) none
  | letterValue {c : Char} (hc : o.letter = some c) (value : String) :
      Shows o (String.ofList ['-', c, '='] ++ value) (some value)
  | joined {c d : Char} {value : List Char} (hc : o.letter = some c) (hd : d ≠ '=') :
      Shows o (String.ofList ('-' :: c :: d :: value)) (some (String.ofList (d :: value)))

inductive Writes (o : OptionSpec) (w : String) : String → Prop
  | flag (ht : o.takesValue = false) (hw : Shows o w none) : Writes o w ""
  | attached {value : String} (ht : o.takesValue = true) (hw : Shows o w (some value)) :
      Writes o w value

/-- The options that words give, with their values and in order. -/
inductive Gives (options : List OptionSpec) : List String → List (String × String) → Prop
  | nil : Gives options [] []
  | escape : Gives options ["--"] []
  | word {o : OptionSpec} {w value : String} {rest : List String} {given : List (String × String)}
      (ho : o ∈ options) (hw : Writes o w value) (h : Gives options rest given) :
      Gives options (w :: rest) ((o.name, value) :: given)
  | separate {o : OptionSpec} {w value : String} {rest : List String}
      {given : List (String × String)} (ho : o ∈ options) (ht : o.takesValue = true)
      (hw : Shows o w none) (hvalue : isOptionWord value = false)
      (h : Gives options rest given) :
      Gives options (w :: value :: rest) ((o.name, value) :: given)

lemma Gives.mem_names {options : List OptionSpec} {words : List String}
    {given : List (String × String)} (h : Gives options words given) :
    ∀ g ∈ given, g.1 ∈ options.map OptionSpec.name := by
  induction h with
  | nil | escape => simp
  | word ho _ _ ih | separate ho _ _ _ _ ih =>
    exact List.forall_mem_cons.mpr ⟨List.mem_map_of_mem ho, ih⟩

namespace Reading

variable {options : List OptionSpec} {o : OptionSpec} {r q : Reading} {w v : String}

lemma values_add (r : Reading) (name value other : String) :
    (r.add name value).values other = r.values other ++ if name = other then [value] else [] := by
  by_cases h : name = other <;> simp [values, add, h]

lemma mem_values {g : String × String} (h : g ∈ r.given) : g.2 ∈ r.values g.1 :=
  List.mem_map_of_mem (List.mem_filter.mpr ⟨h, beq_self_eq_true _⟩)

lemma has_eq (r : Reading) (name : String) : r.has name = !(r.values name).isEmpty := by
  rw [Bool.eq_iff_iff, has, values]
  simp

lemma value?_eq (r : Reading) (name : String) : r.value? name = (r.values name).head? := by
  rw [value?, values, List.head?_map, List.head?_filter]

lemma record_eq_ok (h : r.record o v = .ok q) :
    q = r.add o.name v ∧ o.Accepts v ∧ (o.isRepeated = false → r.has o.name = false) := by
  have honce (h : r.addOnce o.name v = .ok q) : q = r.add o.name v ∧ r.has o.name = false := by
    rw [addOnce] at h
    split at h
    · cases h
    · exact ⟨(Except.ok.inj h).symm, by simpa using ‹¬r.has o.name = true›⟩
  obtain ⟨name, letter, kind⟩ := o
  cases kind with
  | flag =>
    obtain ⟨rfl, hhas⟩ := honce h
    exact ⟨rfl, trivial, fun _ => hhas⟩
  | request stop => cases h
  | single check =>
    obtain ⟨added, hadd, h⟩ := exists_ok_of_bind_eq_ok h
    split at h
    · cases h
    · obtain rfl := Except.ok.inj h
      obtain ⟨rfl, hhas⟩ := honce hadd
      exact ⟨rfl, ‹check v = none›, fun _ => hhas⟩
  | repeated check =>
    rw [record] at h
    dsimp only at h
    split at h
    · cases h
    · exact ⟨(Except.ok.inj h).symm, ‹check v = none›, fun hr => nomatch hr⟩

lemma settle_cases (h : r.settle = .ok q) :
    (r.pending = none ∧ q = r) ∨
      ∃ o v, r.pending = some { spec := o, value := some v } ∧
        { r with pending := none }.record o v = .ok q := by
  rw [settle] at h
  split at h
  · exact .inl ⟨‹_›, (Except.ok.inj h).symm⟩
  · cases h
  · exact .inr ⟨_, _, ‹_›, h⟩

inductive Step (options : List OptionSpec) (r : Reading) (w : String) : Reading → Prop
  | escape (hw : w = "--") : Step options r w { r with escaped := true }
  | value {o : OptionSpec} (hp : r.pending = some { spec := o }) (hw : isOptionWord w = false) :
      Step options r w { r with pending := some { spec := o, value := some w } }
  | waits {o : OptionSpec} {mid : Reading} (ho : o ∈ options) (ht : o.takesValue = true)
      (hw : Shows o w none) (hs : r.settle = .ok mid) :
      Step options r w { mid with pending := some { spec := o } }
  | complete {o : OptionSpec} {mid q : Reading} {v : String} (ho : o ∈ options)
      (hw : Writes o w v) (hs : r.settle = .ok mid) (hr : mid.record o v = .ok q) :
      Step options r w q

lemma start_cases {attached : Option String} (h : r.start o attached = .ok q) :
    ∃ mid, r.settle = .ok mid ∧
      ((o.takesValue = true ∧ attached = none ∧ q = { mid with pending := some { spec := o } }) ∨
        (o.takesValue = true ∧ ∃ v, attached = some v ∧ mid.record o v = .ok q) ∨
        (o.takesValue = false ∧ attached = none ∧ mid.record o "" = .ok q)) := by
  rw [start] at h
  split at h
  · rename_i ht
    obtain ⟨mid, hs, h⟩ := exists_ok_of_bind_eq_ok h
    cases attached with
    | none => exact ⟨mid, hs, .inl ⟨ht, rfl, (Except.ok.inj h).symm⟩⟩
    | some v => exact ⟨mid, hs, .inr (.inl ⟨ht, v, rfl, h⟩)⟩
  · rename_i ht
    split at h
    · cases h
    · obtain ⟨mid, hs, h⟩ := exists_ok_of_bind_eq_ok h
      exact ⟨mid, hs, .inr (.inr ⟨by simpa using ht, by simpa using ‹¬attached.isSome = true›, h⟩)⟩

lemma step_of_start {attached : Option String} (ho : o ∈ options) (hw : Shows o w attached)
    (h : r.start o attached = .ok q) : Step options r w q := by
  obtain ⟨mid, hs, ⟨ht, rfl, rfl⟩ | ⟨ht, v, rfl, hr⟩ | ⟨ht, rfl, hr⟩⟩ := start_cases h
  · exact .waits ho ht hw hs
  · exact .complete ho (.attached ht hw) hs hr
  · exact .complete ho (.flag ht hw) hs hr

lemma step_of_long {word : List Char} (hw : w.toList = '-' :: '-' :: word)
    (h : r.long options word = .ok q) : Step options r w q := by
  rw [long] at h
  cases hfind : options.find? (·.name == String.ofList (word.takeWhile (· != '='))) with
  | none => rw [hfind] at h; cases h
  | some o =>
    rw [hfind] at h
    refine step_of_start (List.mem_of_find?_eq_some hfind) ?_ h
    have hname : o.name.toList = word.takeWhile (· != '=') := by
      have heq : o.name = String.ofList (word.takeWhile (· != '=')) := by
        simpa using List.find?_some hfind
      rw [heq, String.toList_ofList]
    have hsplit : w.toList = ("--" ++ o.name).toList ++ word.dropWhile (· != '=') := by
      rw [String.toList_append, hname, List.append_assoc, List.takeWhile_append_dropWhile, hw]
      rfl
    cases hrest : word.dropWhile (· != '=') with
    | nil =>
      rw [hrest, List.append_nil] at hsplit
      rw [String.toList_inj.mp hsplit]
      exact .name
    | cons c value =>
      have hc := List.head?_dropWhile_not (· != '=') word
      rw [hrest] at hc hsplit
      obtain rfl : c = '=' := by simpa using hc
      have hall : w = "--" ++ o.name ++ "=" ++ String.ofList value := by
        rw [← String.toList_inj, hsplit]
        simp
      rw [hall]
      exact .nameValue _

lemma step_of_letters {c : Char} {rest : List Char} (hw : w.toList = '-' :: c :: rest)
    (hclear : Clear options) (h : r.letters options (c :: rest) = .ok q) : Step options r w q := by
  rw [letters] at h
  cases hfind : options.find? (·.letter == some c) with
  | none => rw [hfind] at h; cases h
  | some o =>
    rw [hfind] at h
    have hc : o.letter = some c := by simpa using List.find?_some hfind
    have ho := List.mem_of_find?_eq_some hfind
    obtain rfl : w = String.ofList ('-' :: c :: rest) := by rw [← hw, String.ofList_toList]
    dsimp only at h
    split at h
    · split at h
      · exact step_of_start ho (.letter hc) h
      · refine step_of_start ho ?_ h
        have hsplit := Shows.letterValue hc (String.ofList ‹List Char›)
        rwa [← String.ofList_append] at hsplit
      · rename_i hnil heq
        cases rest with
        | nil => exact absurd rfl hnil
        | cons d value => exact step_of_start ho (.joined hc fun hd => heq value (hd ▸ rfl)) h
    · -- a request never completes, so no letter behind it is read
      rename_i ht
      obtain ⟨r', hstart, -⟩ := exists_ok_of_bind_eq_ok h
      have hrequest : o.isRequest = true := by
        simpa [ht] using hclear.letters o ho (by rw [hc, Option.isSome_some])
      obtain ⟨mid, -, ⟨ht', -⟩ | ⟨ht', -⟩ | ⟨-, -, hr⟩⟩ := start_cases hstart
      · exact absurd ht' ht
      · exact absurd ht' ht
      · obtain ⟨-, haccepts, -⟩ := record_eq_ok hr
        cases hrequest.symm.trans haccepts.isRequest_eq_false

lemma step_of_word {stray : Stop} (hclear : Clear options)
    (h : r.word options stray w = .ok q) : r.escaped = false ∧ Step options r w q := by
  rw [word] at h
  split at h
  · cases h
  · refine ⟨by simpa using ‹¬r.escaped = true›, ?_⟩
    split at h
    · rename_i hw
      rw [← Except.ok.inj h]
      exact .escape (String.toList_inj.mp hw)
    · exact step_of_long ‹_› h
    · exact step_of_letters ‹_› hclear h
    · rename_i hplain
      rw [plain] at h
      split at h
      · rw [← Except.ok.inj h]
        refine .value ‹_› ?_
        rw [isOptionWord]
        split
        · rename_i hw
          exact absurd hw (hplain _ _)
        · rfl
      · cases h

def awaits (r : Reading) : Bool :=
  match r.pending with
  | some { value := none, .. } => true
  | _ => false

def owed (r : Reading) : List (String × String) :=
  match r.pending with
  | some { spec, value := some value } => [(spec.name, value)]
  | _ => []

lemma settle_eq_ok (h : r.settle = .ok q) :
    r.awaits = false ∧ q.given = r.given ++ r.owed ∧ q.pending = none ∧ q.escaped = r.escaped := by
  obtain ⟨hp, rfl⟩ | ⟨o, v, hp, hr⟩ := settle_cases h
  · simp [awaits, owed, hp]
  · obtain ⟨rfl, -, -⟩ := record_eq_ok hr
    simp [awaits, owed, hp, add]

/-- What is given in all, when words are still to come. -/
inductive Continues (options : List OptionSpec) (r : Reading) :
    List String → List (String × String) → Prop
  | awaiting {o : OptionSpec} {value : String} {rest : List String}
      {given : List (String × String)} (hp : r.pending = some { spec := o })
      (hvalue : isOptionWord value = false) (h : Gives options rest given) :
      Continues options r (value :: rest) (r.given ++ (o.name, value) :: given)
  | settled {rest : List String} {given : List (String × String)} (hp : r.awaits = false)
      (h : Gives options rest given) : Continues options r rest (r.given ++ r.owed ++ given)

lemma Step.continues {rest : List String} {total : List (String × String)}
    (hstep : Step options r w q) (he : q.escaped = false) (h : Continues options q rest total) :
    Continues options r (w :: rest) total := by
  cases hstep with
  | escape => cases he
  | value hp hw =>
    cases h with
    | awaiting hp' => cases hp'
    | settled _ hgives => simpa [owed] using Continues.awaiting hp hw hgives
  | @waits o mid ho ht hw hs =>
    obtain ⟨hawaits, hgiven, -, -⟩ := settle_eq_ok hs
    cases h with
    | awaiting hp' hvalue hgives =>
      obtain rfl : o = _ := congrArg Pending.spec (Option.some.inj hp')
      rw [hgiven]
      exact .settled hawaits (.separate ho ht hw hvalue hgives)
    | settled hp' => cases hp'
  | @complete o mid q v ho hw hs hr =>
    obtain ⟨hawaits, hgiven, hp, -⟩ := settle_eq_ok hs
    obtain ⟨rfl, -, -⟩ := record_eq_ok hr
    cases h with
    | awaiting hp' => cases hp.symm.trans hp'
    | settled _ hgives =>
      have howed : (mid.add o.name v).owed = [] := by simp [owed, add, hp]
      rw [howed, List.append_nil, add, hgiven, List.append_assoc]
      exact .settled hawaits (.word ho hw hgives)

lemma Step.escaped_cases (hstep : Step options r w q) (he : r.escaped = false) :
    q.escaped = false ∨ w = "--" ∧ q = { r with escaped := true } := by
  cases hstep with
  | escape hw => exact .inr ⟨hw, rfl⟩
  | value => exact .inl he
  | waits _ _ _ hs => exact .inl ((settle_eq_ok hs).2.2.2.trans he)
  | complete _ _ hs hr =>
    obtain ⟨rfl, -, -⟩ := record_eq_ok hr
    exact .inl ((settle_eq_ok hs).2.2.2.trans he)

lemma continues_of_foldlM {stray : Stop} {words : List String} {last : Reading}
    (hclear : Clear options) (he : r.escaped = false)
    (h : words.foldlM (word options stray) r = .ok last) (hs : last.settle = .ok q) :
    Continues options r words q.given := by
  induction words generalizing r with
  | nil =>
    obtain rfl := Except.ok.inj h
    obtain ⟨hawaits, hgiven, -, -⟩ := settle_eq_ok hs
    have hend := Continues.settled hawaits (.nil : Gives options [] [])
    rwa [List.append_nil, ← hgiven] at hend
  | cons w rest ih =>
    rw [List.foldlM_cons] at h
    obtain ⟨mid, hw, h⟩ := exists_ok_of_bind_eq_ok h
    obtain ⟨-, hstep⟩ := step_of_word hclear hw
    obtain hmid | ⟨rfl, rfl⟩ := hstep.escaped_cases he
    · exact hstep.continues hmid (ih hmid h)
    · -- after two hyphens no word is taken up
      cases rest with
      | nil =>
        obtain rfl := Except.ok.inj h
        obtain ⟨hawaits, hgiven, -, -⟩ := settle_eq_ok hs
        have hend := Continues.settled (r := r) hawaits (.escape : Gives options ["--"] [])
        rw [List.append_nil] at hend
        exact hgiven ▸ hend
      | cons next rest =>
        rw [List.foldlM_cons] at h
        obtain ⟨_, hnext, -⟩ := exists_ok_of_bind_eq_ok h
        cases (step_of_word hclear hnext).1

lemma gives_of_ofWords {words : List String} (hclear : Clear options)
    (h : ofWords options words = .ok r) : Gives options words r.given := by
  obtain ⟨last, hfold, hs⟩ := exists_ok_of_bind_eq_ok h
  have hall := continues_of_foldlM hclear rfl hfold hs
  generalize r.given = total at hall ⊢
  cases hall with
  | awaiting hp => cases hp
  | settled _ hgives => exact hgives

structure Sound (options : List OptionSpec) (r : Reading) : Prop where
  pending_mem : ∀ p ∈ r.pending, p.spec ∈ options
  allowed : ∀ o ∈ options, o.Allows (r.values o.name)

namespace Sound

variable (hclear : Clear options)
include hclear

lemma record (hsound : Sound options r) (ho : o ∈ options) (h : r.record o v = .ok q) :
    Sound options q := by
  obtain ⟨rfl, haccepts, honce⟩ := record_eq_ok h
  refine ⟨hsound.pending_mem, fun other hother => ?_⟩
  obtain ⟨hchecked, hlength⟩ := hsound.allowed other hother
  rw [values_add]
  by_cases hname : o.name = other.name
  · obtain rfl := List.inj_on_of_nodup_map hclear.names ho hother hname
    rw [if_pos rfl]
    refine ⟨fun u hu => ?_, fun hsingle => ?_⟩
    · rcases List.mem_append.mp hu with hu | hu
      · exact hchecked u hu
      · exact List.mem_singleton.mp hu ▸ haccepts
    · have hnone : r.values o.name = [] := by simpa [has_eq] using honce hsingle
      simp [hnone]
  · rw [if_neg hname, List.append_nil]
    exact ⟨hchecked, hlength⟩

lemma settle (hsound : Sound options r) (h : r.settle = .ok q) : Sound options q := by
  obtain ⟨-, rfl⟩ | ⟨o, v, hp, hr⟩ := settle_cases h
  · exact hsound
  · have hopen : Sound options { r with pending := none } := ⟨by simp, hsound.allowed⟩
    exact hopen.record hclear (hsound.pending_mem _ hp) hr

lemma step (hsound : Sound options r) (hstep : Step options r w q) : Sound options q := by
  cases hstep with
  | escape => exact ⟨hsound.pending_mem, hsound.allowed⟩
  | value hp =>
    refine ⟨?_, hsound.allowed⟩
    rintro _ ⟨⟩
    exact hsound.pending_mem { spec := _ } hp
  | waits ho _ _ hs =>
    refine ⟨?_, (hsound.settle hclear hs).allowed⟩
    rintro _ ⟨⟩
    exact ho
  | complete ho _ hs hr => exact (hsound.settle hclear hs).record hclear ho hr

lemma foldlM {stray : Stop} {words : List String} (hsound : Sound options r)
    (h : words.foldlM (word options stray) r = .ok q) : Sound options q := by
  induction words generalizing r with
  | nil => exact Except.ok.inj h ▸ hsound
  | cons w rest ih =>
    rw [List.foldlM_cons] at h
    obtain ⟨mid, hw, h⟩ := exists_ok_of_bind_eq_ok h
    exact ih (hsound.step hclear (step_of_word hclear hw).2) h

lemma ofWords {words : List String} (h : ofWords options words = .ok r) : Sound options r := by
  obtain ⟨last, hfold, hs⟩ := exists_ok_of_bind_eq_ok h
  have hempty : Sound options {} := ⟨nofun, fun o _ => ⟨nofun, fun _ => Nat.zero_le _⟩⟩
  exact (hempty.foldlM hclear hfold).settle hclear hs

end Sound

end Reading

end SpecAtlas.CommandLine
