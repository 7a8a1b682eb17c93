import Mathlib.Logic.Relation
import SpecAtlas.Proofs.Spec.Construct
import SpecAtlas.Proofs.Spec.SourceOrder

/-! Included calls. A factory may be applied to several argument lists and lambdas, each call
invoking the one before. Whatever they are, a spec has one include for the statement, of the kind
that stands for a call; its name is what the last call applies, as it is written: the name of the
factory if there is only one call, and otherwise the text of the call before. -/

namespace SpecAtlas

open Source Relation

/-- `p` applies `c` to at least one argument list or lambda, in the layout with or without a suffix
node. -/
structure Source.Place.Applies (p c : Place) : Prop where
  kind : p.kind = "call_expression"
  pieces : ∃ rest, p.namedChildren = c :: rest ∧
    ∃ piece ∈ Place.suffixPieces rest, piece.isArgumentList = true ∨ piece.isLambda = true

namespace Source.Place.Applies

variable {p c d : Place}

lemma exists_callParts (h : Applies p c) :
    ∃ parts, p.callParts? = some parts ∧ parts.callee = c := by
  obtain ⟨rest, hchildren, -⟩ := h.pieces
  refine ⟨_, by rw [callParts?, if_pos (beq_iff_eq.mpr h.kind), hchildren], ?_⟩
  rw [CallParts.callee_foldl_absorb]

lemma unique (hc : Applies p c) (hd : Applies p d) : c = d := by
  obtain ⟨_, hc, -⟩ := hc.pieces
  obtain ⟨_, hd, -⟩ := hd.pieces
  exact (List.cons.inj (hc.symm.trans hd)).1

end Source.Place.Applies

namespace Include

section Entries

variable {f : File} {cls p : Place} {i : Include}

def OnlyEntry (f : File) (cls p : Place) (i : Include) : Prop :=
  ∃ before after, ofClass f cls = before ++ i :: after ∧ i.node = p ∧
    ∀ j ∈ before ++ after, j.node ≠ p

lemma node_of_mem_filterMap {calls : List Place} (h : i ∈ calls.filterMap (ofCall? f)) :
    i.node ∈ calls := by
  obtain ⟨q, hq, hi⟩ := List.mem_filterMap.mp h
  rwa [(ofCall?_eq_some hi).1]

lemma onlyEntry_of_mem (hp : p ∈ lifecycleCalls cls) (hi : ofCall? f p = some i) :
    OnlyEntry f cls p i := by
  obtain ⟨front, back, hcalls⟩ := List.append_of_mem hp
  have hnodup : (front ++ p :: back).Nodup := by
    rw [← hcalls]
    exact (pairwise_number_lifecycleCalls cls).imp fun hlt he => by simp [he] at hlt
  have hother : p ∉ front ++ back := (List.nodup_middle.mp hnodup).notMem
  refine ⟨front.filterMap (ofCall? f), back.filterMap (ofCall? f), ?_, (ofCall?_eq_some hi).1, ?_⟩
  · rw [ofClass, hcalls, List.filterMap_append, List.filterMap_cons_some hi]
  · rw [← List.filterMap_append]
    rintro j hj rfl
    exact hother (node_of_mem_filterMap hj)

lemma ofCall?_of_application {callee argument e : Place}
    (hcall : Application p callee [argument] none) (hid : callee.isIdentifier = true)
    (htext : f.textOf callee = "include") (he : argument.argumentExpression? = some e)
    {last : Place} (hlast : e.Applies last) :
    ofCall? f p = some ⟨Text.stripBackticks (f.textOf last), .function, p⟩ := by
  obtain ⟨parts, hparts, rfl, hargs, -⟩ := hcall.exists_callParts
  obtain ⟨inner, hinner, rfl⟩ := hlast.exists_callParts
  have hsource : source? f e = some (f.textOf inner.callee, .function) := by
    rw [source?, if_pos (beq_iff_eq.mpr hlast.kind), hinner, Option.map_some]
  simp [ofCall?, hparts, hid, htext, guard, hargs, he, hsource]

end Entries

/-- The statement `include(e)`, where `e` applies a name any number of times, gives one include. Its
name is that of the applied name if `e` is a call of it, and in general what the last call applies,
as it is written: the name, or a whole call. -/
theorem entry_of_applied_name (f : File) (cls block p callee argument e name : Place)
    (hblock : lifecycleBlock? cls = some block) (hp : p ∈ block.statements)
    (hcall : Application p callee [argument] none) (hid : callee.isIdentifier = true)
    (htext : f.textOf callee = "include") (he : argument.argumentExpression? = some e)
    (hname : TransGen Place.Applies e name) :
    (e.Applies name →
      OnlyEntry f cls p ⟨Text.stripBackticks (f.textOf name), .function, p⟩) ∧
    ∃ last, e.Applies last ∧ (last = name ∨ TransGen Place.Applies last name) ∧
      OnlyEntry f cls p ⟨Text.stripBackticks (f.textOf last), .function, p⟩ := by
  have hcalls : p ∈ lifecycleCalls cls := by
    rw [lifecycleCalls, hblock]
    exact List.mem_filter.mpr ⟨hp, beq_iff_eq.mpr hcall.kind⟩
  have hentry {last : Place} (hlast : e.Applies last) :=
    onlyEntry_of_mem hcalls (ofCall?_of_application hcall hid htext he hlast)
  obtain ⟨last, hlast, hreach⟩ := TransGen.head'_iff.mp hname
  refine ⟨hentry, last, hlast, ?_, hentry hlast⟩
  exact (reflTransGen_iff_eq_or_transGen.mp hreach).imp_left Eq.symm

def includeSpecimen : File where
  text :=
    "class A : FunSpec() \x7b init \x7b include(\x60f\x60()); include(f(1) \x7b \x7d) \x7d \x7d"
  root := (Node.ofPreorder
    [(⟨"source_file", 0, 66, true, false, false⟩, 1),
      (⟨"class_declaration", 0, 66, true, false, false⟩, 3),
      (⟨"identifier", 6, 7, true, true, false⟩, 0),
      (⟨"delegation_specifiers", 10, 19, true, false, false⟩, 1),
      (⟨"delegation_specifier", 10, 19, true, false, false⟩, 1),
      (⟨"constructor_invocation", 10, 19, true, false, false⟩, 2),
      (⟨"user_type", 10, 17, true, false, false⟩, 0),
      (⟨"value_arguments", 17, 19, true, false, false⟩, 0),
      (⟨"class_body", 20, 66, true, false, false⟩, 1),
      (⟨"anonymous_initializer", 22, 64, true, false, false⟩, 1),
      (⟨"block", 27, 64, true, false, false⟩, 2),
      (⟨"call_expression", 29, 43, true, false, false⟩, 2),
      (⟨"identifier", 29, 36, true, false, false⟩, 0),
      (⟨"value_arguments", 36, 43, true, false, false⟩, 1),
      (⟨"value_argument", 37, 42, true, false, false⟩, 1),
      (⟨"call_expression", 37, 42, true, false, false⟩, 2),
      (⟨"identifier", 37, 40, true, false, false⟩, 0),
      (⟨"value_arguments", 40, 42, true, false, false⟩, 0),
      (⟨"call_expression", 45, 62, true, false, false⟩, 2),
      (⟨"identifier", 45, 52, true, false, false⟩, 0),
      (⟨"value_arguments", 52, 62, true, false, false⟩, 1),
      (⟨"value_argument", 53, 61, true, false, false⟩, 1),
      (⟨"call_expression", 53, 61, true, false, false⟩, 2),
      (⟨"call_expression", 53, 57, true, false, false⟩, 2),
      (⟨"identifier", 53, 54, true, false, false⟩, 0),
      (⟨"value_arguments", 54, 57, true, false, false⟩, 1),
      (⟨"value_argument", 55, 56, true, false, false⟩, 1),
      (⟨"number_literal", 55, 56, true, false, false⟩, 0),
      (⟨"annotated_lambda", 58, 61, true, false, false⟩, 1),
      (⟨"lambda_literal", 58, 61, true, false, false⟩, 0)]).headD default

namespace IncludeSpecimen

def nth (p : Place) (i : Nat) : Place := (p.namedChildren[i]?).getD default

def specimenClass : Place := nth includeSpecimen.rootPlace 0

def initializer : Place := nth (nth specimenClass 2) 0

def statement (i : Nat) : Place := nth (nth initializer 0) i

def argument (i : Nat) : Place := nth (nth (statement i) 1) 0

def included (i : Nat) : Place := nth (argument i) 0

lemma statement_mem {i : Nat} (hmem : statement i ∈ (nth initializer 0).namedChildren)
    (hkind : (statement i).kind = "call_expression") : statement i ∈ initializer.statements := by
  have hwrapper : nth initializer 0 ∈ initializer.namedChildren := List.mem_of_getElem? (i := 0) rfl
  rw [Place.statements, Place.spread_eq]
  refine List.mem_filter.mpr ⟨List.mem_flatMap.mpr ⟨_, hwrapper, ?_⟩, ?_⟩
  · rw [if_pos (by decide +kernel), Place.spread_eq]
    refine List.mem_flatMap.mpr ⟨_, hmem, ?_⟩
    rw [hkind]
    exact List.mem_singleton_self _
  · simp only [Place.isTrivia, Place.isComment, hkind]
    decide

lemma applies_nth {p : Place} (hkind : p.kind = "call_expression") {rest : List Place}
    (hchildren : p.namedChildren = nth p 0 :: rest)
    (hpiece : (Place.suffixPieces rest).any (fun q => q.isArgumentList || q.isLambda) = true) :
    p.Applies (nth p 0) := by
  obtain ⟨piece, hmem, happlied⟩ := List.any_eq_true.mp hpiece
  exact ⟨hkind, rest, hchildren, piece, hmem, by simpa using happlied⟩

lemma applied_once : (included 0).Applies (nth (included 0) 0) :=
  applies_nth rfl rfl (by decide +kernel)

lemma applied_twice : TransGen Place.Applies (included 1) (nth (nth (included 1) 0) 0) :=
  .head (applies_nth rfl rfl (by decide +kernel))
    (.single (applies_nth rfl rfl (by decide +kernel)))

end IncludeSpecimen

open IncludeSpecimen in
theorem entry_of_applied_name_specimen :
    OnlyEntry includeSpecimen specimenClass (statement 0) ⟨"f", .function, statement 0⟩ ∧
      OnlyEntry includeSpecimen specimenClass (statement 1) ⟨"f(1)", .function, statement 1⟩ := by
  have hfirst := entry_of_applied_name includeSpecimen specimenClass initializer (statement 0) _
    (argument 0) (included 0) _ rfl (statement_mem (List.mem_of_getElem? (i := 0) rfl) rfl)
    ⟨rfl, _, some _, none, rfl, rfl, rfl, rfl, rfl⟩ rfl (by decide +kernel) rfl
    (.single applied_once)
  have hsecond := entry_of_applied_name includeSpecimen specimenClass initializer (statement 1) _
    (argument 1) (included 1) _ rfl (statement_mem (List.mem_of_getElem? (i := 1) rfl) rfl)
    ⟨rfl, _, some _, none, rfl, rfl, rfl, rfl, rfl⟩ rfl (by decide +kernel) rfl applied_twice
  obtain ⟨last, hlast, -, hentry⟩ := hsecond.2
  obtain rfl := hlast.unique (applies_nth rfl rfl (by decide +kernel))
  have hnames : Text.stripBackticks (includeSpecimen.textOf (nth (included 0) 0)) = "f" ∧
      Text.stripBackticks (includeSpecimen.textOf (nth (included 1) 0)) =
        "f(1)" := by decide +kernel
  have honce := hfirst.1 applied_once
  rw [hnames.1] at honce
  rw [hnames.2] at hentry
  exact ⟨honce, hentry⟩

open IncludeSpecimen in
theorem applied_call_named :
    lifecycleBlock? specimenClass = some initializer ∧ statement 1 ∈ initializer.statements ∧
      TransGen Place.Applies (included 1) (nth (nth (included 1) 0) 0) ∧
      includeSpecimen.textOf (nth (nth (included 1) 0) 0) = "f" ∧
      (ofClass includeSpecimen specimenClass).map (fun i => (i.name, i.kind)) =
        [("f", .function), ("f(1)", .function)] := by
  refine ⟨rfl, statement_mem (List.mem_of_getElem? (i := 1) rfl) rfl, applied_twice, ?_, ?_⟩
  · decide +kernel
  · decide +kernel

end Include

end SpecAtlas
