import SpecAtlas.Text.Quotes

/-!
The styles in which a spec can be written. A style fixes the base class that a spec extends, the
functions that introduce tests, what each of them puts in front of the name it is given, and the
text of a new, empty test.
-/

namespace SpecAtlas

inductive Style where
  | feature
  | function
  | should
  | describe
  | behavior
  | expect
  | string
deriving DecidableEq, Repr, Inhabited

/-- A function that introduces a test, and the text it puts in front of the written name. -/
structure Keyword where
  name : String
  lead : String
deriving DecidableEq, Repr

namespace Style

def all : List Style := [.feature, .function, .should, .describe, .behavior, .expect, .string]

theorem mem_all (s : Style) : s ∈ all := by cases s <;> simp [all]

def id : Style → String
  | .feature => "feature"
  | .function => "fun"
  | .should => "should"
  | .describe => "describe"
  | .behavior => "behavior"
  | .expect => "expect"
  | .string => "string"

def simpleName : Style → String
  | .feature => "FeatureSpec"
  | .function => "FunSpec"
  | .should => "ShouldSpec"
  | .describe => "DescribeSpec"
  | .behavior => "BehaviorSpec"
  | .expect => "ExpectSpec"
  | .string => "StringSpec"

def basePackage : String := "io.kotest.core.spec.style"

def qualifiedName (s : Style) : String := basePackage ++ "." ++ s.simpleName

def label : Style → String
  | .feature => "Feature Spec"
  | .function => "Fun Spec"
  | .should => "Should Spec"
  | .describe => "Describe Spec"
  | .behavior => "Behavior Spec"
  | .expect => "Expect Spec"
  | .string => "String Spec"

def keywords : Style → List Keyword
  | .feature => [⟨"feature", "Feature: "⟩, ⟨"scenario", "Scenario: "⟩]
  | .function => [⟨"context", ""⟩, ⟨"test", ""⟩]
  | .should => [⟨"context", ""⟩, ⟨"should", "should "⟩]
  | .describe => [⟨"describe", "Describe: "⟩, ⟨"context", "Context: "⟩, ⟨"it", "It: "⟩]
  | .behavior =>
    [⟨"given", "Given: "⟩, ⟨"Given", "Given: "⟩, ⟨"when", "When: "⟩, ⟨"When", "When: "⟩,
      ⟨"and", "And: "⟩, ⟨"And", "And: "⟩, ⟨"then", "Then: "⟩, ⟨"Then", "Then: "⟩]
  | .expect => [⟨"context", "Context: "⟩, ⟨"expect", "Expect: "⟩]
  | .string => []

def opening : Style → String
  | .feature => "feature(\""
  | .function => "test(\""
  | .should => "should(\""
  | .describe => "describe(\""
  | .behavior => "given(\""
  | .expect => "expect(\""
  | .string => "\""

def closing : Style → String
  | .string => "\" \x7b \x7d"
  | _ => "\") \x7b \x7d"

def skeleton (s : Style) (name : String) : String := s.opening ++ name ++ s.closing

def placeholder : String := "\x7bname\x7d"

def template (s : Style) : String := s.skeleton placeholder

/-- A keyword by its name; the name with an `x` in front is its disabled twin. The flag tells
whether the twin was meant. -/
def keyword? (s : Style) (name : String) : Option (Keyword × Bool) :=
  match s.keywords.find? (·.name == name) with
  | some k => some (k, false)
  | none => do
    let rest ← Text.stripLead? "x" name
    let k ← s.keywords.find? (·.name == rest)
    return (k, true)

def ofBaseName? (name : String) : Option Style := all.find? (·.simpleName == name)

theorem ofBaseName?_simpleName (s : Style) : ofBaseName? s.simpleName = some s := by
  cases s <;> decide

def ofText? (text : String) : Option Style :=
  let wanted := Text.trim text
  all.find? fun s =>
    Text.eqIgnoringCase s.id wanted || Text.eqIgnoringCase s.simpleName wanted
      || Text.eqIgnoringCase s.qualifiedName wanted

def unknownMessage (text : String) : String :=
  "unknown spec style '" ++ Text.trim text ++ "' (expected one of: "
    ++ ", ".intercalate (all.map id) ++ ")"

end Style

end SpecAtlas
