import Mathlib.Data.List.Basic
import SpecAtlas.Report.Table

/-! Addresses of tests: the numbers of the file and of the spec, and those of the tests on the way
down. The rows of a table stand in the order of the addresses. -/

namespace SpecAtlas

namespace Address

variable {α β γ : Type}

def descend (items : List α) (next : α → List Nat → Option β) : List Nat → Option β
  | [] => none
  | n :: rest => items[n]?.bind (next · rest)

/-- The list has all that there is at an address, in the order of the addresses. An address comes
before those that go on from it. -/
def InOrder (look : List Nat → Option β) (found : List β) : Prop :=
  ∃ ways : List (List Nat), ways.Pairwise (· < ·) ∧ (∀ way, (look way).isSome → way ∈ ways) ∧
    ways.map look = found.map some

def later : List Nat → List Nat
  | [] => []
  | n :: rest => (n + 1) :: rest

lemma later_lt_later {x y : List Nat} (h : x < y) : later x < later y := by
  cases x with
  | nil =>
    cases y with
    | nil => exact h
    | cons m y => exact List.nil_lt_cons _ _
  | cons n x =>
    cases y with
    | nil => exact absurd h (List.not_lt_nil _)
    | cons m y =>
      rw [later, later, List.cons_lt_cons_iff]
      rcases List.cons_lt_cons_iff.mp h with hlt | ⟨rfl, hlt⟩
      · exact .inl (Nat.succ_lt_succ hlt)
      · exact .inr ⟨rfl, hlt⟩

lemma descend_cons_later (a : α) (items : List α) (next : α → List Nat → Option β)
    (way : List Nat) : descend (a :: items) next (later way) = descend items next way := by
  cases way <;> rfl

lemma isSome_of_map_eq {look : List Nat → Option β} {ways : List (List Nat)} {found : List β}
    (h : ways.map look = found.map some) {way : List Nat} (hway : way ∈ ways) :
    (look way).isSome := by
  have hmem : look way ∈ found.map some := h ▸ List.mem_map_of_mem hway
  obtain ⟨b, -, hb⟩ := List.mem_map.mp hmem
  rw [← hb]
  rfl

lemma exists_cons_of_isSome_descend {items : List α} {next : α → List Nat → Option β}
    {way : List Nat} (h : (descend items next way).isSome) : ∃ n rest, way = n :: rest := by
  cases way with
  | nil => cases h
  | cons n rest => exact ⟨n, rest, rfl⟩

lemma InOrder.map {look : List Nat → Option β} {found : List β} (h : InOrder look found)
    (f : β → γ) : InOrder (fun way => (look way).map f) (found.map f) := by
  obtain ⟨ways, hsorted, hall, hfound⟩ := h
  refine ⟨ways, hsorted, fun way hway => hall way (by simpa using hway), ?_⟩
  have hmap := congrArg (List.map (Option.map f)) hfound
  simpa [Function.comp_def] using hmap

lemma InOrder.top {items : List α} {next : α → List Nat → Option β} {found : List β}
    (h : InOrder (descend items next) found) {b : β} {look : List Nat → Option β}
    (hnil : look [] = some b)
    (hcons : ∀ n rest, look (n :: rest) = descend items next (n :: rest)) :
    InOrder look (b :: found) := by
  obtain ⟨ways, hsorted, hall, hfound⟩ := h
  have hways (way) (hway : way ∈ ways) : ∃ n rest, way = n :: rest :=
    exists_cons_of_isSome_descend (isSome_of_map_eq hfound hway)
  refine ⟨[] :: ways, List.pairwise_cons.mpr ⟨fun way hway => ?_, hsorted⟩, fun way hway => ?_, ?_⟩
  · obtain ⟨n, rest, rfl⟩ := hways way hway
    exact List.nil_lt_cons n rest
  · cases way with
    | nil => exact List.mem_cons_self
    | cons n rest =>
      rw [hcons] at hway
      exact List.mem_cons_of_mem _ (hall _ hway)
  · rw [List.map_cons, List.map_cons, hnil, ← hfound]
    refine congrArg (some b :: ·) (List.map_congr_left fun way hway => ?_)
    obtain ⟨n, rest, rfl⟩ := hways way hway
    exact hcons n rest

lemma InOrder.nil (next : α → List Nat → Option β) : InOrder (descend [] next) [] := by
  refine ⟨[], List.Pairwise.nil, fun way hway => ?_, rfl⟩
  cases way <;> cases hway

lemma InOrder.cons {a : α} {items : List α} {next : α → List Nat → Option β} {first others : List β}
    (hfirst : InOrder (next a) first) (hothers : InOrder (descend items next) others) :
    InOrder (descend (a :: items) next) (first ++ others) := by
  obtain ⟨ways, hsorted, hall, hfound⟩ := hfirst
  obtain ⟨ways', hsorted', hall', hfound'⟩ := hothers
  refine ⟨ways.map (0 :: ·) ++ ways'.map later, List.pairwise_append.mpr ⟨?_, ?_, ?_⟩,
    fun way hway => ?_, ?_⟩
  · exact hsorted.map _ fun x y hxy => List.cons_lt_cons_iff.mpr (.inr ⟨rfl, hxy⟩)
  · exact hsorted'.map _ fun x y => later_lt_later
  · intro x hx y hy
    obtain ⟨rest, -, rfl⟩ := List.mem_map.mp hx
    obtain ⟨way, hway, rfl⟩ := List.mem_map.mp hy
    obtain ⟨n, more, rfl⟩ := exists_cons_of_isSome_descend (isSome_of_map_eq hfound' hway)
    exact List.cons_lt_cons_iff.mpr (.inl n.succ_pos)
  · obtain ⟨n, rest, rfl⟩ := exists_cons_of_isSome_descend hway
    cases n with
    | zero => exact List.mem_append_left _ (List.mem_map_of_mem (hall rest hway))
    | succ n => exact List.mem_append_right _ (List.mem_map_of_mem (hall' (n :: rest) hway))
  · have hzero : (ways.map (0 :: ·)).map (descend (a :: items) next) = ways.map (next a) := by
      rw [List.map_map]
      rfl
    have hlater : (ways'.map later).map (descend (a :: items) next)
        = ways'.map (descend items next) := by
      rw [List.map_map]
      exact List.map_congr_left fun way _ => descend_cons_later a items next way
    rw [List.map_append, List.map_append, hzero, hlater, hfound, hfound']

lemma InOrder.flatMap {items : List α} {next : α → List Nat → Option β} {found : α → List β}
    (h : ∀ a ∈ items, InOrder (next a) (found a)) :
    InOrder (descend items next) (items.flatMap found) := by
  induction items with
  | nil => exact .nil next
  | cons a items ih =>
    obtain ⟨hfirst, hothers⟩ := List.forall_mem_cons.mp h
    exact hfirst.cons (ih hothers)

end Address

open Address

namespace TestReport

def below? (t : TestReport) : List Nat → Option TestReport
  | [] => some t
  | n :: rest => t.children[n]?.bind (·.below? rest)

mutual

theorem below?_inOrder : (t : TestReport) → InOrder t.below? t.flatten
  | ⟨_, _, _, _, _, children⟩ => (descend_inOrder children).top rfl fun _ _ => rfl

theorem descend_inOrder : (ts : List TestReport) →
    InOrder (descend ts below?) (flattenAll ts)
  | [] => .nil below?
  | t :: ts => (below?_inOrder t).cons (descend_inOrder ts)

end

end TestReport

structure PlacedTest where
  file : FileReport
  spec : SpecReport
  test : TestReport

def PlacedTest.row (p : PlacedTest) : TableRow := .ofTest p.file.path p.spec.fqn p.test

def ScanResult.placed? (r : ScanResult) : List Nat → Option PlacedTest :=
  descend r.files fun file => descend file.specs fun spec way =>
    (descend spec.tests TestReport.below? way).map fun test => { file, spec, test }

lemma TableRow.ofResult_inOrder (r : ScanResult) :
    InOrder (fun way => (r.placed? way).map PlacedTest.row) (ofResult r) := by
  have hplaced : InOrder r.placed? (r.files.flatMap fun file => file.specs.flatMap fun spec =>
      (TestReport.flattenAll spec.tests).map fun test => { file, spec, test }) :=
    .flatMap fun file _ => .flatMap fun spec _ => (TestReport.descend_inOrder spec.tests).map _
  have hrows := hplaced.map PlacedTest.row
  simp only [List.map_flatMap, List.map_map] at hrows
  exact hrows

end SpecAtlas
