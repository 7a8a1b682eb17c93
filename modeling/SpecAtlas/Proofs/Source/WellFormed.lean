import Mathlib.Algebra.Group.Nat.Defs
import SpecAtlas.Proofs.Source.Lineage

/-! Well-formed syntax trees: every node covers its children, which follow one another without
overlapping. Two places of such a tree lie in one another or apart, and the text range that is shown
for a place determines the bytes that it covers. -/

namespace SpecAtlas.Source

namespace Place

def Nested (p : Place) : Prop := ∀ q ∈ p.preorder, ∀ c ∈ q.children, q.covers c = true

def Ordered (p : Place) : Prop :=
  ∀ q ∈ p.preorder, q.children.Pairwise fun c d => c.stop ≤ d.start

instance (p : Place) : Decidable p.Nested :=
  inferInstanceAs (Decidable (∀ q ∈ p.preorder, ∀ c ∈ q.children, q.covers c = true))

instance (p : Place) : Decidable p.Ordered :=
  inferInstanceAs (Decidable (∀ q ∈ p.preorder, q.children.Pairwise fun c d => c.stop ≤ d.start))

variable {p q : Place}

lemma covers_iff : p.covers q = true ↔ p.start ≤ q.start ∧ q.stop ≤ p.stop := by
  simp [covers]

lemma Nested.of_mem (h : p.Nested) (hq : q ∈ p.preorder) : q.Nested :=
  fun r hr => h r (mem_preorder_trans hq hr)

lemma Ordered.of_mem (h : p.Ordered) (hq : q ∈ p.preorder) : q.Ordered :=
  fun r hr => h r (mem_preorder_trans hq hr)

lemma Nested.bounds (h : p.Nested) (hq : q ∈ p.preorder) :
    p.start ≤ q.start ∧ q.stop ≤ p.stop := by
  induction p using preorder.induct with
  | case1 p ih =>
    rcases mem_preorder.mp hq with rfl | ⟨c, hc, hqc⟩
    · exact ⟨le_rfl, le_rfl⟩
    · have hpc := covers_iff.mp (h p (self_mem_preorder p) c hc)
      have hcq := ih c hc (h.of_mem (mem_preorder_of_mem_children hc)) hqc
      exact ⟨hpc.1.trans hcq.1, hcq.2.trans hpc.2⟩

lemma Nested.covers (h : p.Nested) (hq : q ∈ p.preorder) : p.covers q = true :=
  covers_iff.mpr (h.bounds hq)

lemma Ordered.children_cases (h : p.Ordered) {c d : Place} (hc : c ∈ p.children)
    (hd : d ∈ p.children) : c = d ∨ c.stop ≤ d.start ∨ d.stop ≤ c.start := by
  have hpair := List.pairwise_iff_getElem.mp (h p (self_mem_preorder p))
  obtain ⟨i, hi, rfl⟩ := List.mem_iff_getElem.mp hc
  obtain ⟨j, hj, rfl⟩ := List.mem_iff_getElem.mp hd
  rcases lt_trichotomy i j with hij | rfl | hij
  · exact .inr (.inl (hpair i j hi hj hij))
  · exact .inl rfl
  · exact .inr (.inr (hpair j i hj hi hij))

lemma nested_or_apart {r : Place} (hn : r.Nested) (ho : r.Ordered) (hp : p ∈ r.preorder)
    (hq : q ∈ r.preorder) :
    q ∈ p.preorder ∨ p ∈ q.preorder ∨ p.stop ≤ q.start ∨ q.stop ≤ p.start := by
  induction r using preorder.induct with
  | case1 r ih =>
    rcases mem_preorder.mp hp with rfl | ⟨c, hc, hpc⟩
    · exact .inl hq
    rcases mem_preorder.mp hq with rfl | ⟨d, hd, hqd⟩
    · exact .inr (.inl hp)
    have hcr := mem_preorder_of_mem_children hc
    have hpb := (hn.of_mem hcr).bounds hpc
    have hqb := (hn.of_mem (mem_preorder_of_mem_children hd)).bounds hqd
    rcases ho.children_cases hc hd with rfl | h | h
    · exact ih c hc (hn.of_mem hcr) (ho.of_mem hcr) hpc hqd
    · exact .inr (.inr (.inl (hpb.2.trans (h.trans hqb.1))))
    · exact .inr (.inr (.inr (hqb.2.trans (h.trans hpb.1))))

end Place

namespace Point

lemma bounds_ofOffset (bytes : ByteArray) (n : Nat) :
    (ofOffset bytes n).row ≤ n ∧ (ofOffset bytes n).column ≤ n := by
  induction n with
  | zero => exact ⟨le_rfl, le_rfl⟩
  | succ n ih =>
    rw [ofOffset_succ, advance]
    split
    · exact ⟨Nat.succ_le_succ ih.1, Nat.zero_le _⟩
    · exact ⟨ih.1.trans (Nat.le_succ n), Nat.succ_le_succ ih.2⟩

lemma eq_of_row_of_column {p q : Point} (hr : p.row = q.row) (hc : p.column = q.column) :
    p = q := by
  cases p
  cases q
  simp_all

lemma before_trans {p q r : Point} (hpq : p.before q = true) (hqr : q.before r = true) :
    p.before r = true := by
  rw [before_iff] at *
  omega

lemma before_ofOffset (bytes : ByteArray) {m n : Nat} (h : m < n) :
    (ofOffset bytes m).before (ofOffset bytes n) = true := by
  induction n with
  | zero => omega
  | succ n ih =>
    rw [ofOffset_succ]
    have hstep := before_advance (ofOffset bytes n) (byteAt bytes n)
    rcases Nat.lt_succ_iff_lt_or_eq.mp h with hlt | rfl
    · exact before_trans (ih hlt) hstep
    · exact hstep

lemma ofOffset_injective (bytes : ByteArray) {m n : Nat} (h : ofOffset bytes m = ofOffset bytes n) :
    m = n := by
  rcases lt_trichotomy m n with hlt | heq | hlt
  · simpa [h, before_irrefl] using before_ofOffset bytes hlt
  · exact heq
  · simpa [h, before_irrefl] using before_ofOffset bytes hlt

end Point

lemma eq_of_ofNat_succ_eq {m n : Nat} (hm : m < 2 ^ 32 - 1) (hn : n < 2 ^ 32 - 1)
    (h : UInt32.ofNat (m + 1) = UInt32.ofNat (n + 1)) : m = n := by
  have hval := congrArg UInt32.toNat h
  have hsize : UInt32.size = 2 ^ 32 := rfl
  rw [UInt32.toNat_ofNat_of_lt' (by omega), UInt32.toNat_ofNat_of_lt' (by omega)] at hval
  omega

namespace File

/-- A tree that fits its text: children lie in order inside their parent, lambdas and string
literals are not empty, and lines and columns can be counted in 32 bits. -/
structure WellFormed (f : File) : Prop where
  nested : f.rootPlace.Nested
  ordered : f.rootPlace.Ordered
  filled : ∀ p ∈ f.rootPlace.preorder,
    p.kind = "lambda_literal" ∨ p.kind = "string_literal" → p.start < p.stop
  inside : f.root.stop ≤ f.text.utf8ByteSize
  short : f.text.utf8ByteSize < 2 ^ 32 - 1

instance (f : File) : Decidable f.WellFormed :=
  decidable_of_iff
    (f.rootPlace.Nested ∧ f.rootPlace.Ordered ∧
      (∀ p ∈ f.rootPlace.preorder,
        p.kind = "lambda_literal" ∨ p.kind = "string_literal" → p.start < p.stop) ∧
      f.root.stop ≤ f.text.utf8ByteSize ∧ f.text.utf8ByteSize < 2 ^ 32 - 1)
    ⟨fun ⟨hn, ho, hf, hi, hs⟩ => ⟨hn, ho, hf, hi, hs⟩,
      fun h => ⟨h.nested, h.ordered, h.filled, h.inside, h.short⟩⟩

lemma pointAt_injective {f : File} (h : f.text.utf8ByteSize < 2 ^ 32 - 1) {m n : Nat}
    (hm : m ≤ f.text.utf8ByteSize) (hn : n ≤ f.text.utf8ByteSize)
    (hrow : UInt32.ofNat ((f.pointAt m).row + 1) = UInt32.ofNat ((f.pointAt n).row + 1))
    (hcolumn : UInt32.ofNat ((f.pointAt m).column + 1) =
      UInt32.ofNat ((f.pointAt n).column + 1)) : m = n := by
  have hmb := Point.bounds_ofOffset f.text.toByteArray m
  have hnb := Point.bounds_ofOffset f.text.toByteArray n
  have hr : (f.pointAt m).row = (f.pointAt n).row :=
    eq_of_ofNat_succ_eq (by simp only [pointAt]; omega) (by simp only [pointAt]; omega) hrow
  have hc : (f.pointAt m).column = (f.pointAt n).column :=
    eq_of_ofNat_succ_eq (by simp only [pointAt]; omega) (by simp only [pointAt]; omega) hcolumn
  exact Point.ofOffset_injective f.text.toByteArray (Point.eq_of_row_of_column hr hc)

lemma WellFormed.stop_le {f : File} (h : f.WellFormed) {p : Place}
    (hp : p ∈ f.rootPlace.preorder) : p.stop ≤ f.text.utf8ByteSize :=
  (h.nested.bounds hp).2.trans h.inside

lemma WellFormed.bytes_of_rangeOf_eq {f : File} (h : f.WellFormed) {p q : Place}
    (hp : p ∈ f.rootPlace.preorder) (hq : q ∈ f.rootPlace.preorder) (hpf : p.start < p.stop)
    (hqf : q.start < q.stop) (he : f.rangeOf p = f.rangeOf q) :
    p.start = q.start ∧ p.stop = q.stop := by
  simp only [rangeOf, TextRange.ofPoints, TextRange.mk.injEq] at he
  obtain ⟨hsr, hsc, her, hec⟩ := he
  have hps := h.stop_le hp
  have hqs := h.stop_le hq
  exact ⟨pointAt_injective h.short (by omega) (by omega) hsr hsc,
    pointAt_injective h.short hps hqs her hec⟩

end File

end SpecAtlas.Source
