import SpecAtlas.Proofs.Workspace.Contents

/-! Calls on one index. Builds, scans and descriptions follow each other, each of them successful or
not, while anything may happen to the rest of the workspace. -/

namespace SpecAtlas

open Files

inductive IndexCall where
  | build (config : IndexConfig)
  | scan (config : ScanConfig) (index : IndexConfig)
  | describe (config : IndexConfig)

def IndexCall.path : IndexCall → String
  | build config => config.indexPath
  | scan _ index => index.indexPath
  | describe config => config.indexPath

namespace Workspace

variable {w v : Workspace} {names : List String} {path : String} {c : IndexCall}
  {allowed : Workspace → IndexCall → Prop}

def call (w : Workspace) : IndexCall → Workspace
  | .build config => (w.buildIndex config).1
  | .scan config index => (w.scan { config with index := some index }).1
  | .describe config => (w.describeIndex config).1

def Aims (w : Workspace) (names : List String) (c : IndexCall) : Prop :=
  ∀ site ∈ w.site? c.path, site = names

instance (w : Workspace) (names : List String) (c : IndexCall) : Decidable (w.Aims names c) :=
  inferInstanceAs (Decidable (∀ site ∈ w.site? c.path, site = names))

/-- Allowed calls on the index at the names lead from one workspace to the other. Between the calls
everything but this index may change. -/
inductive Reaches (names : List String) (allowed : Workspace → IndexCall → Prop) (w : Workspace) :
    Workspace → Prop
  | start : Reaches names allowed w w
  | elsewhere {v u : Workspace} : Reaches names allowed w v → u.held names = v.held names →
      Reaches names allowed w u
  | call {v : Workspace} {c : IndexCall} : Reaches names allowed w v → allowed v c →
      v.Aims names c → Reaches names allowed w (v.call c)

lemma Reaches.invariant {P : Index → Prop} (h : Reaches names allowed w v)
    (hstart : P (w.held names))
    (hcall : ∀ v c, allowed v c → v.Aims names c → P (v.held names) → P ((v.call c).held names)) :
    P (v.held names) := by
  induction h with
  | start => exact hstart
  | elsewhere _ hheld ih => exact hheld ▸ ih
  | call _ hallowed haims ih => exact hcall _ _ hallowed haims ih

lemma Reaches.wait (now : UInt64) : Reaches names allowed w { w with now } := .elsewhere .start rfl

lemma held_of_confined (hsite : w.site? path = none) (h : w.Confined path v) :
    v.held names = w.held names := by
  rw [Confined, places, hsite] at h
  have hmade := w.held_makeParent path names
  rw [← hmade]
  exact held_congr (h.bare? names List.not_mem_nil)

lemma confined_andThen {α : Type} {next : Workspace → OpenIndex → Attempt α}
    (h : ∀ u o, w.Confined path u → Stable.Opened (fun _ => True) (w.site? path) o →
      w.Confined path (next u o).1) :
    w.Confined path ((w.openIndex path).andThen next).1 := by
  have hopened := w.openIndex_confined path
  generalize w.openIndex path = opened at hopened ⊢
  obtain ⟨u, e | o⟩ := opened
  · exact hopened.1
  · exact h u o hopened.1 (hopened.2 o rfl)

lemma held_call_of_site_none (hsite : w.site? c.path = none) :
    (w.call c).held names = w.held names := by
  cases c with
  | build config =>
    rw [call, buildIndex]
    exact held_of_confined hsite (confined_andThen fun u o hu ho => hu.conclude ho _)
  | scan config index =>
    rw [call, Workspace.scan]
    dsimp only
    split
    · rfl
    · exact held_of_confined hsite (confined_andThen fun u o hu ho => hu.conclude ho _)
  | describe config =>
    rw [call, describeIndex]
    split
    · rfl
    · rfl
    · refine held_of_confined hsite (confined_andThen fun u o hu ho => ?_)
      exact (w.confined_stable config.indexPath).close hu ho

lemma Aims.held_call {P : Index → Prop} (h : w.Aims names c) (hself : P (w.held names))
    (hopened : P (w.held names).opened)
    (hbuilt : ∀ env path config, P (Index.attempt env path config (w.held names).opened).1)
    (hscanned : ∀ env hide files, P (scanFiles env hide files (w.held names).opened).1) :
    P ((w.call c).held names) := by
  cases hsite : w.site? c.path with
  | none =>
    rw [held_call_of_site_none hsite]
    exact hself
  | some site =>
    obtain rfl := h site hsite
    cases c with
    | build config =>
      rcases held_buildIndex hsite with hheld | hheld | hheld
      · exact hheld ▸ hself
      · exact hheld ▸ hopened
      · exact hheld ▸ hbuilt ..
    | scan config index =>
      have hindex : { config with index := some index }.index = some index := rfl
      rcases held_scan hindex hsite with hheld | hheld | ⟨env, files, hheld⟩
      · exact hheld ▸ hself
      · exact hheld ▸ hopened
      · exact hheld ▸ hscanned ..
    | describe config =>
      rcases held_describeIndex hsite with hheld | hheld
      · exact hheld ▸ hself
      · exact hheld ▸ hopened

lemma Aims.carries (h : w.Aims names c) : (w.held names).Carries ((w.call c).held names) := by
  have hopened := Index.Carries.opened (w.held names)
  refine h.held_call (.refl _) hopened (fun env path config => ?_) fun env hide files => ?_
  · exact hopened.trans (.attempt env path config _)
  · exact hopened.trans (.scanFiles env hide files _)

/-- An index stays bound to its root. Whatever calls there are, the time of its creation stays as it
was once saved, and so does its root from the first time on that it has one. A build for another
directory fails and leaves the index as it was opened. -/
theorem index_stays_bound (w : Workspace) (names : List String) :
    (∀ v, Reaches names (fun _ _ => True) w v → (w.held names).entries ≠ [] → ∀ now later,
      ∃ m m', (w.held names).opened.loadMeta now = .ok m ∧
        (v.held names).opened.loadMeta later = .ok m' ∧ m'.createdAt = m.createdAt ∧
        (m.rootPath ≠ "" → m'.rootPath = m.rootPath)) ∧
    ∀ config m stored requested, w.site? config.indexPath = some names →
      (w.held names).opened.loadMeta (w.openIndex config.indexPath).1.now = .ok m →
      m.rootPath ≠ "" →
      (w.openIndex config.indexPath).1.files.canonical? m.rootPath = some stored →
      (w.openIndex config.indexPath).1.files.canonical? (config.paths.headD "") = some requested →
      Path.same stored requested = false →
      (∃ e, (w.buildIndex config).2 = .error e) ∧
        (w.buildIndex config).1.held names = (w.openIndex config.indexPath).1.held names := by
  constructor
  · intro v hreaches hsaved now later
    have hcarries : (w.held names).Carries (v.held names) := by
      refine hreaches.invariant (P := (w.held names).Carries) (.refl _) ?_
      exact fun u c _ haims hu => hu.trans haims.carries
    exact hcarries.loadMeta hsaved now later
  · intro config m stored requested hsite hm hroot hstored hrequested hother
    have hbuilt := buildIndex_yields hsite
    obtain ⟨e, hattempt⟩ := Index.exists_error_of_bind (w.openIndex config.indexPath).1.env
      config.indexPath hm (Index.bind_of_not_same hroot hstored hrequested hother)
    generalize w.buildIndex config = built at hbuilt ⊢
    obtain ⟨v, f | summary⟩ := built
    · exact ⟨⟨f, rfl⟩, hbuilt⟩
    · have hyields := hattempt.symm.trans (show _ = (v.held names, Except.ok summary) from hbuilt)
      cases congrArg Prod.snd hyields

def twoDirectories : Workspace :=
  ofEntries
    [("a", .directory [("A.kt", .file (.bytes "class A".toByteArray none) 1)]),
      ("b", .directory [("B.kt", .file (.bytes "class B".toByteArray none) 1)])]

def specsOf (dir : String) : IndexConfig := { paths := [dir], indexPath := "specs.db" }

def boundToFirst : Workspace := twoDirectories.call (.build (specsOf "a"))

def scannedLater : Workspace :=
  { boundToFirst with now := 9 }.call (.scan { paths := ["b"] } (specsOf "b"))

lemma reaches_scannedLater :
    Reaches ["specs.db"] (fun _ _ => True) boundToFirst scannedLater :=
  .call (.wait 9) trivial (by decide +kernel)

theorem index_stays_bound_scannedLater :
    (∃ m m', (boundToFirst.held ["specs.db"]).opened.loadMeta 5 = .ok m ∧
      (scannedLater.held ["specs.db"]).opened.loadMeta 9 = .ok m' ∧ m'.createdAt = m.createdAt ∧
      (m.rootPath ≠ "" → m'.rootPath = m.rootPath)) ∧
    (∃ e, (boundToFirst.buildIndex (specsOf "b")).2 = .error e) ∧
      (boundToFirst.buildIndex (specsOf "b")).1.held ["specs.db"] =
        (boundToFirst.openIndex (specsOf "b").indexPath).1.held ["specs.db"] := by
  obtain ⟨hkept, hrefused⟩ := index_stays_bound boundToFirst ["specs.db"]
  obtain ⟨m, hm⟩ := Index.exists_loadMeta_opened (boundToFirst.held ["specs.db"])
    (boundToFirst.openIndex (specsOf "b").indexPath).1.now
  have hroot : m.rootPath = "/work/a" :=
    (Index.of_loadMeta_eq_ok hm).2.trans (by decide +kernel)
  refine ⟨hkept scannedLater reaches_scannedLater (by decide +kernel) 5 9, ?_⟩
  apply hrefused (specsOf "b") m "/work/a" "/work/b" (by decide +kernel) hm
  · rw [hroot]
    decide
  · rw [hroot]
    decide +kernel
  · decide +kernel
  · decide +kernel

end Workspace

end SpecAtlas
