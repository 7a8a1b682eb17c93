import SpecAtlas.Proofs.Index.Binding
import SpecAtlas.Proofs.Workspace.Frame

/-! What the file of an index holds. Opening an index drops the rows of another version and leaves
the rest as it was, and what is done with an open index is written back as a whole or not at all. -/

namespace SpecAtlas

open Files

variable {α β : Type} {w v : Workspace} {c : Connection} {d : Database} {o : OpenIndex}
  {names : List String} {path file : String}

namespace Files.Entry

lemma get?_put_self {e new x : Entry} (h : e.get? names = some x) :
    (e.put new names).get? names = some new := by
  induction names generalizing e with
  | nil => rfl
  | cons name rest ih =>
    cases e with
    | file content time => cases h
    | link target => cases h
    | directory entries =>
      rw [get?_cons] at h
      obtain ⟨⟨n, child⟩, hfind, hchild⟩ := Option.bind_eq_some_iff.mp h
      rw [put, hfind]
      dsimp only
      rw [get?_cons, find?_place_self]
      exact ih hchild

end Files.Entry

namespace Files.FileTree

variable {t : FileTree} {here : List String} {content : Content} {time : Int}

lemma bare?_eq_file_iff :
    t.bare? names = some (.file content time) ↔ t.get? names = some (.file content time) := by
  rw [bare?, Entry.bare?, ← get?]
  cases t.get? names with
  | none => simp
  | some e => cases e <;> simp [Entry.bare]

lemma bare?_makeDirectory :
    (t.makeDirectory here path).1.bare? names = some (.file content time) ↔
      t.bare? names = some (.file content time) := by
  refine ⟨fun h => ?_, (Extends.makeDirectory t here path).bare? names _⟩
  rw [makeDirectory] at h
  split at h
  · exact h
  · split at h
    · exact h
    · exact h
    · rename_i dir name hfree
      have hnone : t.bare? (dir ++ [name]) = none :=
        congrArg (Option.map Entry.bare) (leads_of_follow hfree).get?_free
      by_cases hnames : names = dir ++ [name]
      · subst hnames
        rcases t.root.bare?_put_self (.directory []) (dir ++ [name]) with hself | hself
        · cases hself.symm.trans h
        · exact hself.symm.trans h
      · have hleaf : t.bare? (dir ++ [name]) ≠ some (.directory []) := by simp [hnone]
        exact (Entry.bare?_put rfl hleaf hnames).symm.trans h

lemma bare?_makeParent :
    (t.makeParent here path).1.bare? names = some (.file content time) ↔
      t.bare? names = some (.file content time) := by
  apply makeParent_invariant
    (R := fun u =>
      u.bare? names = some (.file content time) ↔ t.bare? names = some (.file content time))
  · exact fun u path hu => bare?_makeDirectory.trans hu
  · exact Iff.rfl

end Files.FileTree

lemma Companion.beside_ne (k : Companion) (names : List String) : k.beside names ≠ names := by
  intro h
  rcases List.eq_nil_or_concat' names with rfl | ⟨front, last, rfl⟩
  · simp [beside] at h
  · have hlength : (last ++ k.ending).length = last.length := by
      simpa [beside] using congrArg (fun l => (l.getLast?.getD "").length) h
    have hending : 0 < k.ending.length := by cases k <;> decide
    rw [String.length_append] at hlength
    omega

namespace Attempt

variable {done : Workspace → α → Prop} {next : Workspace → β → Prop}
  {failed failed' : Workspace → Prop} {a : Attempt α}

def Yields (done : Workspace → α → Prop) (failed : Workspace → Prop) : Attempt α → Prop
  | (w, .ok x) => done w x
  | (w, .error _) => failed w

lemma Keeps.yields {R : Workspace → Prop} {post : α → Prop} (h : Keeps R post a) :
    Yields (fun w x => R w ∧ post x) R a := by
  obtain ⟨w, e | x⟩ := a
  · exact h.1
  · exact ⟨h.1, h.2 x rfl⟩

namespace Yields

lemma andThen {g : Workspace → α → Attempt β} (h : Yields done failed a)
    (hg : ∀ w x, done w x → Yields next failed' (g w x)) (hf : ∀ w, failed w → failed' w) :
    Yields next failed' (a.andThen g) := by
  obtain ⟨w, e | x⟩ := a
  · exact hf w h
  · exact hg w x h

lemma mono {done' : Workspace → α → Prop} (h : Yields done failed a)
    (hd : ∀ w x, done w x → done' w x) (hf : ∀ w, failed w → failed' w) :
    Yields done' failed' a := by
  obtain ⟨w, e | x⟩ := a
  · exact hf w h
  · exact hd w x h

lemma map {g : α → β} (h : Yields done failed a) (hg : ∀ w x, done w x → next w (g x))
    (hf : ∀ w, failed w → failed' w) : Yields next failed' (a.map g) := by
  obtain ⟨w, e | x⟩ := a
  · exact hf w h
  · exact hg w x h

end Yields

end Attempt

namespace Workspace

open Attempt

/-- What the index holds whose file is at the names; without a database there it is empty. -/
def held (w : Workspace) (names : List String) : Index :=
  ((w.database? names).map Database.contents).getD {}

lemma database?_eq_some_iff :
    w.database? names = some d ↔ ∃ time, w.tree.bare? names = some (.file (.database d) time) := by
  simp only [FileTree.bare?_eq_file_iff]
  rw [database?]
  split
  · rename_i hget
    simp [hget]
  · rename_i hother
    simpa using hother d

lemma isVacant_iff :
    w.isVacant names = true ↔
      ∃ b former time, w.tree.bare? names = some (.file (.bytes b former) time) ∧ b.size ≤ 1 := by
  simp only [FileTree.bare?_eq_file_iff]
  rw [isVacant]
  split
  · rename_i hget
    simp [hget]
  · rename_i hother
    simp only [Bool.false_eq_true, false_iff, not_exists, not_and]
    exact fun b former time hget => absurd hget (hother b former time)

lemma database?_congr_of_iff (h : ∀ d time,
    v.tree.bare? names = some (.file (.database d) time) ↔
      w.tree.bare? names = some (.file (.database d) time)) :
    v.database? names = w.database? names := by
  ext d
  rw [database?_eq_some_iff, database?_eq_some_iff]
  exact exists_congr (h d)

lemma database?_congr (h : v.tree.bare? names = w.tree.bare? names) :
    v.database? names = w.database? names :=
  database?_congr_of_iff fun d time => by rw [h]

lemma held_congr_of_iff (h : ∀ d time,
    v.tree.bare? names = some (.file (.database d) time) ↔
      w.tree.bare? names = some (.file (.database d) time)) : v.held names = w.held names := by
  rw [held, held, database?_congr_of_iff h]

lemma held_congr (h : v.tree.bare? names = w.tree.bare? names) : v.held names = w.held names := by
  rw [held, held, database?_congr h]

lemma held_of_database? (h : w.database? names = some d) : w.held names = d.contents := by
  rw [held, h]
  rfl

lemma database?_put (h : w.tree.bare? names ≠ none) :
    (w.put names (.database d)).database? names = some d := by
  obtain ⟨e, he⟩ := Option.ne_none_iff_exists'.mp h
  obtain ⟨x, hx, -⟩ := Option.map_eq_some_iff.mp he
  rw [database?, put, FileTree.get?, FileTree.put, Entry.get?_put_self hx]

lemma tended_at (names : List String) (x : Option Entry) :
    Tended (some names) fun v => v.tree.bare? names = x := by
  constructor
  · intro v place k h hsite hnone
    cases hsite
    have hleaf : v.tree.bare? (k.beside names) ≠ some (.directory []) := by
      rw [FileTree.bare?, Entry.bare?, ← FileTree.get?, hnone]
      simp
    exact (Entry.bare?_put rfl hleaf (k.beside_ne names).symm).trans h
  · intro v place k h hsite
    cases hsite
    have hdiffer : v.tree.Differ [k.beside names] (v.dropBeside k names).tree :=
      .unlink (List.mem_singleton_self _)
    exact (hdiffer.bare? names (by simpa using (k.beside_ne names).symm)).trans h

def Seats (names : List String) (d : Database) (w : Workspace) : Prop :=
  w.database? names = some d ∨ w.isVacant names = true ∧ d.index = none

namespace Seats

lemma congr (h : Seats names d w) (hv : v.tree.bare? names = w.tree.bare? names) :
    Seats names d v := by
  rw [Seats, isVacant_iff, database?_congr hv, hv, ← isVacant_iff]
  exact h

lemma bare?_ne_none (h : Seats names d w) : w.tree.bare? names ≠ none := by
  rcases h with hd | ⟨hvacant, -⟩
  · obtain ⟨time, hd⟩ := database?_eq_some_iff.mp hd
    simp [hd]
  · obtain ⟨b, former, time, hb, -⟩ := isVacant_iff.mp hvacant
    simp [hb]

lemma held (h : Seats names d w) : w.held names = d.contents := by
  rcases h with hd | ⟨hvacant, hnew⟩
  · exact held_of_database? hd
  · obtain ⟨b, former, time, hb, -⟩ := isVacant_iff.mp hvacant
    have hnone : w.database? names = none := by
      by_contra hsome
      obtain ⟨d', hd'⟩ := Option.ne_none_iff_exists'.mp hsome
      obtain ⟨time', hd'⟩ := database?_eq_some_iff.mp hd'
      cases hb.symm.trans hd'
    rw [Workspace.held, hnone, Database.contents, hnew]
    rfl

end Seats

lemma readDatabase_keeps (w : Workspace) (hc : c.names = names) :
    Keeps (fun v => v.tree.bare? names = w.tree.bare? names)
      (fun r => r.1.names = names ∧ Seats names r.2 w) (w.readDatabase c) := by
  have htended := tended_at names (w.tree.bare? names)
  rw [readDatabase]
  refine (htended.recover (congrArg some hc.symm) rfl).andThen fun v c' hv hc' => ?_
  have hnames : c'.names = names := (Option.some.inj hc').symm
  split
  · rename_i d hd
    rw [hnames, database?_congr hv] at hd
    split_ifs
    · refine (htended.openLog hc' hv).map fun c'' hc'' => ?_
      exact ⟨(Option.some.inj hc'').symm, .inl hd⟩
    · exact .ok hv ⟨hnames, .inl hd⟩
  · split_ifs with hvacant
    · refine .ok hv ⟨hnames, .inr ⟨?_, rfl⟩⟩
      rw [hnames, isVacant_iff, hv] at hvacant
      exact isVacant_iff.mpr hvacant
    · exact .error (htended.foldLog hc' hv) _

lemma writeDatabase_yields (hc : c.names = names) (hw : w.tree.bare? names ≠ none)
    (d : Database) :
    Yields (fun v _ => v.database? names = some d)
      (fun v => v.tree.bare? names = w.tree.bare? names) (w.writeDatabase c d) := by
  have htended := tended_at names (w.tree.bare? names)
  have hsite : some names = some c.names := congrArg some hc.symm
  rw [writeDatabase]
  split_ifs
  · exact rfl
  · rw [hc]
    exact database?_put hw
  · refine (htended.openBeside hsite rfl).yields.andThen (fun v _ hv => ?_) fun v hv => hv
    have hdropped := htended.dropBeside .journal hv.1 hsite
    rw [hc]
    rw [hc] at hdropped
    exact database?_put (hdropped ▸ hw)

lemma startLog_yields (hc : c.names = names) (h : Seats names d w) :
    Yields (fun v r => r.1.names = names ∧ Seats names r.2 v ∧ r.2.contents = d.contents)
      (fun v => v.held names = d.contents) (w.startLog c d) := by
  rw [startLog]
  dsimp only
  split_ifs
  · exact ⟨hc, h, rfl⟩
  · -- if the log cannot be opened, the database says already that it has one
    refine (writeDatabase_yields hc h.bare?_ne_none { d with logged := true }).andThen
      (fun v _ hv => ?_) fun v hv => (h.congr hv).held
    have hheld := held_of_database? hv
    have hopened := (tended_at names (v.tree.bare? names)).openLog (congrArg some hc.symm) rfl
    refine hopened.yields.map (fun u c' hu => ?_) fun u hu => ?_
    · exact ⟨(Option.some.inj hu.2).symm, .inl ((database?_congr hu.1).trans hv), rfl⟩
    · exact (held_congr hu).trans hheld

lemma prepare_yields (hc : c.names = names) (h : Seats names d w) :
    Yields (fun v r => r.1.names = names ∧ v.database? names = some r.2 ∧
        r.2.contents = d.contents.opened)
      (fun v => v.held names = d.contents) (w.prepare c d) := by
  rw [prepare]
  split_ifs with hready
  · refine ⟨hc, ?_, (congrArg Database.contents hready).symm⟩
    rcases h with hd | ⟨-, hnew⟩
    · exact hd
    · -- a new database has no tables yet
      rw [hnew] at hready
      exact absurd ((congrArg Database.index hready).trans hnew) (Option.some_ne_none _)
  · refine (writeDatabase_yields hc h.bare?_ne_none _).map (fun v _ hv => ⟨hc, hv, rfl⟩) ?_
    exact fun v hv => (h.congr hv).held

lemma connect_yields (w : Workspace) (hc : c.names = names) :
    Yields (fun v r => r.1.names = names ∧ v.database? names = some r.2 ∧
        r.2.contents = (w.held names).opened)
      (fun v => v.held names = w.held names) (w.connect c) := by
  rw [connect]
  refine (readDatabase_keeps w hc).yields.andThen (fun v r hr => ?_) fun v hv => held_congr hv
  obtain ⟨hv, hr, hseat⟩ := hr
  have hheld := hseat.held
  refine (startLog_yields hr (hseat.congr hv)).andThen (fun u s hs => ?_) fun u hu =>
    hu.trans hheld.symm
  obtain ⟨hs, hseat', hsame⟩ := hs
  rw [hheld, ← hsame]
  exact prepare_yields hs hseat'

def Attached (names : List String) (w : Workspace) (o : OpenIndex) : Prop :=
  ∃ d c, o.holder = .file d.serial c ∧ c.names = names ∧ w.database? names = some d ∧
    d.contents = o.contents

lemma openFile?_held {location : Location} {spot : List String}
    (hspot : w.indexSpot? file = some names)
    (h : w.openFile? location file = some (v, spot)) :
    spot = names ∧ v.held names = w.held names := by
  rw [openFile?] at h
  simp only [Option.bind_eq_bind, Option.bind_eq_some_iff, hspot] at h
  obtain ⟨_, -, place, hplace, h⟩ := h
  cases hplace
  split_ifs at h with hthere
  · cases h
    exact ⟨rfl, rfl⟩
  · simp only [Option.bind_eq_some_iff] at h
    obtain ⟨_, -, h⟩ := h
    cases h
    refine ⟨rfl, ?_⟩
    have hnone : w.tree.bare? names = none := by
      simpa [FileTree.bare?, Entry.bare?, FileTree.get?] using hthere
    refine held_congr_of_iff fun d time => ?_
    rw [hnone]
    rcases w.tree.root.bare?_put_self (.file (.bytes .empty none) w.now.toNat) names with hput |
      hput
    · rw [put, FileTree.bare?, FileTree.put, hput]
      simp [Entry.bare]
    · rw [put, FileTree.bare?, FileTree.put, hput, ← FileTree.bare?, hnone]

lemma openAt_yields {location : Location} (hsite : w.siteOf location = some names) :
    Yields (fun v o => Attached names v o ∧ o.contents = (w.held names).opened ∧ o.path = path)
      (fun v => v.held names = w.held names) (w.openAt path location) := by
  obtain ⟨file, hfile, hspot⟩ := Option.bind_eq_some_iff.mp hsite
  rw [openAt, hfile]
  dsimp only
  split
  · exact rfl
  · rename_i v spot hopen
    obtain ⟨rfl, hheld⟩ := openFile?_held hspot hopen
    refine (v.connect_yields rfl).andThen (fun u r hr => ?_) fun u hu => hu.trans hheld
    obtain ⟨hnames, hd, hcontents⟩ := hr
    rw [hheld] at hcontents
    exact ⟨⟨r.2, r.1, rfl, hnames, hd, rfl⟩, hcontents, rfl⟩

lemma held_makeParent (w : Workspace) (path : String) (names : List String) :
    { w with tree := (w.tree.makeParent w.here path).1 }.held names = w.held names :=
  held_congr_of_iff fun _ _ => FileTree.bare?_makeParent

lemma openIndex_yields (hsite : w.site? path = some names) :
    Yields (fun v o => Attached names v o ∧ o.contents = (w.held names).opened ∧ o.path = path)
      (fun v => v.held names = w.held names) (w.openIndex path) := by
  have hmade := w.held_makeParent path names
  rw [site?] at hsite
  rw [openIndex]
  generalize w.tree.makeParent w.here path = made at hsite hmade ⊢
  obtain ⟨tree, e | _⟩ := made
  · exact hmade
  · obtain ⟨location, hlocation, hsite⟩ := Option.bind_eq_some_iff.mp hsite
    dsimp only at hmade ⊢
    rw [hlocation, ← hmade]
    exact openAt_yields hsite

namespace Attached

lemma congr (h : Attached names w o) (hv : v.tree.bare? names = w.tree.bare? names) :
    Attached names v o := by
  obtain ⟨d, c, hholder, hc, hd, hcontents⟩ := h
  exact ⟨d, c, hholder, hc, (database?_congr hv).trans hd, hcontents⟩

lemma held (h : Attached names w o) : w.held names = o.contents := by
  obtain ⟨d, c, -, -, hd, hcontents⟩ := h
  exact (held_of_database? hd).trans hcontents

lemma content?_of_database? (hc : c.names = names) (hd : w.database? names = some d) :
    w.content? d.serial c = some (.database d) := by
  obtain ⟨time, hd⟩ := database?_eq_some_iff.mp hd
  rw [content?, hc, FileTree.bare?_eq_file_iff.mp hd]
  simp [Content.serial?]

lemma replace (h : Attached names w o) (i : Index) :
    Yields (fun v p => Attached names v p ∧ p.contents = i)
      (fun v => v.tree.bare? names = w.tree.bare? names) (w.replace o i) := by
  obtain ⟨d, c, hholder, hc, hd, -⟩ := h
  have hthere : w.tree.bare? names ≠ none := Seats.bare?_ne_none (.inl hd)
  rw [Workspace.replace, hholder]
  dsimp only
  rw [content?_of_database? hc hd]
  refine (writeDatabase_yields hc hthere { d with index := some i }).map (fun v _ hv => ?_) ?_
  · exact ⟨⟨{ d with index := some i }, c, rfl, hc, hv, rfl⟩, rfl⟩
  · exact fun v hv => hv

lemma close (h : Attached names w o) : (w.close o).held names = o.contents := by
  rw [← h.held]
  obtain ⟨d, c, hholder, hc, hd, -⟩ := h
  rw [Workspace.close, hholder]
  dsimp only
  split_ifs
  · rfl
  · rfl
  · have hleft : { w with users := w.users.erase d.serial }.database? names = some d := hd
    rw [settle, content?_of_database? hc hleft]
    have htended := tended_at names (w.tree.bare? names)
    exact held_congr (htended.foldLog (congrArg some hc.symm) rfl)

lemma conclude (h : Attached names w o) (r : Index × Except Failure α) :
    Yields (fun v x => r.2 = .ok x ∧ v.held names = r.1)
      (fun v => (∃ e, r.2 = .error e) ∧ v.held names = r.1 ∨ v.held names = o.contents)
      (w.conclude o r) := by
  have hreplaced := h.replace r.1
  rw [Workspace.conclude, keep]
  generalize w.replace o r.1 = replaced at hreplaced ⊢
  obtain ⟨i, result⟩ := r
  obtain ⟨v, e | p⟩ := replaced
  · -- nothing was written, whatever the step came to
    have hclosed := (h.congr hreplaced).close
    cases result with
    | error f => exact .inr hclosed
    | ok x => exact .inr hclosed
  · obtain ⟨hattached, rfl⟩ := hreplaced
    cases result with
    | error f => exact .inl ⟨⟨f, rfl⟩, hattached.close⟩
    | ok x => exact ⟨rfl, hattached.close⟩

end Attached

lemma held_openIndex (hsite : w.site? path = some names) :
    (w.openIndex path).1.held names = w.held names ∨
      (w.openIndex path).1.held names = (w.held names).opened := by
  have hopened := openIndex_yields hsite
  generalize w.openIndex path = opened at hopened ⊢
  obtain ⟨v, e | o⟩ := opened
  · exact .inl hopened
  · exact .inr (hopened.1.held.trans hopened.2.1)

lemma describeIndex_yields {config : IndexConfig}
    (hsite : w.site? config.indexPath = some names) :
    Yields (fun v _ => v.held names = (w.held names).opened)
      (fun v => v.held names = w.held names) (w.describeIndex config) := by
  rw [describeIndex]
  split
  · exact rfl
  · exact rfl
  · refine (openIndex_yields hsite).andThen (fun v o ho => ?_) fun v hv => hv
    obtain ⟨hattached, hcontents, -⟩ := ho
    obtain ⟨m, hm⟩ := Index.exists_loadMeta_opened (w.held names) v.now
    rw [Index.describe, hcontents, hm]
    exact hattached.close.trans hcontents

lemma held_describeIndex {config : IndexConfig} (hsite : w.site? config.indexPath = some names) :
    (w.describeIndex config).1.held names = w.held names ∨
      (w.describeIndex config).1.held names = (w.held names).opened := by
  have hdescribed := describeIndex_yields hsite
  generalize w.describeIndex config = described at hdescribed ⊢
  obtain ⟨v, e | summary⟩ := described
  · exact .inl hdescribed
  · exact .inr hdescribed

lemma buildIndex_yields {config : IndexConfig} (hsite : w.site? config.indexPath = some names) :
    Yields
      (fun v summary => Index.attempt (w.openIndex config.indexPath).1.env config.indexPath config
        (w.held names).opened = (v.held names, .ok summary))
      (fun v => v.held names = (w.openIndex config.indexPath).1.held names)
      (w.buildIndex config) := by
  have hopened := openIndex_yields hsite
  rw [buildIndex]
  generalize w.openIndex config.indexPath = opened at hopened ⊢
  obtain ⟨u, e | o⟩ := opened
  · exact rfl
  · obtain ⟨hattached, hcontents, hpath⟩ := hopened
    rw [andThen_ok, hpath, ← hcontents]
    refine (hattached.conclude _).mono (fun v summary hv => ?_) fun v hv => ?_
    · exact Prod.ext hv.2.symm hv.1
    · dsimp only
      rw [hattached.held]
      -- a failed attempt hands back what it was given
      rcases hv with ⟨⟨e, he⟩, hv⟩ | hv
      · rw [hv, Index.fst_attempt_of_error u.textual he]
      · exact hv

lemma held_buildIndex {config : IndexConfig} (hsite : w.site? config.indexPath = some names) :
    (w.buildIndex config).1.held names = w.held names ∨
      (w.buildIndex config).1.held names = (w.held names).opened ∨
      (w.buildIndex config).1.held names =
        (Index.attempt (w.openIndex config.indexPath).1.env config.indexPath config
          (w.held names).opened).1 := by
  have hbuilt := buildIndex_yields hsite
  generalize w.buildIndex config = built at hbuilt ⊢
  obtain ⟨v, e | summary⟩ := built
  · rcases held_openIndex hsite with hopened | hopened
    · exact .inl (hbuilt.trans hopened)
    · exact .inr (.inl (hbuilt.trans hopened))
  · exact .inr (.inr (congrArg Prod.fst hbuilt).symm)

lemma held_scan {config : ScanConfig} {index : IndexConfig} (hindex : config.index = some index)
    (hsite : w.site? index.indexPath = some names) :
    (w.scan config).1.held names = w.held names ∨
      (w.scan config).1.held names = (w.held names).opened ∨
      ∃ env files, (w.scan config).1.held names =
        (scanFiles env config.hides files (w.held names).opened).1 := by
  have hopened := openIndex_yields hsite
  rw [Workspace.scan, hindex]
  dsimp only
  split
  · exact .inl rfl
  · rename_i files hfiles
    generalize w.openIndex index.indexPath = opened at hopened ⊢
    obtain ⟨u, e | o⟩ := opened
    · exact .inl hopened
    · obtain ⟨hattached, hcontents, -⟩ := hopened
      rw [andThen_ok, ← hcontents]
      have hdone := hattached.conclude (scanFiles u.env config.hides files o.contents)
      generalize u.conclude o (scanFiles u.env config.hides files o.contents) = done at hdone ⊢
      obtain ⟨v, f | x⟩ := done
      · rcases hdone with ⟨-, hv⟩ | hv
        · exact .inr (.inr ⟨u.env, files, hv⟩)
        · exact .inr (.inl hv)
      · exact .inr (.inr ⟨u.env, files, hdone.2⟩)

/-- An index is described without being changed, if the description fails, or if the index says
nothing about versions, or that this version stored it. Otherwise its rows are lost, and of what it
says about itself only the versions are changed. The first part is about databases with the tables
of this version and texts as entries: with other tables or entries, a description may fail after the
rows are gone. -/
theorem describeIndex_leaves (w : Workspace) (config : IndexConfig) (names : List String)
    (hsite : w.site? config.indexPath = some names) :
    (∀ e, (w.describeIndex config).2 = .error e →
      (w.describeIndex config).1.held names = w.held names) ∧
    ((w.held names).isVersioned = false ∨ (w.held names).isCurrent = true →
      (w.describeIndex config).1.held names = w.held names) ∧
    (∀ summary, (w.describeIndex config).2 = .ok summary → (w.held names).isVersioned = true →
      (w.held names).isCurrent = false →
      ((w.describeIndex config).1.held names).rows = [] ∧
        ((w.describeIndex config).1.held names).isCurrent = true ∧
        ∀ key, key ≠ "schema_version" → key ≠ "tool_version" →
          Index.entry? ((w.describeIndex config).1.held names) key
            = Index.entry? (w.held names) key) := by
  have hyields := describeIndex_yields hsite
  generalize w.describeIndex config = described at hyields ⊢
  obtain ⟨v, e | summary⟩ := described
  · refine ⟨fun _ _ => hyields, fun _ => hyields, fun _ h => (by cases h)⟩
  · replace hyields : v.held names = (w.held names).opened := hyields
    refine ⟨fun _ h => (by cases h), fun hversions => ?_, fun _ _ hversioned hcurrent => ?_⟩
    · have hsame : (w.held names).opened = w.held names := by
        rcases hversions with hnone | hcurrent
        · exact Index.opened_of_not_isVersioned hnone
        · simp [Index.opened, hcurrent]
      exact hyields.trans hsame
    · dsimp only
      rw [hyields]
      exact ⟨Index.rows_opened_of_not_isCurrent hversioned hcurrent,
        Index.isCurrent_opened_of_isVersioned hversioned, fun _ => Index.entry?_opened⟩

def ofEntries (entries : List (String × Entry)) : Workspace where
  tree := { mount := "/work", root := .directory entries }
  frontend := fun text => .mk { kind := "source_file", start := 0, stop := text.utf8ByteSize } []
  now := 5

def foreignIndex : Index where
  entries := [("schema_version", "1"), ("tool_version", "9.9.9"), ("root_path", "/work"),
    ("created_at", "3"), ("updated_at", "4")]
  rows := [Index.rowOf 1 "A.kt" ⟨1, 7⟩ { path := "A.kt" }]

def foreign : Workspace :=
  { ofEntries [("specs.db", .file (.database { serial := 0, index := some foreignIndex }) 4)] with
    taken := 1 }

def describeSpecs : IndexConfig := { paths := ["."], indexPath := "specs.db" }

lemma site?_foreign : foreign.site? "specs.db" = some ["specs.db"] := by decide +kernel

lemma exists_describeIndex_foreign :
    ∃ summary, (foreign.describeIndex describeSpecs).2 = .ok summary :=
  exists_ok_of_toBool (by decide +kernel)

theorem describeIndex_leaves_foreign :
    foreign.site? "specs.db" = some ["specs.db"] ∧
      ((foreign.describeIndex describeSpecs).1.held ["specs.db"]).isCurrent = true ∧
      Index.entry? ((foreign.describeIndex describeSpecs).1.held ["specs.db"]) "root_path"
        = Index.entry? (foreign.held ["specs.db"]) "root_path" := by
  obtain ⟨summary, hsummary⟩ := exists_describeIndex_foreign
  obtain ⟨-, -, hlost⟩ :=
    describeIndex_leaves foreign describeSpecs ["specs.db"] site?_foreign
  obtain ⟨-, hcurrent, hentries⟩ := hlost summary hsummary (by decide +kernel) (by decide +kernel)
  exact ⟨site?_foreign, hcurrent, hentries "root_path" (by decide) (by decide)⟩

/-- A description that succeeds can cost an index its rows. -/
theorem describeIndex_loses_rows :
    (∃ summary, (foreign.describeIndex describeSpecs).2 = .ok summary) ∧
      (foreign.held ["specs.db"]).rows = foreignIndex.rows ∧ foreignIndex.rows ≠ [] ∧
      ((foreign.describeIndex describeSpecs).1.held ["specs.db"]).rows = [] :=
  ⟨exists_describeIndex_foreign, by decide +kernel, by decide +kernel, by decide +kernel⟩

end Workspace

end SpecAtlas
