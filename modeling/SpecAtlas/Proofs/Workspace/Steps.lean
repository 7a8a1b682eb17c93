import Mathlib.Data.Option.Basic
import SpecAtlas.Proofs.Files.Tree
import SpecAtlas.Workspace

/-! What happens to a workspace while an index of it is opened, changed and closed. All of it is
made of a few changes in the places of the index, so what these preserve is preserved
throughout. -/

namespace SpecAtlas

open Files

variable {P : IndexRow → Prop} {R : Workspace → Prop} {α β : Type} {w : Workspace}
  {c : Connection} {names : List String} {site : Option (List String)}

def Database.contents (d : Database) : Index := d.index.getD {}

def Workspace.siteOf (w : Workspace) (location : Location) : Option (List String) :=
  location.file.bind w.indexSpot?

def Workspace.site? (w : Workspace) (path : String) : Option (List String) :=
  match w.tree.makeParent w.here path with
  | (_, .error _) => none
  | (tree, .ok _) => (Location.ofPath? path).bind { w with tree }.siteOf

def OpenIndex.LiesAt (site : Option (List String)) (o : OpenIndex) : Prop :=
  ∀ serial c, o.holder = .file serial c → site = some c.names

def Attempt.Keeps (R : Workspace → Prop) (post : α → Prop) (a : Attempt α) : Prop :=
  R a.1 ∧ ∀ x, a.2 = .ok x → post x

namespace Attempt.Keeps

variable {post : α → Prop} {next : β → Prop}

lemma ok (h : R w) {x : α} (hx : post x) : Keeps R post (w, .ok x) := by
  refine ⟨h, fun y hy => ?_⟩
  cases hy
  exact hx

lemma error (h : R w) (e : Failure) : Keeps R post (w, .error e) := by
  refine ⟨h, fun y hy => ?_⟩
  cases hy

lemma andThen {a : Attempt α} {g : Workspace → α → Attempt β} (h : Keeps R post a)
    (hg : ∀ w x, R w → post x → Keeps R next (g w x)) : Keeps R next (a.andThen g) := by
  obtain ⟨w, e | x⟩ := a
  · exact error h.1 e
  · exact hg w x h.1 (h.2 x rfl)

lemma map {a : Attempt α} {g : α → β} (h : Keeps R post a) (hg : ∀ x, post x → next (g x)) :
    Keeps R next (a.map g) := by
  rw [map_eq_andThen]
  exact h.andThen fun w x hw hx => ok hw (hg x hx)

end Attempt.Keeps

namespace Workspace

structure Tended (site : Option (List String)) (R : Workspace → Prop) : Prop where
  createBeside {w : Workspace} {names : List String} (k : Companion) : R w → site = some names →
    w.tree.get? (k.beside names) = none → R (w.put (k.beside names) (.bytes .empty none))
  dropBeside {w : Workspace} {names : List String} (k : Companion) : R w → site = some names →
    R (w.dropBeside k names)

/-- Such workspaces stay such whatever the users of an index do, whose file is at the site, as long
as every row that they write has the property. The rows that they read have it then. -/
structure Stable (P : IndexRow → Prop) (site : Option (List String)) (R : Workspace → Prop) : Prop
    extends Tended site R where
  create {w : Workspace} {names : List String} : R w → site = some names →
    w.tree.get? names = none → R (w.put names (.bytes .empty none))
  write {w : Workspace} {names : List String} {d : Database} : R w → site = some names →
    d.contents.AllRows P → R (w.put names (.database d))
  count {w : Workspace} (users : List Nat) (taken : Nat) : R w → R { w with users, taken }
  share {w : Workspace} {shared : List SharedIndex} : R w →
    (∀ s ∈ shared, s.contents.AllRows P) → R { w with shared }
  database {w : Workspace} {names : List String} {d : Database} : R w → site = some names →
    w.database? names = some d → d.contents.AllRows P
  shared {w : Workspace} : R w → ∀ s ∈ w.shared, s.contents.AllRows P

open Attempt

namespace Tended

lemma openBeside (s : Tended site R) (hc : site = some names) (h : R w) {k : Companion} :
    Keeps R (fun _ => True) (w.openBeside k names) := by
  rw [Workspace.openBeside]
  split
  · exact .ok h trivial
  · exact .error h _
  · rename_i hnone
    split_ifs
    · exact .error h _
    · exact .ok (s.createBeside k h hc hnone) trivial

lemma openDigest (s : Tended site R) (hc : site = some c.names) (h : R w) :
    Keeps R (fun _ => True) (w.openDigest c) := by
  rw [Workspace.openDigest]
  split
  · exact .ok h trivial
  split
  · exact .ok h trivial
  split
  · exact .ok h trivial
  · exact .ok h trivial
  · exact .error h _
  · split
    · exact .error h _
    · exact (s.openBeside hc h).map fun _ _ => trivial

lemma openLog (s : Tended site R) (hc : site = some c.names) (h : R w) :
    Keeps R (fun d => site = some d.names) (w.openLog c) := by
  rw [Workspace.openLog]
  split_ifs
  · exact .ok h hc
  · exact .error h _
  · refine (s.openBeside hc h).andThen fun w _ hw _ => ?_
    exact (s.openDigest hc hw).andThen fun w writes hw _ => .ok hw hc

lemma foldLog (s : Tended site R) (hc : site = some c.names) (h : R w) : R (w.foldLog c) := by
  rw [Workspace.foldLog]
  split_ifs
  · exact s.dropBeside .log h hc
  · exact s.dropBeside .digest (s.dropBeside .log h hc) hc
  · exact h

lemma recoverJournal (s : Tended site R) (hc : site = some c.names) (h : R w) :
    Keeps R (fun _ => True) (w.recoverJournal c) := by
  rw [Workspace.recoverJournal]
  split
  · exact .ok h trivial
  split
  · split_ifs
    · exact .ok h trivial
    · exact .ok (s.dropBeside .journal h hc) trivial
  split
  · exact .error h _
  · split_ifs
    · exact .ok h trivial
    · exact .error h _
    · exact .ok (s.dropBeside .journal h hc) trivial
  · exact .error h _

lemma recoverLog (s : Tended site R) (hc : site = some c.names) (h : R w) :
    Keeps R (fun d => site = some d.names) (w.recoverLog c) := by
  rw [Workspace.recoverLog]
  split_ifs
  · exact .ok h hc
  · exact s.openLog hc h
  · exact .error h _
  · exact .ok (s.dropBeside .log h hc) hc

lemma recover (s : Tended site R) (hc : site = some c.names) (h : R w) :
    Keeps R (fun d => site = some d.names) (w.recover c) := by
  rw [Workspace.recover]
  split_ifs
  · exact .ok h hc
  · exact (s.recoverJournal hc h).andThen fun w _ hw _ => s.recoverLog hc hw

end Tended

namespace Stable

def Connected (P : IndexRow → Prop) (site : Option (List String)) (r : Connection × Database) :
    Prop :=
  site = some r.1.names ∧ r.2.contents.AllRows P

lemma readDatabase (s : Stable P site R) (hc : site = some c.names) (h : R w) :
    Keeps R (Connected P site) (w.readDatabase c) := by
  rw [Workspace.readDatabase]
  refine (s.recover hc h).andThen fun w c hw hc => ?_
  split
  · rename_i d hd
    have hrows := s.database hw hc hd
    split_ifs
    · exact (s.openLog hc hw).map fun _ hc => ⟨hc, hrows⟩
    · exact .ok hw ⟨hc, hrows⟩
  · split_ifs
    · exact .ok (s.count w.users (w.taken + 1) hw) ⟨hc, Index.AllRows.empty⟩
    · exact .error (s.foldLog hc hw) _

lemma writeDatabase (s : Stable P site R) (hc : site = some c.names) (h : R w) {d : Database}
    (hd : d.contents.AllRows P) : Keeps R (fun _ => True) (w.writeDatabase c d) := by
  rw [Workspace.writeDatabase]
  split_ifs
  · exact .error h _
  · exact .ok (s.write h hc hd) trivial
  · refine (s.openBeside hc h).andThen fun w _ hw _ => .ok ?_ trivial
    exact s.write (s.dropBeside .journal hw hc) hc hd

lemma startLog (s : Stable P site R) (h : R w) {d : Database} (hd : Connected P site (c, d)) :
    Keeps R (Connected P site) (w.startLog c d) := by
  rw [Workspace.startLog]
  dsimp only
  split_ifs
  · exact .ok h hd
  · have hlogged : { d with logged := true : Database }.contents.AllRows P := hd.2
    refine (s.writeDatabase hd.1 h hlogged).andThen fun w _ hw _ => ?_
    exact (s.openLog hd.1 hw).map fun _ hc => ⟨hc, hlogged⟩

lemma prepare (s : Stable P site R) (h : R w) {d : Database} (hd : Connected P site (c, d)) :
    Keeps R (Connected P site) (w.prepare c d) := by
  rw [Workspace.prepare]
  have hready : { d with index := some (d.index.getD {}).opened : Database }.contents.AllRows P :=
    hd.2.opened
  split_ifs
  · exact .ok h hd
  · exact (s.writeDatabase hd.1 h hready).map fun _ _ => ⟨hd.1, hready⟩

lemma connect (s : Stable P site R) (hc : site = some c.names) (h : R w) :
    Keeps R (Connected P site) (w.connect c) := by
  rw [Workspace.connect]
  refine (s.readDatabase hc h).andThen fun w (c, d) hw hd => ?_
  exact (s.startLog hw hd).andThen fun w (c, d) hw hd => s.prepare hw hd

def Opened (P : IndexRow → Prop) (site : Option (List String)) (o : OpenIndex) : Prop :=
  o.LiesAt site ∧ o.contents.AllRows P

lemma openFile? (s : Stable P site R) (h : R w) {location : Location} {file : String}
    {v : Workspace} (hsite : site = w.indexSpot? file)
    (hv : w.openFile? location file = some (v, names)) : R v ∧ site = some names := by
  rw [Workspace.openFile?] at hv
  simp only [Option.bind_eq_bind, Option.bind_eq_some_iff] at hv
  obtain ⟨_, -, spot, hspot, hv⟩ := hv
  rw [hspot] at hsite
  split_ifs at hv with hthere
  · cases hv
    exact ⟨h, hsite⟩
  · simp only [Option.bind_eq_some_iff] at hv
    obtain ⟨_, -, hv⟩ := hv
    cases hv
    exact ⟨s.create h hsite (by simpa using hthere), hsite⟩

lemma openMemory (s : Stable P site R) (h : R w) {path : String} {location : Location} :
    Keeps R (Opened P site) (w.openMemory path location) := by
  rw [Workspace.openMemory]
  split
  · exact .error h _
  split
  · exact .ok h ⟨fun _ _ ho => (by cases ho), Index.AllRows.empty⟩
  split
  · rename_i i hi
    refine .ok (s.count (i.serial :: w.users) w.taken h) ⟨fun _ _ ho => (by cases ho), ?_⟩
    exact s.shared h i (List.mem_of_find?_eq_some hi)
  · rename_i name _ _ _
    refine .ok ?_ ⟨fun _ _ ho => (by cases ho), Index.AllRows.empty⟩
    have hshared : R { w with
        shared := { name, serial := w.taken, contents := {} } :: w.shared } := by
      refine s.share h fun i hi => ?_
      rcases List.mem_cons.mp hi with rfl | hold
      · exact Index.AllRows.empty
      · exact s.shared h i hold
    exact s.count (w.taken :: w.users) (w.taken + 1) hshared

lemma openAt {location : Location} (s : Stable P (w.siteOf location) R) (h : R w)
    {path : String} : Keeps R (Opened P (w.siteOf location)) (w.openAt path location) := by
  rw [Workspace.openAt]
  split
  · exact s.openMemory h
  · rename_i file hfile
    split
    · exact .error h _
    · rename_i v names hopen
      have hsite : w.siteOf location = w.indexSpot? file := by
        rw [siteOf, hfile]
        rfl
      obtain ⟨hv, hnames⟩ := s.openFile? h hsite hopen
      have hc : w.siteOf location = some { names, location : Connection }.names := hnames
      refine (s.connect hc hv).andThen fun u (c, d) hu hd => ?_
      refine .ok (s.count _ u.taken hu) ⟨fun serial c ho => ?_, hd.2⟩
      cases ho
      exact hd.1

lemma openIndex {path : String} (s : Stable P (w.site? path) R)
    (h : R { w with tree := (w.tree.makeParent w.here path).1 }) :
    Keeps R (Opened P (w.site? path)) (w.openIndex path) := by
  rw [site?] at s ⊢
  rw [Workspace.openIndex]
  generalize w.tree.makeParent w.here path = made at s h ⊢
  obtain ⟨tree, e | _⟩ := made
  · exact .error h _
  · dsimp only at s h ⊢
    cases hlocation : Location.ofPath? path with
    | none => exact .error h _
    | some location =>
      rw [hlocation] at s
      exact s.openAt h

lemma replace (s : Stable P site R) (h : R w) {o : OpenIndex} (ho : o.LiesAt site) {i : Index}
    (hi : i.AllRows P) : Keeps R (Opened P site) (w.replace o i) := by
  rw [Workspace.replace]
  split
  · exact .ok h ⟨ho, hi⟩
  · rename_i serial _
    refine .ok (s.share h fun j hj => ?_) ⟨ho, hi⟩
    obtain ⟨old, hold, rfl⟩ := List.mem_map.mp hj
    split_ifs
    · exact hi
    · exact s.shared h old hold
  · rename_i serial c hholder
    split
    · rename_i d _
      have hd : { d with index := some i : Database }.contents.AllRows P := hi
      exact (s.writeDatabase (ho serial c hholder) h hd).map fun _ _ => ⟨ho, hi⟩
    · split_ifs
      · exact .ok h ⟨ho, hi⟩
      · exact .error h _

lemma keep (s : Stable P site R) (h : R w) {o : OpenIndex} (ho : Opened P site o)
    {r : Index × Except Failure α} (hr : r.1.AllRows P) :
    R (w.keep o r).1 ∧ Opened P site (w.keep o r).2.1 := by
  have hreplaced := s.replace h ho.1 hr
  rw [Workspace.keep]
  split
  · rename_i heq
    rw [heq] at hreplaced
    exact ⟨hreplaced.1, hreplaced.2 _ rfl⟩
  · rename_i heq _
    rw [heq] at hreplaced
    exact ⟨hreplaced.1, ho⟩
  · rename_i heq _
    rw [heq] at hreplaced
    exact ⟨hreplaced.1, ho⟩

lemma settle (s : Stable P site R) (hc : site = some c.names) (h : R w) {o : OpenIndex}
    (ho : o.contents.AllRows P) {serial : Nat} : R (w.settle o serial c) := by
  rw [Workspace.settle]
  split
  · exact h
  · exact s.foldLog hc h
  · dsimp only
    split_ifs
    · exact s.write (s.foldLog hc h) hc ho
    · exact s.foldLog hc h

lemma close (s : Stable P site R) (h : R w) {o : OpenIndex} (ho : Opened P site o) :
    R (w.close o) := by
  rw [Workspace.close]
  split
  · exact h
  · rename_i serial _
    have hshared (all : Bool) : R { w with
        shared := if all then w.shared else w.shared.filter (·.serial != serial) } := by
      refine s.share h fun i hi => ?_
      split_ifs at hi
      · exact s.shared h i hi
      · exact s.shared h i (List.mem_of_mem_filter hi)
    exact s.count (w.users.erase serial) w.taken (hshared _)
  · rename_i serial c hholder
    split
    · exact h
    · have hleft : R { w with users := w.users.erase serial } :=
        s.count (w.users.erase serial) w.taken h
      dsimp only
      split_ifs
      · exact hleft
      · exact s.settle (ho.1 serial c hholder) hleft ho.2

lemma conclude (s : Stable P site R) (h : R w) {o : OpenIndex} (ho : Opened P site o)
    {r : Index × Except Failure α} (hr : r.1.AllRows P) : R (w.conclude o r).1 :=
  have hkept := s.keep h ho hr
  s.close hkept.1 hkept.2

end Stable

end Workspace

end SpecAtlas
