import SpecAtlas.Proofs.Files.Way

/-! What a change leaves as it was. A path leads to the same entry in every tree that has the
entries on its way, so a change at some places does not matter to the paths that do not need
them. -/

namespace SpecAtlas.Files

namespace Entry

variable {e new : Entry} {entries : List (String × Entry)} {names path : List String}

def bare : Entry → Entry
  | directory _ => directory []
  | e => e

def bare? (e : Entry) (names : List String) : Option Entry := (e.get? names).map bare

lemma eq_link_of_bare {target : String} (h : e.bare = link target) : e = link target := by
  cases e <;> cases h
  rfl

lemma bare?_cons (n : String) (path : List String) :
    (directory entries).bare? (n :: path)
      = (entries.find? (·.1 == n)).bind fun d => d.2.bare? path := by
  rw [bare?, get?_cons, Option.map_bind]
  rfl

lemma bare?_of_leaf (h : e.bare ≠ directory []) (hpath : path ≠ []) : e.bare? path = none := by
  cases path with
  | nil => exact absurd rfl hpath
  | cons n path =>
    cases e with
    | file content time => rfl
    | link target => rfl
    | directory entries => exact absurd rfl h

lemma bare?_of_bare (h : e.bare = e) (hpath : path ≠ []) : e.bare? path = none := by
  cases path with
  | nil => exact absurd rfl hpath
  | cons n path =>
    cases e with
    | file content time => rfl
    | link target => rfl
    | directory entries =>
      cases h
      rfl

lemma bare?_place_self (name : String) (path : List String) :
    (directory (place name e entries)).bare? (name :: path) = e.bare? path := by
  rw [bare?_cons, find?_place_self]
  rfl

lemma bare?_place_of_ne {name n : String} (h : name ≠ n) (path : List String) :
    (directory (place name e entries)).bare? (n :: path)
      = (directory entries).bare? (n :: path) := by
  rw [bare?_cons, bare?_cons, find?_place_of_ne h]

lemma bare?_put (hnew : new.bare = new) (hleaf : e.bare? names ≠ some (directory []))
    (hne : path ≠ names) : (e.put new names).bare? path = e.bare? path := by
  induction names generalizing e path with
  | nil =>
    rw [put, bare?_of_bare hnew hne, bare?_of_leaf (fun h => hleaf (congrArg some h)) hne]
  | cons name rest ih =>
    cases e with
    | file content time => rfl
    | link target => rfl
    | directory entries =>
      rw [put]
      cases path with
      | nil =>
        split
        · rfl
        · split_ifs <;> rfl
      | cons n path =>
        split
        · rename_i child hchild
          by_cases hn : name = n
          · subst hn
            rw [bare?_cons, hchild] at hleaf
            rw [bare?_place_self, bare?_cons, hchild]
            exact ih hleaf fun heq => hne (congrArg _ heq)
          · exact bare?_place_of_ne hn path
        · rename_i hnone
          split_ifs with hrest
          · obtain rfl := List.isEmpty_iff.mp hrest
            by_cases hn : name = n
            · subst hn
              rw [bare?_place_self, bare?_cons, hnone]
              exact bare?_of_bare hnew fun heq => hne (congrArg _ heq)
            · exact bare?_place_of_ne hn path
          · rfl

lemma bare?_put_self (e new : Entry) (names : List String) :
    (e.put new names).bare? names = some new.bare ∨
      (e.put new names).bare? names = e.bare? names := by
  induction names generalizing e with
  | nil => exact .inl rfl
  | cons name rest ih =>
    cases e with
    | file content time => exact .inr rfl
    | link target => exact .inr rfl
    | directory entries =>
      rw [put]
      split
      · rename_i child hchild
        rw [bare?_place_self, bare?_cons, hchild]
        exact ih child
      · split_ifs with hrest
        · obtain rfl := List.isEmpty_iff.mp hrest
          rw [bare?_place_self]
          exact .inl rfl
        · exact .inr rfl

lemma bare?_erase (hleaf : e.bare? names ≠ some (directory [])) (hne : path ≠ names) :
    (e.erase names).bare? path = e.bare? path := by
  induction names generalizing e path with
  | nil => rfl
  | cons name rest ih =>
    cases e with
    | file content time => rfl
    | link target => rfl
    | directory entries =>
      rw [erase]
      cases path with
      | nil =>
        split_ifs
        · rfl
        · split <;> rfl
      | cons n path =>
        by_cases hn : name = n
        · subst hn
          have hrest : path ≠ rest := fun heq => hne (congrArg _ heq)
          rw [bare?_cons] at hleaf
          rw [bare?_cons]
          split_ifs with hempty
          · obtain rfl := List.isEmpty_iff.mp hempty
            rw [bare?_cons, find?_filter_ne, if_pos rfl]
            cases hchild : entries.find? (·.1 == name) with
            | none => rfl
            | some d =>
              rw [hchild] at hleaf
              exact (bare?_of_leaf (fun h => hleaf (congrArg some h)) hrest).symm
          · split
            · rename_i child hchild
              rw [hchild] at hleaf
              rw [bare?_place_self, hchild]
              exact ih hleaf hrest
            · rw [bare?_cons]
        · split_ifs
          · rw [bare?_cons, bare?_cons, find?_filter_ne, if_neg hn]
          · split
            · exact bare?_place_of_ne hn path
            · rfl

lemma bare?_erase_self (e : Entry) (hnames : names ≠ []) : (e.erase names).bare? names = none := by
  induction names generalizing e with
  | nil => exact absurd rfl hnames
  | cons name rest ih =>
    cases e with
    | file content time => rfl
    | link target => rfl
    | directory entries =>
      rw [erase]
      split_ifs with hempty
      · rw [bare?_cons, find?_filter_ne, if_pos rfl]
        rfl
      · split
        · rename_i child hchild
          rw [bare?_place_self]
          exact ih child fun h => hempty (List.isEmpty_iff.mpr h)
        · rename_i hnone
          rw [bare?_cons, hnone]
          rfl

end Entry

namespace FileTree

variable {t u v : FileTree} {e : Entry} {here names place : List String} {path : String}
  {final : Bool} {places : List (List String)}

def bare? (t : FileTree) (names : List String) : Option Entry := t.root.bare? names

lemma isDirectory_iff : t.isDirectory names = true ↔ t.bare? names = some (.directory []) := by
  rw [isDirectory, bare?, Entry.bare?, ← get?]
  cases t.get? names with
  | none => simp
  | some e => cases e <;> simp [Entry.isDirectory, Entry.bare]

lemma isDirectory_eq_false_iff :
    t.isDirectory names = false ↔ t.bare? names ≠ some (.directory []) := by
  rw [Ne, ← isDirectory_iff, Bool.not_eq_true]

lemma isDirectory_congr (h : u.bare? names = t.bare? names) :
    u.isDirectory names = t.isDirectory names := by
  rw [Bool.eq_iff_iff, isDirectory_iff, isDirectory_iff, h]

structure Extends (t u : FileTree) : Prop where
  mount : u.mount = t.mount
  bare? : ∀ names e, t.bare? names = some e → u.bare? names = some e

namespace Extends

lemma refl (t : FileTree) : t.Extends t := ⟨rfl, fun _ _ h => h⟩

lemma trans (h : t.Extends u) (h' : u.Extends v) : t.Extends v :=
  ⟨h'.mount.trans h.mount, fun names e he => h'.bare? names e (h.bare? names e he)⟩

lemma get? (h : t.Extends u) (he : t.get? names = some e) :
    ∃ d, u.get? names = some d ∧ d.bare = e.bare := by
  have hbare : t.bare? names = some e.bare := congrArg (Option.map Entry.bare) he
  exact Option.map_eq_some_iff.mp (h.bare? names e.bare hbare)

lemma isDirectory (h : t.Extends u) (hdir : t.isDirectory names = true) :
    u.isDirectory names = true :=
  isDirectory_iff.mpr (h.bare? names _ (isDirectory_iff.mp hdir))

lemma origin (h : t.Extends u) : u.origin here path = t.origin here path := by
  rw [FileTree.origin, FileTree.origin, h.mount]

lemma enters (h : t.Extends u) {step : String} (he : t.Enters here step (some e)) :
    ∃ d, u.Enters here step (some d) ∧ d.bare = e.bare := by
  obtain ⟨d, hd, hbare⟩ := h.get? he.found
  exact ⟨d, ⟨h.isDirectory he.directory, he.notHere, he.notUp, he.short, hd⟩, hbare⟩

lemma enters_link (h : t.Extends u) {step target : String}
    (he : t.Enters here step (some (.link target))) : u.Enters here step (some (.link target)) := by
  obtain ⟨d, hd, hbare⟩ := h.enters he
  obtain rfl := Entry.eq_link_of_bare hbare
  exact hd

lemma leads (h : t.Extends u) {links : Nat} {steps : List String}
    (hr : t.Leads final links here steps (.taken names)) :
    u.Leads final links here steps (.taken names) := by
  generalize hspot : Spot.taken names = spot at hr ⊢
  induction hr with
  | arrive => exact .arrive
  | stay hdir _ ih => exact .stay (h.isDirectory hdir) (ih hspot)
  | up hdir _ ih => exact .up (h.isDirectory hdir) (ih hspot)
  | free => cases hspot
  | enter he hlink _ ih =>
    obtain ⟨d, hd, hbare⟩ := h.enters he
    refine .enter hd ?_ (ih hspot)
    rintro target rfl
    exact hlink target (Entry.eq_link_of_bare hbare.symm)
  | stop he hfinal => exact .stop (h.enters_link he) hfinal
  | jump he hlast horigin _ ih =>
    exact .jump (h.enters_link he) hlast (h.origin.trans horigin) (ih hspot)

lemma resolve (h : t.Extends u) (hr : t.resolve here path final = .ok names) :
    u.resolve here path final = .ok names := by
  obtain ⟨start, more, horigin, hleads⟩ := resolve_eq_ok_iff.mp hr
  exact resolve_eq_ok_iff.mpr ⟨start, more, h.origin.trans horigin, h.leads hleads⟩

lemma entry (h : t.Extends u) (he : t.entry here path = .ok e) :
    (u.entry here path).map Entry.bare = .ok e.bare := by
  obtain ⟨names, hnames, hget⟩ := entry_eq_ok_iff.mp he
  obtain ⟨d, hd, hbare⟩ := h.get? hget
  rw [entry_eq_ok_iff.mpr ⟨names, h.resolve hnames, hd⟩, ← hbare]
  rfl

end Extends

lemma view_congr (h : (u.entry here path).map Entry.bare = (t.entry here path).map Entry.bare) :
    u.stamp here path = t.stamp here path ∧ u.read here path = t.read here path := by
  rw [stamp, stamp, read, read, bytes, bytes]
  generalize u.entry here path = x at h ⊢
  generalize t.entry here path = y at h ⊢
  cases x with
  | error e =>
    cases y <;> cases h
    exact ⟨rfl, rfl⟩
  | ok d =>
    cases y with
    | error f => cases h
    | ok e => cases d <;> cases e <;> cases h <;> exact ⟨rfl, rfl⟩

namespace Extends

lemma put_directory (hfree : t.get? names = none) : t.Extends (t.put names (.directory [])) := by
  have hnone : t.bare? names = none := congrArg (Option.map Entry.bare) hfree
  refine ⟨rfl, fun path e he => ?_⟩
  have hne : path ≠ names := by
    rintro rfl
    rw [hnone] at he
    cases he
  have hleaf : t.bare? names ≠ some (.directory []) := by
    rw [hnone]
    exact (Option.some_ne_none _).symm
  exact (Entry.bare?_put rfl hleaf hne).trans he

lemma makeDirectory (t : FileTree) (here : List String) (path : String) :
    t.Extends (t.makeDirectory here path).1 := by
  rw [FileTree.makeDirectory]
  split
  · exact refl t
  · split
    · exact refl t
    · exact refl t
    · exact put_directory (leads_of_follow ‹_›).get?_free

lemma makeParent (t : FileTree) (here : List String) (path : String) :
    t.Extends (t.makeParent here path).1 := by
  apply makeParent_invariant
  · intro u path hu
    exact hu.trans (makeDirectory u here path)
  · exact refl t

end Extends

lemma bare?_unlink (hplace : place ≠ []) :
    (t.unlink place).bare? names = some e ↔
      t.bare? names = some e ∧ (names ≠ place ∨ e = .directory []) := by
  rw [unlink]
  cases hdir : t.isDirectory place with
  | true =>
    rw [if_pos rfl]
    have hbare := isDirectory_iff.mp hdir
    constructor
    · intro he
      refine ⟨he, ?_⟩
      by_cases hnames : names = place
      · subst hnames
        rw [hbare] at he
        exact .inr (Option.some.inj he).symm
      · exact .inl hnames
    · exact And.left
  | false =>
    rw [if_neg Bool.false_ne_true]
    have hleaf := isDirectory_eq_false_iff.mp hdir
    by_cases hnames : names = place
    · subst hnames
      rw [bare?, Entry.bare?_erase_self _ hplace]
      constructor
      · intro he
        cases he
      · rintro ⟨he, hne | rfl⟩
        · exact absurd rfl hne
        · exact absurd he hleaf
    · rw [bare?, Entry.bare?_erase hleaf hnames]
      exact ⟨fun he => ⟨he, .inl hnames⟩, And.left⟩

def without (t : FileTree) (places : List (List String)) : FileTree := places.foldl unlink t

lemma unlink_mount (t : FileTree) (place : List String) : (t.unlink place).mount = t.mount := by
  rw [unlink]
  split_ifs <;> rfl

lemma without_mount (t : FileTree) (places : List (List String)) :
    (t.without places).mount = t.mount := by
  induction places generalizing t with
  | nil => rfl
  | cons place rest ih => exact (ih (t.unlink place)).trans (t.unlink_mount place)

lemma bare?_without (hplaces : [] ∉ places) :
    (t.without places).bare? names = some e ↔
      t.bare? names = some e ∧ (names ∉ places ∨ e = .directory []) := by
  induction places generalizing t with
  | nil => simp [without]
  | cons place rest ih =>
    rw [List.mem_cons, not_or] at hplaces
    rw [without, List.foldl_cons, ← without, ih hplaces.2, bare?_unlink (Ne.symm hplaces.1)]
    rw [List.mem_cons]
    tauto

lemma without_extends (t : FileTree) (hplaces : [] ∉ places) : (t.without places).Extends t :=
  ⟨(t.without_mount places).symm, fun _ _ he => ((bare?_without hplaces).mp he).1⟩

lemma Extends.without (h : t.Extends u) (hplaces : [] ∉ places) :
    (t.without places).Extends (u.without places) := by
  refine ⟨?_, fun names e he => ?_⟩
  · rw [without_mount, without_mount, h.mount]
  · obtain ⟨he, hcase⟩ := (bare?_without hplaces).mp he
    exact (bare?_without hplaces).mpr ⟨h.bare? names e he, hcase⟩

structure Differ (places : List (List String)) (t u : FileTree) : Prop where
  mount : u.mount = t.mount
  isDirectory : ∀ names, u.isDirectory names = t.isDirectory names
  bare? : ∀ names, names ∉ places → u.bare? names = t.bare? names

namespace Differ

lemma refl (t : FileTree) : t.Differ places t := ⟨rfl, fun _ => rfl, fun _ _ => rfl⟩

lemma symm (h : t.Differ places u) : u.Differ places t :=
  ⟨h.mount.symm, fun names => (h.isDirectory names).symm,
    fun names hnames => (h.bare? names hnames).symm⟩

lemma trans (h : t.Differ places u) (h' : u.Differ places v) : t.Differ places v :=
  ⟨h'.mount.trans h.mount, fun names => (h'.isDirectory names).trans (h.isDirectory names),
    fun names hnames => (h'.bare? names hnames).trans (h.bare? names hnames)⟩

lemma without_extends (h : t.Differ places u) (hplaces : [] ∉ places) :
    (t.without places).Extends u := by
  refine ⟨h.mount.trans (t.without_mount places).symm, fun names e he => ?_⟩
  obtain ⟨he, hnames | rfl⟩ := (bare?_without hplaces).mp he
  · exact (h.bare? names hnames).trans he
  · rw [← isDirectory_iff, h.isDirectory, isDirectory_iff]
    exact he

lemma of_leaf (hplace : place ∈ places) (hmount : u.mount = t.mount)
    (ht : t.isDirectory place = false) (hu : u.isDirectory place = false)
    (h : ∀ names, names ≠ place → u.bare? names = t.bare? names) : t.Differ places u := by
  refine ⟨hmount, fun names => ?_, fun names hnames => h names ?_⟩
  · by_cases hnames : names = place
    · rw [hnames, ht, hu]
    · exact isDirectory_congr (h names hnames)
  · rintro rfl
    exact hnames hplace

lemma put_file (hplace : place ∈ places) (hleaf : t.isDirectory place = false) {content : Content}
    {time : Int} : t.Differ places (t.put place (.file content time)) := by
  refine of_leaf hplace rfl hleaf ?_ ?_
  · rcases t.root.bare?_put_self (.file content time) place with hself | hself
    · rw [isDirectory_eq_false_iff, FileTree.bare?, FileTree.put, hself]
      rintro ⟨⟩
    · rw [isDirectory_eq_false_iff, FileTree.bare?, FileTree.put, hself]
      exact isDirectory_eq_false_iff.mp hleaf
  · intro names hnames
    exact Entry.bare?_put rfl (isDirectory_eq_false_iff.mp hleaf) hnames

lemma unlink (hplace : place ∈ places) : t.Differ places (t.unlink place) := by
  rw [FileTree.unlink]
  cases hleaf : t.isDirectory place with
  | true => exact refl t
  | false =>
    rw [if_neg Bool.false_ne_true]
    refine of_leaf hplace rfl hleaf ?_ ?_
    · by_cases hroot : place = []
      · subst hroot
        exact hleaf
      · rw [isDirectory_eq_false_iff, FileTree.bare?, Entry.bare?_erase_self _ hroot]
        exact (Option.some_ne_none _).symm
    · intro names hnames
      exact Entry.bare?_erase (isDirectory_eq_false_iff.mp hleaf) hnames

end Differ

/-- The path leads to an entry without the files and links at some places, if it is one that can be
followed at all. -/
def Bypasses (t : FileTree) (here : List String) (path : String) (places : List (List String)) :
    Prop :=
  (t.origin here path).toBool = true → ((t.without places).entry here path).toBool = true

instance (t : FileTree) (here : List String) (path : String) (places : List (List String)) :
    Decidable (t.Bypasses here path places) :=
  inferInstanceAs (Decidable (_ → _))

lemma Bypasses.same (h : t.Bypasses here path places) (hplaces : [] ∉ places)
    (hu : (t.without places).Extends u) :
    u.stamp here path = t.stamp here path ∧ u.read here path = t.read here path := by
  apply view_congr
  have horigin : u.origin here path = t.origin here path := by
    rw [hu.origin, (t.without_extends hplaces).origin]
  cases ho : t.origin here path with
  | error e =>
    rw [ho] at horigin
    rw [entry, entry, resolve, resolve, spot, spot, horigin, ho]
    rfl
  | ok start =>
    have hreached := h (by rw [ho]; rfl)
    cases he : (t.without places).entry here path with
    | error e =>
      rw [he] at hreached
      cases hreached
    | ok e => rw [hu.entry he, (t.without_extends hplaces).entry he]

end FileTree

end SpecAtlas.Files
