import Mathlib.Data.List.Nodup
import SpecAtlas.Proofs.Files.Spelling

/-! The files that a walk meets. Each is shown under the root of the walk and the names that lead to
it from there, and since a walk follows no links, it lies where these names lead. So the files of
one walk lie in different places. -/

namespace SpecAtlas

namespace Path

def spell (root : String) (names : List String) : String := names.foldl join root

def isName (name : String) : Bool :=
  name != "" && name != "." && name != ".." && !name.toList.contains '/'
    && name.utf8ByteSize ≤ Files.FileTree.maxName

variable {root name : String} {names others : List String}

lemma isName_iff : isName name = true ↔ name ≠ "" ∧ name ≠ "." ∧ name ≠ ".." ∧
    '/' ∉ name.toList ∧ name.utf8ByteSize ≤ Files.FileTree.maxName := by
  simp [isName, and_assoc]

lemma pieces_of_notMem {s : List Char} (h : '/' ∉ s) : pieces s = [s] := by
  induction s with
  | nil => rfl
  | cons c s ih =>
    rw [List.mem_cons, not_or] at h
    rw [pieces, if_neg (by simpa using Ne.symm h.1), ih h.2]

lemma parts_of_isName (h : isName name = true) : parts name.toList = [.name name] := by
  obtain ⟨hempty, hdot, hup, hslash, -⟩ := isName_iff.mp h
  have hne {s : String} (hs : name ≠ s) : name.toList ≠ s.toList :=
    fun he => hs (String.toList_inj.mp he)
  have hcomponent : component? name.toList = some (.name name) := by
    rw [component?, if_neg (by simpa using ⟨hempty, hne hdot⟩), if_neg (by simpa using hne hup),
      String.ofList_toList]
  rw [parts, pieces_of_notMem hslash, List.filterMap_cons_some hcomponent, List.filterMap_nil]

lemma components_spell (hroot : root ≠ "") (h : ∀ name ∈ names, isName name = true) :
    components (spell root names) = components root ++ names.map .name := by
  induction names generalizing root with
  | nil => simp [spell]
  | cons name names ih =>
    obtain ⟨hname, hnames⟩ := List.forall_mem_cons.mp h
    have hhead : name.toList.head? ≠ some '/' :=
      fun hs => (isName_iff.mp hname).2.2.2.1 (List.mem_of_head? hs)
    have hjoined : join root name ≠ "" := join_ne_empty hroot
    have hrest := ih hjoined hnames
    rw [components_join hroot hhead, parts_of_isName hname, List.append_assoc] at hrest
    exact hrest

lemma spell_of_same (hroot : root ≠ "") (h : ∀ name ∈ names, isName name = true)
    (h' : ∀ name ∈ others, isName name = true)
    (hsame : same (spell root names) (spell root others) = true) : names = others := by
  have hcomponents := beq_iff_eq.mp hsame
  rw [components_spell hroot h, components_spell hroot h'] at hcomponents
  have hinj : Function.Injective Component.name := fun a b he => Component.name.inj he
  exact hinj.list_map (List.append_cancel_left hcomponents)

lemma within_spell (hroot : root ≠ "") (h : ∀ name ∈ names, isName name = true) :
    within root (spell root names) = true := by
  rw [within, components_spell hroot h, List.isPrefixOf_iff_prefix]
  exact List.prefix_append ..

lemma parts_spell (hroot : root ≠ "") (h : ∀ name ∈ names, isName name = true) :
    parts (spell root names).toList = parts root.toList ++ names.map .name := by
  have hnames : (names.map Component.name).filter (fun c => c ≠ .root ∧ c ≠ .here) =
      names.map .name := List.filter_eq_self.mpr (by simp)
  rw [← filter_components, components_spell hroot h, List.filter_append, filter_components, hnames]

lemma absolute_spell (hroot : root ≠ "") (h : ∀ name ∈ names, isName name = true) :
    (spell root names).toList.head? = some '/' ↔ root.toList.head? = some '/' := by
  rw [← root_mem_components, ← root_mem_components, components_spell hroot h]
  simp

end Path

namespace Files

mutual

def Entry.isTidy : Entry → Bool
  | .file _ _ => true
  | .link _ => true
  | .directory entries => decide (entries.map Prod.fst).Nodup && Entry.areTidy entries

def Entry.areTidy : List (String × Entry) → Bool
  | [] => true
  | (name, e) :: rest => Path.isName name && e.isTidy && Entry.areTidy rest

end

namespace Entry

variable {e : Entry} {entries : List (String × Entry)} {name : String}

lemma areTidy_iff :
    areTidy entries = true ↔ ∀ d ∈ entries, Path.isName d.1 = true ∧ d.2.isTidy = true := by
  induction entries with
  | nil => simp [areTidy]
  | cons d rest ih =>
    obtain ⟨name, e⟩ := d
    rw [areTidy, Bool.and_eq_true, Bool.and_eq_true, ih, List.forall_mem_cons]

lemma isTidy_directory : (directory entries).isTidy = true ↔
    (entries.map Prod.fst).Nodup ∧ ∀ d ∈ entries, Path.isName d.1 = true ∧ d.2.isTidy = true := by
  rw [isTidy, Bool.and_eq_true, decide_eq_true_iff, areTidy_iff]

lemma find?_of_nodup (h : (entries.map Prod.fst).Nodup) (hmem : (name, e) ∈ entries) :
    entries.find? (·.1 == name) = some (name, e) := by
  cases hfind : entries.find? (·.1 == name) with
  | none => simpa using List.find?_eq_none.mp hfind _ hmem
  | some d =>
    have hname : d.1 = name := by simpa using List.find?_some hfind
    rw [List.inj_on_of_nodup_map h (List.mem_of_find?_eq_some hfind) hmem hname]

lemma get?_append (e : Entry) (front back : List String) :
    e.get? (front ++ back) = (e.get? front).bind fun d => d.get? back := by
  induction front generalizing e with
  | nil => rfl
  | cons name front ih =>
    cases e with
    | file content time => rfl
    | link target => rfl
    | directory entries =>
      rw [List.cons_append, get?_cons, get?_cons, Option.bind_assoc]
      exact Option.bind_congr fun d _ => ih d.2

lemma isTidy_get? {x : Entry} {names : List String} (h : e.isTidy = true)
    (hget : e.get? names = some x) : x.isTidy = true := by
  induction names generalizing e with
  | nil =>
    cases hget
    exact h
  | cons name rest ih =>
    cases e with
    | file content time => cases hget
    | link target => cases hget
    | directory entries =>
      rw [get?_cons] at hget
      obtain ⟨d, hfind, hchild⟩ := Option.bind_eq_some_iff.mp hget
      exact ih ((isTidy_directory.mp h).2 d (List.mem_of_find?_eq_some hfind)).2 hchild

mutual

theorem named_of_isTidy : (e : Entry) → e.isTidy = true → e.Named
  | .file _ _, _ => trivial
  | .link _, _ => trivial
  | .directory entries, h => namedAll_of_areTidy entries (by
    rw [isTidy, Bool.and_eq_true] at h
    exact h.2)

theorem namedAll_of_areTidy : (entries : List (String × Entry)) → areTidy entries = true →
    NamedAll entries
  | [], _ => trivial
  | (name, e) :: rest, h => by
    rw [areTidy, Bool.and_eq_true, Bool.and_eq_true] at h
    exact ⟨(Path.isName_iff.mp h.1.1).2.2.2.1, named_of_isTidy e h.1.2,
      namedAll_of_areTidy rest h.2⟩

end

end Entry

namespace FileTree

structure Tidy (t : FileTree) : Prop where
  mount : t.mount.toList.head? = some '/'
  root : t.root.isTidy = true

instance (t : FileTree) : Decidable t.Tidy :=
  decidable_of_iff (t.mount.toList.head? = some '/' ∧ t.root.isTidy = true)
    ⟨fun h => ⟨h.1, h.2⟩, fun h => ⟨h.mount, h.root⟩⟩

variable {t : FileTree} {here base names : List String} {root path : String}

lemma Tidy.sound (h : t.Tidy) : t.Sound := ⟨h.mount, Entry.named_of_isTidy t.root h.root⟩

lemma get?_append (t : FileTree) (front back : List String) :
    t.get? (front ++ back) = (t.get? front).bind fun e => e.get? back :=
  t.root.get?_append front back

def Shows (t : FileTree) (base : List String) (root path : String) : Prop :=
  ∃ names, (∀ name ∈ names, Path.isName name = true) ∧ path = Path.spell root names ∧
    ∃ content time, t.get? (base ++ names) = some (.file content time)

lemma Shows.join {name : String} (h : t.Shows (base ++ [name]) (Path.join root name) path)
    (hname : Path.isName name = true) : t.Shows base root path := by
  obtain ⟨names, hnames, rfl, hfile⟩ := h
  rw [List.append_assoc] at hfile
  exact ⟨name :: names, List.forall_mem_cons.mpr ⟨hname, hnames⟩, rfl, hfile⟩

mutual

theorem shows_of_mem_walkEntry (scope : IgnoreScope) (shown : String) (names : List String) :
    (e : Entry) → e.isTidy = true → t.get? names = some e →
      ∀ path ∈ t.walkEntry here scope shown names e, t.Shows names shown path
  | .file content time, _, hget, path, hpath => by
    rw [walkEntry] at hpath
    refine ⟨[], by simp, List.mem_singleton.mp hpath, content, time, ?_⟩
    rw [List.append_nil, hget]
  | .link _, _, _, path, hpath => by
    rw [walkEntry] at hpath
    cases hpath
  | .directory entries, htidy, hget, path, hpath => by
    obtain ⟨hnodup, hentries⟩ := Entry.isTidy_directory.mp htidy
    rw [walkEntry] at hpath
    refine shows_of_mem_walkAll _ shown names entries hentries (fun d hd => ?_) path hpath
    rw [get?_append, hget, Option.bind_some, Entry.get?_cons, Entry.find?_of_nodup hnodup hd]
    rfl

theorem shows_of_mem_walkAll (scope : IgnoreScope) (shown : String) (names : List String) :
    (entries : List (String × Entry)) →
      (∀ d ∈ entries, Path.isName d.1 = true ∧ d.2.isTidy = true) →
      (∀ d ∈ entries, t.get? (names ++ [d.1]) = some d.2) →
      ∀ path ∈ t.walkAll here scope shown names entries, t.Shows names shown path
  | [], _, _, path, hpath => by
    rw [walkAll] at hpath
    cases hpath
  | (name, e) :: rest, htidy, hget, path, hpath => by
    obtain ⟨⟨hname, he⟩, htidy⟩ := List.forall_mem_cons.mp htidy
    obtain ⟨hself, hget⟩ := List.forall_mem_cons.mp hget
    rw [walkAll, List.mem_append] at hpath
    rcases hpath with hpath | hpath
    · split_ifs at hpath
      · cases hpath
      · exact (shows_of_mem_walkEntry scope _ (names ++ [name]) e he hself path hpath).join hname
    · exact shows_of_mem_walkAll scope shown names rest htidy hget path hpath

end

lemma resolve_of_locate? (h : t.locate? here path = some names) :
    t.resolve here path true = .ok names := by
  rw [locate?] at h
  cases hr : t.resolve here path true with
  | error e =>
    rw [hr] at h
    cases h
  | ok found =>
    rw [hr] at h
    exact congrArg _ (Option.some.inj h)

lemma shows_of_mem_walkRoot (htidy : t.Tidy) (h : path ∈ t.walkRoot here root) :
    root ≠ "" ∧ ∃ base, t.resolve here root true = .ok base ∧ t.Shows base root path := by
  rw [walkRoot] at h
  split_ifs at h
  · cases h
  split at h
  · cases h
  · rename_i base hbase
    have hroot : root ≠ "" := by
      rintro rfl
      cases locate?_empty.symm.trans hbase
    refine ⟨hroot, base, resolve_of_locate? hbase, ?_⟩
    split at h
    · rename_i entries hget
      exact shows_of_mem_walkEntry _ root base _ (Entry.isTidy_get? htidy.root hget) hget path h
    · rename_i content time hget
      refine ⟨[], by simp, List.mem_singleton.mp h, content, time, ?_⟩
      rw [List.append_nil, hget]
    · cases h

lemma Leads.append {links : Nat} {middle xs ys : List String} {spot : Spot}
    (h : t.Leads true links here xs (.taken middle))
    (hys : ∀ links, t.Leads true links middle ys spot) :
    t.Leads true links here (xs ++ ys) spot := by
  generalize hmiddle : Spot.taken middle = reached at h
  induction h with
  | arrive =>
    cases hmiddle
    exact hys _
  | stay hdir _ ih => exact .stay hdir (ih hmiddle)
  | up hdir _ ih => exact .up hdir (ih hmiddle)
  | free => cases hmiddle
  | enter henters hlink _ ih => exact .enter henters hlink (ih hmiddle)
  | stop _ hfinal => cases hfinal
  | jump henters _ horigin _ ih =>
    have hstart := ih hmiddle
    rw [List.append_assoc] at hstart
    exact .jump henters (Bool.and_false _) horigin hstart

lemma leads_of_get? {links : Nat} {e : Entry} (hnames : ∀ name ∈ names, Path.isName name = true)
    (hget : t.get? (base ++ names) = some e) (hlink : ∀ target, e ≠ .link target) :
    t.Leads true links base names (.taken (base ++ names)) := by
  induction names generalizing base with
  | nil =>
    rw [List.append_nil]
    exact .arrive
  | cons name rest ih =>
    obtain ⟨hname, hrest⟩ := List.forall_mem_cons.mp hnames
    obtain ⟨-, hdot, hup, -, hlong⟩ := Path.isName_iff.mp hname
    have hdir : t.isDirectory base = true := by
      rw [get?_append] at hget
      obtain ⟨d, hd, hbelow⟩ := Option.bind_eq_some_iff.mp hget
      rw [isDirectory, hd]
      cases d with
      | file content time => cases hbelow
      | link target => cases hbelow
      | directory entries => rfl
    rw [List.append_cons] at hget ⊢
    have hthere := ih hrest hget
    rw [get?_append] at hget
    obtain ⟨d, hd, hbelow⟩ := Option.bind_eq_some_iff.mp hget
    refine .enter ⟨hdir, hdot, hup, hlong, hd⟩ ?_ hthere
    rintro target rfl
    cases rest with
    | nil => exact hlink target (Option.some.inj hbelow).symm
    | cons next rest => cases hbelow

lemma resolve_spell (htidy : t.Tidy) (hroot : root ≠ "") {place : List String}
    (hbase : t.resolve here root true = .ok base)
    (hnames : ∀ name ∈ names, Path.isName name = true) {content : Content} {time : Int}
    (hget : t.get? (base ++ names) = some (.file content time))
    (h : t.resolve here (Path.spell root names) true = .ok place) : place = base ++ names := by
  obtain ⟨start, rest, horigin, hleads⟩ := resolve_eq_ok_iff.mp hbase
  obtain ⟨start', rest', horigin', hleads'⟩ := resolve_eq_ok_iff.mp h
  have hparts := Path.parts_spell hroot hnames
  have habsolute := Path.absolute_spell hroot hnames
  have hway : start' = start ∧
      Path.parts rest'.toList = Path.parts rest.toList ++ names.map .name := by
    rcases origin_eq_ok htidy.sound horigin with ⟨ha, rfl, hp⟩ | ⟨ha, rfl, rfl⟩
    · rcases origin_eq_ok htidy.sound horigin' with ⟨_, rfl, hp'⟩ | ⟨ha', _⟩
      · rw [hp, hp', List.append_assoc] at hparts
        exact ⟨rfl, List.append_cancel_left hparts⟩
      · exact absurd (habsolute.mpr ha) ha'
    · rcases origin_eq_ok htidy.sound horigin' with ⟨ha', _⟩ | ⟨_, rfl, rfl⟩
      · exact absurd (habsolute.mp ha') ha
      · exact ⟨rfl, hparts⟩
  obtain ⟨rfl, hway⟩ := hway
  -- without their dots, the way of the file is that of the root with the names behind it
  have hto := hleads.thin (thins_filter _)
  have hto' := hleads'.thin (thins_filter _)
  rw [filter_fullSteps] at hto hto'
  have hsteps : (names.map Path.Component.name).map stepOf = names := by
    simp [Function.comp_def, stepOf]
  rw [hway, List.map_append, hsteps] at hto'
  cases hto'.unique (hto.append fun links => leads_of_get? hnames hget (by simp))
  rfl

lemma exists_place_of_mem_walkRoot (htidy : t.Tidy) (hpath : path ∈ t.walkRoot here root)
    {s : Stamp} (hstamp : t.stamp here path = .ok s) :
    root ≠ "" ∧ ∃ base names, t.resolve here root true = .ok base ∧
      (∀ name ∈ names, Path.isName name = true) ∧ path = Path.spell root names ∧
      t.locate? here path = some (base ++ names) ∧
      ∃ content time, t.get? (base ++ names) = some (.file content time) := by
  obtain ⟨hroot, base, hbase, names, hnames, rfl, content, time, hget⟩ :=
    shows_of_mem_walkRoot htidy hpath
  obtain ⟨e, he, -⟩ := exists_ok_of_bind_eq_ok hstamp
  obtain ⟨place, hplace, -⟩ := entry_eq_ok_iff.mp he
  refine ⟨hroot, base, names, hbase, hnames, rfl, ?_, content, time, hget⟩
  rw [locate?, hplace, resolve_spell htidy hroot hbase hnames hget hplace]
  rfl

lemma eq_of_locate?_eq (htidy : t.Tidy) {p q : String} (hp : p ∈ t.walkRoot here root)
    (hq : q ∈ t.walkRoot here root) {r s : Stamp} (hr : t.stamp here p = .ok r)
    (hs : t.stamp here q = .ok s) (h : t.locate? here p = t.locate? here q) : p = q := by
  obtain ⟨-, base, names, hbase, -, rfl, hplace, -⟩ := exists_place_of_mem_walkRoot htidy hp hr
  obtain ⟨-, base', others, hbase', -, rfl, hplace', -⟩ := exists_place_of_mem_walkRoot htidy hq hs
  cases hbase.symm.trans hbase'
  rw [hplace, hplace'] at h
  rw [List.append_cancel_left (Option.some.inj h)]

end FileTree

end Files

end SpecAtlas
