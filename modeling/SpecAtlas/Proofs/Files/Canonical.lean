import SpecAtlas.Proofs.Files.Walk

/-! Canonical paths. A path that leads anywhere leads to an entry which is no link, by way of
directories, so the canonical path of that entry leads there as well, if it leads anywhere. -/

namespace SpecAtlas

namespace Path

variable {names : List String}

lemma parts_intercalate (h : ∀ name ∈ names, isName name = true) :
    parts ("/".intercalate names).toList = names.map .name := by
  induction names with
  | nil => rfl
  | cons name rest ih =>
    obtain ⟨hname, hrest⟩ := List.forall_mem_cons.mp h
    by_cases hnil : rest = []
    · rw [hnil, String.intercalate_singleton, parts_of_isName hname]
      rfl
    · have htext : ("/".intercalate (name :: rest)).toList
          = name.toList ++ '/' :: ("/".intercalate rest).toList := by
        simp [String.intercalate_cons_of_ne_nil hnil]
      rw [htext, parts_append, parts_of_isName hname, ih hrest]
      rfl

end Path

namespace Files

lemma Entry.isName_of_get? {e x : Entry} {names : List String} (h : e.isTidy = true)
    (hget : e.get? names = some x) : ∀ name ∈ names, Path.isName name = true := by
  induction names generalizing e with
  | nil => exact List.forall_mem_nil _
  | cons name rest ih =>
    cases e with
    | file content time => cases hget
    | link target => cases hget
    | directory entries =>
      rw [get?_cons] at hget
      obtain ⟨d, hfind, hchild⟩ := Option.bind_eq_some_iff.mp hget
      obtain ⟨hname, htidy⟩ := (isTidy_directory.mp h).2 d (List.mem_of_find?_eq_some hfind)
      have hself : d.1 = name := by simpa using List.find?_some hfind
      exact List.forall_mem_cons.mpr ⟨hself ▸ hname, ih htidy hchild⟩

namespace FileTree

variable {t : FileTree} {here names places : List String} {path : String}

def Lands (t : FileTree) (names : List String) : Prop :=
  names = [] ∨ ∃ e, t.get? names = some e ∧ ∀ target, e ≠ .link target

lemma lands_of_isDirectory (h : t.isDirectory names = true) : t.Lands names := by
  rw [isDirectory] at h
  split at h
  · rename_i e he
    refine .inr ⟨e, he, ?_⟩
    rintro target rfl
    cases h
  · cases h

lemma lands_dropLast (h : t.isDirectory names = true) : t.Lands names.dropLast := by
  rcases List.eq_nil_or_concat' names with rfl | ⟨front, last, rfl⟩
  · exact .inl rfl
  · rw [List.dropLast_concat]
    obtain hnil | ⟨e, he, -⟩ := lands_of_isDirectory h
    · simp at hnil
    · rw [get?_append] at he
      obtain ⟨d, hd, hbelow⟩ := Option.bind_eq_some_iff.mp he
      refine .inr ⟨d, hd, ?_⟩
      rintro target rfl
      cases hbelow

lemma lands_of_origin (hsound : t.Sound) {start : List String} {rest : String}
    (hhere : t.Lands here) (h : t.origin here path = .ok (start, rest)) : t.Lands start := by
  rcases origin_eq_ok hsound h with ⟨-, rfl, -⟩ | ⟨-, rfl, -⟩
  · exact .inl rfl
  · exact hhere

lemma Leads.lands (hsound : t.Sound) {links : Nat} {steps : List String}
    (h : t.Leads true links here steps (.taken names)) (hhere : steps = [] → t.Lands here) :
    t.Lands names := by
  generalize hspot : Spot.taken names = spot at h
  induction h with
  | arrive =>
    cases hspot
    exact hhere rfl
  | stay hdir _ ih => exact ih (fun _ => lands_of_isDirectory hdir) hspot
  | up hdir _ ih => exact ih (fun _ => lands_dropLast hdir) hspot
  | free => cases hspot
  | enter henters hlink _ ih => exact ih (fun _ => .inr ⟨_, henters.found, hlink⟩) hspot
  | stop _ hfinal => cases hfinal
  | jump henters _ horigin _ ih =>
    have hstart := lands_of_origin hsound (lands_of_isDirectory henters.directory) horigin
    exact ih (fun _ => hstart) hspot

lemma fullSteps_ne_nil (hempty : path ≠ "") (hrelative : path.toList.head? ≠ some '/') :
    fullSteps path ≠ [] := by
  have hsteps : steps path ≠ [] := by
    have hchars : path.toList ≠ [] := by simpa using hempty
    obtain ⟨c, s, hs⟩ := List.exists_cons_of_ne_nil hchars
    have hc : c ≠ '/' := by simpa [hs] using hrelative
    obtain ⟨piece, more, hpieces⟩ := List.exists_cons_of_ne_nil (Path.pieces_ne_nil s)
    simp [steps, hs, Path.pieces, hc, hpieces]
  rw [fullSteps]
  split_ifs
  · simp
  · exact hsteps

lemma lands_of_resolve (hsound : t.Sound) (h : t.resolve here path true = .ok names) :
    t.Lands names := by
  obtain ⟨start, rest, horigin, hleads⟩ := resolve_eq_ok_iff.mp h
  refine hleads.lands hsound fun hnil => ?_
  rcases origin_eq_ok hsound horigin with ⟨-, rfl, -⟩ | ⟨hrelative, rfl, rfl⟩
  · exact .inl rfl
  · have hempty : rest ≠ "" := by
      rintro rfl
      cases horigin
    exact absurd hnil (fullSteps_ne_nil hempty hrelative)

lemma pathOf_head? (hsound : t.Sound) (names : List String) :
    (t.pathOf names).toList.head? = some '/' := by
  rw [pathOf]
  by_cases hnil : names = []
  · rw [hnil, String.intercalate_singleton, hsound.mount]
  · simp [String.intercalate_cons_of_ne_nil hnil, hsound.mount]

lemma parts_pathOf (h : ∀ name ∈ names, Path.isName name = true) :
    Path.parts (t.pathOf names).toList = Path.parts t.mount.toList ++ names.map .name := by
  rw [pathOf]
  by_cases hnil : names = []
  · simp [hnil]
  · have htext : ("/".intercalate (t.mount :: names)).toList
        = t.mount.toList ++ '/' :: ("/".intercalate names).toList := by
      simp [String.intercalate_cons_of_ne_nil hnil]
    rw [htext, Path.parts_append, Path.parts_intercalate h]

lemma resolve_pathOf (htidy : t.Tidy) (hlands : t.Lands names)
    (h : t.resolve here (t.pathOf names) true = .ok places) : places = names := by
  have hnames : ∀ name ∈ names, Path.isName name = true := by
    rcases hlands with rfl | ⟨e, he, -⟩
    · exact List.forall_mem_nil _
    · exact Entry.isName_of_get? htidy.root he
  have hway : t.Leads true maxLinks [] names (.taken names) := by
    rcases hlands with rfl | ⟨e, he, hlink⟩
    · exact .arrive
    · exact leads_of_get? hnames he hlink
  obtain ⟨start, rest, horigin, hleads⟩ := resolve_eq_ok_iff.mp h
  rcases origin_eq_ok htidy.sound horigin with ⟨-, rfl, hparts⟩ | ⟨hrelative, -⟩
  · rw [parts_pathOf hnames] at hparts
    have hto := hleads.thin (thins_filter _)
    have hsteps : (names.map Path.Component.name).map stepOf = names := by
      simp [Function.comp_def, stepOf]
    rw [filter_fullSteps, ← List.append_cancel_left hparts, hsteps] at hto
    cases hto.unique hway
    rfl
  · exact absurd (pathOf_head? htidy.sound names) hrelative

lemma canonical?_of_canonical? (htidy : t.Tidy) {canonical again : String}
    (h : (t.files here).canonical? path = some canonical)
    (hagain : (t.files here).canonical? canonical = some again) : again = canonical := by
  obtain ⟨names, hnames, rfl⟩ := Option.map_eq_some_iff.mp h
  obtain ⟨places, hplaces, rfl⟩ := Option.map_eq_some_iff.mp hagain
  have hlands := lands_of_resolve htidy.sound (resolve_of_locate? hnames)
  rw [resolve_pathOf htidy hlands (resolve_of_locate? hplaces)]

end FileTree

end Files

end SpecAtlas
