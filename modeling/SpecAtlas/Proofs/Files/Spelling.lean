import SpecAtlas.Proofs.Files.Way

/-! Spellings of paths. Two spellings of one path differ in slashes and dots only, so they lead to
the same entry if they lead to any, and a walk shows its files under paths that start with its
root. -/

namespace SpecAtlas

lemma Text.toList_of_stripLead? {lead s rest : String} (h : stripLead? lead s = some rest) :
    s.toList = lead.toList ++ rest.toList := by
  rw [stripLead?] at h
  split_ifs at h with hprefix
  obtain ⟨tail, htail⟩ := List.isPrefixOf_iff_prefix.mp hprefix
  cases h
  rw [String.toList_ofList, ← htail, ← String.length_toList, List.drop_left]

namespace Path

def parts (s : List Char) : List Component := (pieces s).filterMap component?

def lead (s : List Char) : List Component :=
  if s.head? = some '/' then [.root]
  else if (pieces s).head? = some ['.'] then [.here]
  else []

lemma pieces_ne_nil (s : List Char) : pieces s ≠ [] := by
  cases s with
  | nil => simp [pieces]
  | cons c s =>
    rw [pieces]
    split_ifs
    · simp
    · split <;> simp

lemma pieces_append (a b : List Char) : pieces (a ++ '/' :: b) = pieces a ++ pieces b := by
  induction a with
  | nil => simp [pieces]
  | cons c a ih =>
    rw [List.cons_append, pieces, pieces, ih]
    split_ifs
    · rfl
    · obtain ⟨piece, more, he⟩ := List.exists_cons_of_ne_nil (pieces_ne_nil a)
      rw [he]
      rfl

lemma parts_append (a b : List Char) : parts (a ++ '/' :: b) = parts a ++ parts b := by
  rw [parts, pieces_append, List.filterMap_append]
  rfl

lemma lead_append {a : List Char} (h : a ≠ []) (b : List Char) : lead (a ++ '/' :: b) = lead a := by
  have hhead : (a ++ '/' :: b).head? = a.head? := List.head?_append_of_ne_nil a h
  rw [lead, hhead, pieces_append, List.head?_append_of_ne_nil _ (pieces_ne_nil a), lead]

lemma components_eq (path : String) : components path = lead path.toList ++ parts path.toList := by
  obtain ⟨first, rest, he⟩ := List.exists_cons_of_ne_nil (pieces_ne_nil path.toList)
  -- before a leading slash there is an empty piece, which stands for no component
  have hslash (h : path.toList.head? = some '/') : first = [] := by
    cases hs : path.toList with
    | nil => simp [hs] at h
    | cons c s =>
      obtain rfl : c = '/' := by simpa [hs] using h
      rw [hs] at he
      exact (List.cons.inj he).1.symm
  simp only [components, lead, parts, he, beq_iff_eq, List.head?_cons, Option.some.injEq]
  split_ifs with h h
  · simp [hslash h, component?]
  · simp [h, component?]
  · rw [List.filterMap_cons]
    cases component? first <;> rfl

lemma mem_parts {s : List Char} {c : Component} (h : c ∈ parts s) : c ≠ .root ∧ c ≠ .here := by
  obtain ⟨piece, -, hc⟩ := List.mem_filterMap.mp h
  rw [component?] at hc
  split_ifs at hc <;> cases hc <;> exact ⟨nofun, nofun⟩

lemma root_mem_components (path : String) :
    .root ∈ components path ↔ path.toList.head? = some '/' := by
  have hparts : Component.root ∉ parts path.toList := fun h => (mem_parts h).1 rfl
  rw [components_eq, List.mem_append, lead]
  split_ifs <;> simp_all

lemma filter_parts (s : List Char) :
    (parts s).filter (fun c => c ≠ .root ∧ c ≠ .here) = parts s :=
  List.filter_eq_self.mpr fun _ hc => decide_eq_true (mem_parts hc)

lemma filter_components (path : String) :
    (components path).filter (fun c => c ≠ .root ∧ c ≠ .here) = parts path.toList := by
  have hlead : (lead path.toList).filter (fun c => c ≠ .root ∧ c ≠ .here) = [] := by
    rw [lead]
    split_ifs <;> rfl
  rw [components_eq, List.filter_append, hlead, filter_parts, List.nil_append]

variable {p q : String}

lemma parts_of_same (h : same p q = true) : parts p.toList = parts q.toList := by
  rw [← filter_components p, ← filter_components q, beq_iff_eq.mp h]

lemma absolute_of_same (h : same p q = true) :
    p.toList.head? = some '/' ↔ q.toList.head? = some '/' := by
  rw [← root_mem_components, ← root_mem_components, beq_iff_eq.mp h]

lemma within_trans {r : String} (h : within p q = true) (h' : within q r = true) :
    within p r = true :=
  List.isPrefixOf_iff_prefix.mpr
    ((List.isPrefixOf_iff_prefix.mp h).trans (List.isPrefixOf_iff_prefix.mp h'))

lemma components_join {dir name : String} (hdir : dir ≠ "") (hname : name.toList.head? ≠ some '/') :
    components (join dir name) = components dir ++ parts name.toList := by
  have hne : dir.toList ≠ [] := by simpa using hdir
  rw [join, if_neg (by simp [hdir, hname])]
  split_ifs with hlast
  · obtain ⟨init, hinit⟩ := List.getLast?_eq_some_iff.mp (by simpa using hlast)
    have hjoin : (dir ++ name).toList = init ++ '/' :: name.toList := by simp [hinit]
    have hlead : lead (init ++ '/' :: name.toList) = lead (init ++ ['/']) := by
      by_cases h : init = []
      · subst h
        rfl
      · rw [lead_append h, lead_append h]
    rw [components_eq, components_eq dir, hjoin, hinit, hlead, parts_append, parts_append]
    simp [parts, pieces, component?]
  · have hjoin : (dir ++ "/" ++ name).toList = dir.toList ++ '/' :: name.toList := by simp
    rw [components_eq, components_eq dir, hjoin, lead_append hne, parts_append, List.append_assoc]

lemma within_join {dir name : String} (hdir : dir ≠ "") (hname : name.toList.head? ≠ some '/') :
    within dir (join dir name) = true := by
  rw [within, components_join hdir hname, List.isPrefixOf_iff_prefix]
  exact List.prefix_append ..

lemma join_ne_empty {dir name : String} (hdir : dir ≠ "") : join dir name ≠ "" := by
  rw [join]
  split_ifs with h
  · rintro rfl
    simp [hdir] at h
  · simp [hdir]
  · simp

end Path

namespace Files

mutual

def Entry.Named : Entry → Prop
  | .file _ _ => True
  | .link _ => True
  | .directory entries => Entry.NamedAll entries

def Entry.NamedAll : List (String × Entry) → Prop
  | [] => True
  | (name, e) :: rest => '/' ∉ name.toList ∧ e.Named ∧ Entry.NamedAll rest

end

lemma Entry.NamedAll.of_mem {entries : List (String × Entry)} (h : NamedAll entries) {name : String}
    {e : Entry} (hmem : (name, e) ∈ entries) : e.Named := by
  induction entries with
  | nil => cases hmem
  | cons d rest ih =>
    obtain ⟨-, hd, hrest⟩ := h
    rcases List.mem_cons.mp hmem with rfl | hmem
    · exact hd
    · exact ih hrest hmem

lemma Entry.Named.get? {e x : Entry} (h : e.Named) {names : List String}
    (hget : e.get? names = some x) : x.Named := by
  induction names generalizing e with
  | nil =>
    cases hget
    exact h
  | cons name rest ih =>
    cases e with
    | file content time => cases hget
    | link target => cases hget
    | directory entries =>
      rw [get?_cons] at hget
      obtain ⟨⟨n, child⟩, hfind, hchild⟩ := Option.bind_eq_some_iff.mp hget
      exact ih (NamedAll.of_mem h (List.mem_of_find?_eq_some hfind)) hchild

namespace FileTree

structure Sound (t : FileTree) : Prop where
  mount : t.mount.toList.head? = some '/'
  named : t.root.Named

variable {t : FileTree} {here : List String}

mutual

theorem within_of_mem_walkEntry (scope : IgnoreScope) {shown : String} (hshown : shown ≠ "")
    (names : List String) :
    (e : Entry) → e.Named → ∀ path ∈ t.walkEntry here scope shown names e,
      Path.within shown path = true
  | .file _ _, _, path, hpath => by
    rw [walkEntry] at hpath
    rw [List.mem_singleton.mp hpath]
    exact Path.within_self shown
  | .link _, _, path, hpath => by
    rw [walkEntry] at hpath
    cases hpath
  | .directory entries, hnamed, path, hpath => by
    rw [walkEntry] at hpath
    exact within_of_mem_walkAll _ hshown names entries hnamed path hpath

theorem within_of_mem_walkAll (scope : IgnoreScope) {shown : String} (hshown : shown ≠ "")
    (names : List String) :
    (entries : List (String × Entry)) → Entry.NamedAll entries →
      ∀ path ∈ t.walkAll here scope shown names entries, Path.within shown path = true
  | [], _, path, hpath => by
    rw [walkAll] at hpath
    cases hpath
  | (name, e) :: rest, hnamed, path, hpath => by
    obtain ⟨hname, he, hrest⟩ := hnamed
    have hhead : name.toList.head? ≠ some '/' := fun h => hname (List.mem_of_head? h)
    rw [walkAll, List.mem_append] at hpath
    rcases hpath with hpath | hpath
    · split_ifs at hpath
      · cases hpath
      · exact Path.within_trans (Path.within_join hshown hhead)
          (within_of_mem_walkEntry scope (Path.join_ne_empty hshown) _ e he path hpath)
    · exact within_of_mem_walkAll scope hshown names rest hrest path hpath

end

lemma locate?_empty : t.locate? here "" = none := rfl

lemma within_of_mem_walkRoot (hsound : t.Sound) {root path : String}
    (h : path ∈ t.walkRoot here root) : Path.within root path = true := by
  rw [walkRoot] at h
  split_ifs at h
  · cases h
  split at h
  · cases h
  · rename_i names hnames
    have hroot : root ≠ "" := by
      rintro rfl
      cases locate?_empty.symm.trans hnames
    split at h
    · rename_i entries hget
      exact within_of_mem_walkEntry _ hroot names _ (hsound.named.get? hget) path h
    · rw [List.mem_singleton.mp h]
      exact Path.within_self root
    · cases h

lemma withinAny_of_mem_walk (hsound : t.Sound) {roots : List String} {path : String}
    (h : path ∈ (t.files here).walk roots) : Path.withinAny path roots = true := by
  obtain ⟨root, hroot, hpath⟩ := List.mem_flatMap.mp h
  exact List.any_eq_true.mpr ⟨root, hroot, within_of_mem_walkRoot hsound hpath⟩

inductive Thins : List String → List String → Prop
  | nil : Thins [] []
  | drop {xs ys : List String} : Thins xs ys → Thins ("." :: xs) ys
  | keep {xs ys : List String} (step : String) : Thins xs ys → Thins (step :: xs) (step :: ys)

lemma Thins.prepend {xs ys : List String} (h : Thins xs ys) (steps : List String) :
    Thins (steps ++ xs) (steps ++ ys) := by
  induction steps with
  | nil => exact h
  | cons step steps ih => exact .keep step ih

lemma thins_filter (xs : List String) : Thins xs (xs.filter (· ≠ ".")) := by
  induction xs with
  | nil => exact .nil
  | cons x xs ih =>
    by_cases hx : x = "."
    · subst hx
      exact .drop ih
    · rw [List.filter_cons_of_pos (by simpa using hx)]
      exact .keep x ih

lemma Thins.exists_of_ne_dot {step : String} {xs ys : List String} (h : Thins (step :: xs) ys)
    (hstep : step ≠ ".") : ∃ zs, ys = step :: zs ∧ Thins xs zs := by
  cases h with
  | drop => exact absurd rfl hstep
  | keep _ h => exact ⟨_, rfl, h⟩

lemma Leads.thin {links : Nat} {xs ys : List String} {spot : Spot}
    (h : t.Leads true links here xs spot) (hthin : Thins xs ys) :
    t.Leads true links here ys spot := by
  induction h generalizing ys with
  | arrive =>
    cases hthin
    exact .arrive
  | stay hdir _ ih =>
    cases hthin with
    | drop hthin => exact ih hthin
    | keep _ hthin => exact .stay hdir (ih hthin)
  | up hdir _ ih =>
    obtain ⟨zs, rfl, hrest⟩ := hthin.exists_of_ne_dot (by decide)
    exact .up hdir (ih hrest)
  | free henters =>
    obtain ⟨zs, rfl, hrest⟩ := hthin.exists_of_ne_dot henters.notHere
    cases hrest
    exact .free henters
  | enter henters hlink _ ih =>
    obtain ⟨zs, rfl, hrest⟩ := hthin.exists_of_ne_dot henters.notHere
    exact .enter henters hlink (ih hrest)
  | stop _ hfinal => cases hfinal
  | jump henters _ horigin _ ih =>
    obtain ⟨zs, rfl, hrest⟩ := hthin.exists_of_ne_dot henters.notHere
    exact .jump henters (Bool.and_false _) horigin (ih (hrest.prepend _))

def stepOf : Path.Component → String
  | .root => "/"
  | .here => "."
  | .up => ".."
  | .name text => text

lemma filter_steps_eq (ps : List (List Char)) :
    ((ps.filter (!·.isEmpty)).map String.ofList).filter (· ≠ ".") =
      (ps.filterMap Path.component?).map stepOf := by
  induction ps with
  | nil => rfl
  | cons piece ps ih =>
    by_cases hempty : piece = []
    · subst hempty
      exact ih
    by_cases hdot : piece = ['.']
    · subst hdot
      exact ih
    have hstep : ∃ c, Path.component? piece = some c ∧ stepOf c = String.ofList piece := by
      rw [Path.component?, if_neg (by simp [hempty, hdot])]
      split_ifs with hup
      · exact ⟨.up, rfl, by rw [beq_iff_eq.mp hup]; rfl⟩
      · exact ⟨.name _, rfl, rfl⟩
    obtain ⟨c, hc, hstep⟩ := hstep
    have hne : String.ofList piece ≠ "." := fun he =>
      hdot (by simpa using congrArg String.toList he)
    rw [List.filter_cons_of_pos (by simpa using hempty), List.map_cons,
      List.filter_cons_of_pos (by simpa using hne), ih, List.filterMap_cons_some hc, List.map_cons,
      hstep]

lemma filter_fullSteps (path : String) :
    (fullSteps path).filter (· ≠ ".") = (Path.parts path.toList).map stepOf := by
  have hsteps : (steps path).filter (· ≠ ".") = (Path.parts path.toList).map stepOf :=
    filter_steps_eq _
  rw [fullSteps]
  split_ifs
  · rw [List.filter_append, hsteps]
    exact List.append_nil _
  · exact hsteps

variable {p q : String}

lemma origin_eq_ok (hsound : t.Sound) {start : List String} {rest : String}
    (h : t.origin here p = .ok (start, rest)) :
    p.toList.head? = some '/' ∧ start = [] ∧
        Path.parts p.toList = Path.parts t.mount.toList ++ Path.parts rest.toList ∨
      p.toList.head? ≠ some '/' ∧ start = here ∧ rest = p := by
  have hmount := hsound.mount
  rw [origin] at h
  cases hstrip : Text.stripLead? (t.mount ++ "/") p with
  | some tail =>
    have hp : p.toList = t.mount.toList ++ '/' :: tail.toList := by
      simpa using Text.toList_of_stripLead? hstrip
    have habs : p.toList.head? = some '/' := by
      rw [hp, List.head?_append, hmount, Option.some_or]
    have hroot : t.mount ≠ p := fun he => by simpa [he] using congrArg List.length hp
    simp only [hstrip] at h
    split_ifs at h with _ _ _ heq
    · exact absurd (beq_iff_eq.mp heq).symm hroot
    · cases h
      exact .inl ⟨habs, rfl, by rw [hp, Path.parts_append]⟩
  | none =>
    simp only [hstrip] at h
    split_ifs at h with _ _ _ heq habs
    · cases h
      rw [beq_iff_eq.mp heq]
      exact .inl ⟨hmount, rfl, by simp [Path.parts, Path.pieces, Path.component?]⟩
    · cases h
      exact .inr ⟨by simpa using habs, rfl, rfl⟩

lemma origin_of_same (hsound : t.Sound) (h : Path.same p q = true) {start start' : List String}
    {rest rest' : String} (hp : t.origin here p = .ok (start, rest))
    (hq : t.origin here q = .ok (start', rest')) :
    start = start' ∧ Path.parts rest.toList = Path.parts rest'.toList := by
  have hparts := Path.parts_of_same h
  have habs := Path.absolute_of_same h
  rcases origin_eq_ok hsound hp with ⟨hpa, rfl, hpp⟩ | ⟨hpa, rfl, rfl⟩
  · rcases origin_eq_ok hsound hq with ⟨_, rfl, hqp⟩ | ⟨hqa, _⟩
    · rw [hpp, hqp] at hparts
      exact ⟨rfl, List.append_cancel_left hparts⟩
    · exact absurd (habs.mp hpa) hqa
  · rcases origin_eq_ok hsound hq with ⟨hqa, _⟩ | ⟨_, rfl, rfl⟩
    · exact absurd (habs.mpr hqa) hpa
    · exact ⟨rfl, hparts⟩

lemma resolve_of_same (hsound : t.Sound) (h : Path.same p q = true) {names names' : List String}
    (hp : t.resolve here p true = .ok names) (hq : t.resolve here q true = .ok names') :
    names = names' := by
  obtain ⟨start, rest, hpo, hpl⟩ := resolve_eq_ok_iff.mp hp
  obtain ⟨start', rest', hqo, hql⟩ := resolve_eq_ok_iff.mp hq
  obtain ⟨rfl, hparts⟩ := origin_of_same hsound h hpo hqo
  -- without their dots the two ways are the same
  have hpt := hpl.thin (thins_filter _)
  have hqt := hql.thin (thins_filter _)
  rw [filter_fullSteps] at hpt hqt
  rw [← hparts] at hqt
  cases hpt.unique hqt
  rfl

lemma stamp_of_same (hsound : t.Sound) (h : Path.same p q = true) {s r : Stamp}
    (hp : t.stamp here p = .ok s) (hq : t.stamp here q = .ok r) : s = r := by
  obtain ⟨e, hpe, hps⟩ := exists_ok_of_bind_eq_ok hp
  obtain ⟨e', hqe, hqs⟩ := exists_ok_of_bind_eq_ok hq
  obtain ⟨names, hpr, hpg⟩ := entry_eq_ok_iff.mp hpe
  obtain ⟨names', hqr, hqg⟩ := entry_eq_ok_iff.mp hqe
  obtain rfl := resolve_of_same hsound h hpr hqr
  obtain rfl := Option.some.inj (hpg.symm.trans hqg)
  exact Except.ok.inj (hps.symm.trans hqs)

end FileTree

end Files

end SpecAtlas
