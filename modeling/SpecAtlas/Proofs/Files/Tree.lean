import Mathlib.Data.List.Basic
import SpecAtlas.Files.Tree
import SpecAtlas.Proofs.Scan.Cached

/-! Trees of files. A change of a tree only brings in the files that are put into it, and every file
that can be read has a stamp. -/

namespace SpecAtlas.Files

variable {content : Content} {time : Int}

namespace Entry

lemma find?_place_self (name : String) (e : Entry) (entries : List (String × Entry)) :
    (place name e entries).find? (·.1 == name) = some (name, e) := by
  induction entries with
  | nil => simp [place]
  | cons d rest ih =>
    obtain ⟨n, d⟩ := d
    rw [place]
    split_ifs with hlt heq
    · simp
    · simp
    · have hn : (n == name) = false :=
        beq_eq_false_iff_ne.mpr fun hn => heq (beq_iff_eq.mpr hn.symm)
      rw [List.find?_cons, hn, ih]

lemma find?_place_of_ne {name n : String} (h : name ≠ n) (e : Entry)
    (entries : List (String × Entry)) :
    (place name e entries).find? (·.1 == n) = entries.find? (·.1 == n) := by
  have hname : (name == n) = false := by simpa using h
  induction entries with
  | nil => simp [place, h]
  | cons d rest ih =>
    obtain ⟨m, d⟩ := d
    rw [place]
    split_ifs with hlt heq
    · rw [List.find?_cons, hname]
    · obtain rfl := beq_iff_eq.mp heq
      rw [List.find?_cons, List.find?_cons, hname]
    · rw [List.find?_cons, List.find?_cons, ih]

lemma find?_filter_ne (name n : String) (entries : List (String × Entry)) :
    (entries.filter (·.1 != name)).find? (·.1 == n)
      = if name = n then none else entries.find? (·.1 == n) := by
  rw [List.find?_filter]
  split_ifs with h
  · subst h
    simp [List.find?_eq_none]
  · congr 1
    funext d
    by_cases hd : d.1 = n
    · simp [hd, Ne.symm h]
    · simp [hd]

lemma get?_cons {entries : List (String × Entry)} (n : String) (path : List String) :
    (directory entries).get? (n :: path)
      = (entries.find? (·.1 == n)).bind fun d => d.2.get? path := by
  rw [get?]
  cases entries.find? (·.1 == n) <;> rfl

lemma get?_place {name : String} {new : Entry} {entries : List (String × Entry)}
    {path : List String}
    (h : (directory (place name new entries)).get? path = some (file content time)) :
    (∃ rest, path = name :: rest ∧ new.get? rest = some (file content time))
      ∨ (directory entries).get? path = some (file content time) := by
  cases path with
  | nil => cases h
  | cons n path =>
    rw [get?_cons] at h ⊢
    by_cases hn : name = n
    · subst hn
      rw [find?_place_self] at h
      exact .inl ⟨path, rfl, h⟩
    · rw [find?_place_of_ne hn] at h
      exact .inr h

lemma get?_put {e new : Entry} {names path : List String}
    (h : (e.put new names).get? path = some (file content time)) :
    (∃ q, new.get? q = some (file content time)) ∨ e.get? path = some (file content time) := by
  induction names generalizing e path with
  | nil => exact .inl ⟨path, h⟩
  | cons name rest ih =>
    cases e with
    | file c t => exact .inr h
    | link target => exact .inr h
    | directory entries =>
      rw [put] at h
      split at h
      · rename_i child hchild
        rcases get?_place h with ⟨more, rfl, hmore⟩ | hold
        · rcases ih hmore with hnew | hold
          · exact .inl hnew
          · refine .inr ?_
            rw [get?_cons, hchild]
            exact hold
        · exact .inr hold
      · split_ifs at h
        · rcases get?_place h with ⟨more, -, hmore⟩ | hold
          · exact .inl ⟨more, hmore⟩
          · exact .inr hold
        · exact .inr h

lemma get?_erase {e : Entry} {names path : List String}
    (h : (e.erase names).get? path = some (file content time)) :
    e.get? path = some (file content time) := by
  induction names generalizing e path with
  | nil => exact h
  | cons name rest ih =>
    cases e with
    | file c t => exact h
    | link target => exact h
    | directory entries =>
      rw [erase] at h
      split_ifs at h
      · cases path with
        | nil => cases h
        | cons n path =>
          rw [get?_cons, find?_filter_ne] at h
          split_ifs at h
          · cases h
          · rw [get?_cons]
            exact h
      · split at h
        · rename_i child hchild
          rcases get?_place h with ⟨more, rfl, hmore⟩ | hold
          · rw [get?_cons, hchild]
            exact ih hmore
          · exact hold
        · exact h

mutual

def all : Entry → List Entry
  | directory entries => directory entries :: allOf entries
  | file content mtime => [file content mtime]
  | link target => [link target]

def allOf : List (String × Entry) → List Entry
  | [] => []
  | (_, e) :: rest => e.all ++ allOf rest

end

lemma self_mem_all (e : Entry) : e ∈ e.all := by
  cases e <;> simp [all]

lemma all_subset_allOf {name : String} {e : Entry} {entries : List (String × Entry)}
    (h : (name, e) ∈ entries) : e.all ⊆ allOf entries := by
  induction entries with
  | nil => cases h
  | cons d rest ih =>
    obtain ⟨n, d⟩ := d
    rw [allOf]
    rcases List.mem_cons.mp h with heq | hrest
    · cases heq
      exact List.subset_append_left _ _
    · exact List.Subset.trans (ih hrest) (List.subset_append_right _ _)

lemma mem_all_of_get? {e x : Entry} {names : List String} (h : e.get? names = some x) :
    x ∈ e.all := by
  induction names generalizing e with
  | nil =>
    cases h
    exact self_mem_all _
  | cons name rest ih =>
    cases e with
    | file content time => cases h
    | link target => cases h
    | directory entries =>
      rw [get?_cons] at h
      obtain ⟨⟨n, child⟩, hfind, hchild⟩ := Option.bind_eq_some_iff.mp h
      have hmem := List.mem_of_find?_eq_some hfind
      rw [all]
      exact List.mem_cons_of_mem _ (all_subset_allOf hmem (ih hchild))

def view? : Entry → Option (Stamp × Except FileError String)
  | file (.bytes b _) mtime =>
    some ({ mtime := .ofInt (max 0 mtime), size := .ofNat b.size },
      match String.fromUTF8? b with
      | some text => .ok text
      | none => .error .notText)
  | file (.database _) mtime =>
    some ({ mtime := .ofInt (max 0 mtime), size := 0 }, .error .notText)
  | directory _ => some ({ mtime := 0, size := 0 }, .error .isDirectory)
  | link _ => none

end Entry

namespace FileTree

variable {R : FileTree → Prop} {here : List String} {t : FileTree}

lemma Changed.andThen_invariant {c : Changed} {next : FileTree → Changed} (h : R c.1)
    (hnext : ∀ t, R t → R (next t).1) : R (c.andThen next).1 := by
  obtain ⟨t, e | u⟩ := c
  · exact h
  · exact hnext t h

lemma makeUpward_invariant (hmade : ∀ t path, R t → R (t.makeDirectory here path).1)
    {paths : List String} (h : R t) : R (t.makeUpward here paths).1 := by
  induction paths generalizing t with
  | nil => exact h
  | cons path above ih =>
    rw [makeUpward]
    split_ifs
    · exact h
    · have hfirst := hmade t path h
      split
      · rename_i heq
        rw [heq] at hfirst
        exact hfirst
      · rename_i heq
        rw [heq] at hfirst
        refine Changed.andThen_invariant (ih hfirst) fun u hu => ?_
        have hagain := hmade u path hu
        split
        · rename_i heq
          rw [heq] at hagain
          exact hagain
        · rename_i heq
          rw [heq] at hagain
          exact hagain
      · rename_i heq
        rw [heq] at hfirst
        exact hfirst

lemma makeParent_invariant (hmade : ∀ t path, R t → R (t.makeDirectory here path).1)
    {path : String} (h : R t) : R (t.makeParent here path).1 := by
  rw [makeParent]
  split
  · exact makeUpward_invariant hmade h
  · exact h

end FileTree

variable {P : IndexRow → Prop} {t : FileTree} {here names : List String} {path : String}

def Content.AllRows (P : IndexRow → Prop) : Content → Prop
  | .bytes _ _ => True
  | .database d => (d.index.getD {}).AllRows P

namespace FileTree

def AllRows (P : IndexRow → Prop) (t : FileTree) : Prop :=
  ∀ names content time, t.get? names = some (.file content time) → content.AllRows P

namespace AllRows

lemma put (h : t.AllRows P) {e : Entry}
    (he : ∀ q content time, e.get? q = some (.file content time) → content.AllRows P) :
    (t.put names e).AllRows P := by
  intro path content time hget
  rcases Entry.get?_put hget with ⟨q, hq⟩ | hold
  · exact he q content time hq
  · exact h path content time hold

lemma put_file (h : t.AllRows P) {content : Content} (hc : content.AllRows P) (time : Int) :
    (t.put names (.file content time)).AllRows P := by
  apply h.put
  intro q c s hq
  cases q with
  | nil =>
    cases hq
    exact hc
  | cons n q => cases hq

lemma put_bytes (h : t.AllRows P) {bytes : ByteArray} {former : Option Nat} {time : Int} :
    (t.put names (.file (.bytes bytes former) time)).AllRows P := by
  apply h.put_file
  exact trivial

lemma put_database (h : t.AllRows P) {d : Database} (hd : (d.index.getD {}).AllRows P)
    {time : Int} : (t.put names (.file (.database d) time)).AllRows P := by
  apply h.put_file
  exact hd

lemma put_directory (h : t.AllRows P) : (t.put names (.directory [])).AllRows P := by
  apply h.put
  intro q c s hq
  cases q with
  | nil => cases hq
  | cons n q => cases hq

lemma erase (h : t.AllRows P) : FileTree.AllRows P { t with root := t.root.erase names } := by
  intro path content time hget
  exact h path content time (Entry.get?_erase hget)

lemma unlink (h : t.AllRows P) : (t.unlink names).AllRows P := by
  rw [FileTree.unlink]
  split_ifs
  · exact h
  · exact h.erase

lemma makeDirectory (h : t.AllRows P) : (t.makeDirectory here path).1.AllRows P := by
  rw [FileTree.makeDirectory]
  split
  · exact h
  · split
    · exact h
    · exact h
    · exact h.put_directory

lemma makeParent (h : t.AllRows P) : (t.makeParent here path).1.AllRows P :=
  makeParent_invariant (fun _ _ h => h.makeDirectory) h

lemma writeFile (h : t.AllRows P) (bytes : ByteArray) (time : Int) :
    (t.writeFile here path bytes time).1.AllRows P := by
  refine Changed.andThen_invariant h.makeParent fun u hu => ?_
  split
  · exact hu
  · split
    · exact hu.put_bytes
    · exact hu
  · exact hu.put_bytes

lemma removeEmpty (h : t.AllRows P) : (t.removeEmpty here path).1.AllRows P := by
  rw [FileTree.removeEmpty]
  split
  · exact h
  · simp only
    split
    · exact h
    · split
      · exact h
      · exact h
      · split_ifs
        · exact h
        · exact h
        · exact h.erase
        · exact h

lemma remove (h : t.AllRows P) : (t.remove here path).1.AllRows P := by
  rw [FileTree.remove]
  split
  · exact h
  · rename_i names _
    split_ifs
    · have hempty : (t.put names (.directory [])).AllRows P := h.put_directory
      have hremoved : ((t.put names (.directory [])).removeEmpty here path).1.AllRows P :=
        hempty.removeEmpty
      split
      · rename_i heq
        rw [heq] at hremoved
        exact hremoved
      · exact hremoved
    · exact h.erase

end AllRows

def views (t : FileTree) : List (Stamp × Except FileError String) :=
  t.root.all.filterMap Entry.view?

lemma entry_eq_ok_iff {e : Entry} :
    t.entry here path = .ok e ↔ ∃ names, t.resolve here path true = .ok names ∧
      t.get? names = some e := by
  rw [entry]
  cases t.resolve here path true with
  | error f => simp [bind, Except.bind]
  | ok names =>
    cases hget : t.get? names <;> simp [bind, Except.bind, hget]

lemma mem_views {s : Stamp} (h : t.stamp here path = .ok s) : (s, t.read here path) ∈ t.views := by
  obtain ⟨e, he, h⟩ := exists_ok_of_bind_eq_ok h
  obtain ⟨names, -, hget⟩ := entry_eq_ok_iff.mp he
  refine List.mem_filterMap.mpr ⟨e, Entry.mem_all_of_get? hget, ?_⟩
  rw [read, bytes, he]
  cases e with
  | file content time =>
    cases content with
    | bytes b former =>
      cases h
      rfl
    | database d =>
      cases h
      rfl
  | link target => cases h
  | directory entries =>
    cases h
    rfl

lemma stamped (t : FileTree) (here : List String) : (t.files here).Stamped := by
  intro path text h
  replace h : t.read here path = .ok text := h
  obtain ⟨bytes, hbytes, -⟩ := exists_ok_of_bind_eq_ok h
  obtain ⟨e, he, hfile⟩ := exists_ok_of_bind_eq_ok hbytes
  show ∃ s, t.stamp here path = .ok s
  rw [stamp, he]
  cases e with
  | file content time => cases content <;> exact ⟨_, rfl⟩
  | link target => cases hfile
  | directory entries => cases hfile

end FileTree

end SpecAtlas.Files
