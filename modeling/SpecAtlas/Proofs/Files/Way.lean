import SpecAtlas.Proofs.Files.Tree

/-! Ways through a tree of files. The steps of a path lead from a directory to an entry or to a free
name, by way of directories and links. What is found by following the steps is where such a way
leads. -/

namespace SpecAtlas.Files.FileTree

variable {t : FileTree} {final : Bool} {links : Nat} {here names steps : List String}
  {path step : String} {spot other : Spot}

structure Enters (t : FileTree) (here : List String) (step : String) (e : Option Entry) : Prop where
  directory : t.isDirectory here = true
  notHere : step ≠ "."
  notUp : step ≠ ".."
  short : step.utf8ByteSize ≤ maxName
  found : t.get? (here ++ [step]) = e

/-- From a directory the steps lead to the spot, over no more than some number of links. A link in
the last place is the end of the way, unless it is to be followed. -/
inductive Leads (t : FileTree) (final : Bool) : Nat → List String → List String → Spot → Prop
  | arrive {links : Nat} {here : List String} : t.Leads final links here [] (.taken here)
  | stay {links : Nat} {here rest : List String} {spot : Spot} :
      t.isDirectory here = true → t.Leads final links here rest spot →
      t.Leads final links here ("." :: rest) spot
  | up {links : Nat} {here rest : List String} {spot : Spot} :
      t.isDirectory here = true → t.Leads final links here.dropLast rest spot →
      t.Leads final links here (".." :: rest) spot
  | free {links : Nat} {here : List String} {step : String} :
      t.Enters here step none → t.Leads final links here [step] (.free here step)
  | enter {links : Nat} {here rest : List String} {step : String} {e : Entry} {spot : Spot} :
      t.Enters here step (some e) → (∀ target, e ≠ .link target) →
      t.Leads final links (here ++ [step]) rest spot → t.Leads final links here (step :: rest) spot
  | stop {links : Nat} {here : List String} {step target : String} :
      t.Enters here step (some (.link target)) → final = false →
      t.Leads final links here [step] (.taken (here ++ [step]))
  | jump {links : Nat} {here rest start : List String} {step target more : String} {spot : Spot} :
      t.Enters here step (some (.link target)) → (rest.isEmpty && !final) = false →
      t.origin here target = .ok (start, more) →
      t.Leads final links start (fullSteps more ++ rest) spot →
      t.Leads final (links + 1) here (step :: rest) spot

lemma leads_of_advance {jump : Option (List String → List String → Except FileError Spot)}
    (hjump : ∀ next, jump = some next → ∃ n, links = n + 1 ∧ ∀ start steps,
      next start steps = .ok spot → t.Leads final n start steps spot)
    (h : t.advance final jump here steps = .ok spot) : t.Leads final links here steps spot := by
  have henters {here : List String} {step : String} {e : Option Entry}
      (hdir : ¬(!t.isDirectory here) = true) (hdot : ¬(step == ".") = true)
      (hup : ¬(step == "..") = true) (hlong : ¬maxName < step.utf8ByteSize)
      (hget : t.get? (here ++ [step]) = e) : t.Enters here step e :=
    ⟨by simpa using hdir, by simpa using hdot, by simpa using hup, by omega, hget⟩
  fun_induction advance t final jump here steps with
  | case1 here =>
    cases h
    exact .arrive
  | case3 here step rest hdir hdot ih =>
    obtain rfl := beq_iff_eq.mp hdot
    exact .stay (by simpa using hdir) (ih h)
  | case4 here step rest hdir hdot hup ih =>
    obtain rfl := beq_iff_eq.mp hup
    exact .up (by simpa using hdir) (ih h)
  | case6 here step rest hdir hdot hup hlong there hnone hlast =>
    cases h
    obtain rfl := List.isEmpty_iff.mp hlast
    exact .free (henters hdir hdot hup hlong hnone)
  | case8 here step rest hdir hdot hup hlong there target hlink hlast =>
    cases h
    rw [Bool.and_eq_true] at hlast
    obtain rfl := List.isEmpty_iff.mp hlast.1
    exact .stop (henters hdir hdot hup hlong hlink) (by simpa using hlast.2)
  | case11 here step rest hdir hdot hup hlong there target hlink hlast f hf start more horigin =>
    obtain ⟨n, rfl, hleads⟩ := hjump f hf
    exact .jump (henters hdir hdot hup hlong hlink) (by simpa using hlast) horigin (hleads _ _ h)
  | case12 here step rest hdir hdot hup hlong there e hlink hsome ih =>
    exact .enter (henters hdir hdot hup hlong hsome) hlink (ih h)
  -- the other branches end in an error
  | _ => cases h

lemma leads_of_follow (h : t.follow final links here steps = .ok spot) :
    t.Leads final links here steps spot := by
  induction links generalizing here steps with
  | zero => exact leads_of_advance (fun next hnext => by cases hnext) h
  | succ links ih =>
    refine leads_of_advance (fun next hnext => ⟨links, rfl, ?_⟩) h
    cases hnext
    exact fun start steps hsteps => ih hsteps

lemma Enters.advance {e : Option Entry} (h : t.Enters here step e)
    (jump : Option (List String → List String → Except FileError Spot)) (rest : List String) :
    t.advance final jump here (step :: rest) =
      match t.get? (here ++ [step]) with
      | none => if rest.isEmpty then .ok (.free here step) else .error .notFound
      | some (.link target) =>
        if rest.isEmpty && !final then .ok (.taken (here ++ [step]))
        else
          match jump with
          | none => .error .tooManyLinks
          | some jump =>
            match t.origin here target with
            | .error e => .error e
            | .ok (start, more) => jump start (fullSteps more ++ rest)
      | some _ => t.advance final jump (here ++ [step]) rest := by
  rewrite [FileTree.advance, h.directory, if_neg (by simp),
    if_neg (by simpa using h.notHere), if_neg (by simpa using h.notUp),
    if_neg (Nat.not_lt.mpr h.short)]
  rfl

def onward (t : FileTree) (final : Bool) :
    Nat → Option (List String → List String → Except FileError Spot)
  | 0 => none
  | links + 1 => some (t.follow final links)

lemma follow_eq_advance (t : FileTree) (final : Bool) (links : Nat) :
    t.follow final links = t.advance final (t.onward final links) := by
  cases links <;> rfl

lemma Leads.follow (h : t.Leads final links here steps spot) :
    t.follow final links here steps = .ok spot := by
  induction h with
  | arrive =>
    rw [follow_eq_advance]
    rfl
  | stay hdir _ ih =>
    rw [follow_eq_advance] at ih ⊢
    rw [advance, hdir]
    exact ih
  | up hdir _ ih =>
    rw [follow_eq_advance] at ih ⊢
    rw [advance, hdir]
    exact ih
  | free henters =>
    rw [follow_eq_advance, henters.advance, henters.found]
    rfl
  | @enter links here rest step e spot henters hlink _ ih =>
    rw [follow_eq_advance] at ih ⊢
    rw [henters.advance, henters.found]
    cases e with
    | file content time => exact ih
    | directory entries => exact ih
    | link target => exact absurd rfl (hlink target)
  | stop henters hfinal =>
    rw [follow_eq_advance, henters.advance, henters.found, hfinal]
    rfl
  | jump henters hlast horigin _ ih =>
    rw [follow_eq_advance, henters.advance, henters.found]
    dsimp only [onward]
    rw [hlast, horigin]
    exact ih

lemma follow_eq_ok_iff :
    t.follow final links here steps = .ok spot ↔ t.Leads final links here steps spot :=
  ⟨leads_of_follow, Leads.follow⟩

lemma Leads.unique (h : t.Leads final links here steps spot)
    (h' : t.Leads final links here steps other) : spot = other :=
  Except.ok.inj (h.follow.symm.trans h'.follow)

lemma resolve_eq_ok_iff : t.resolve here path final = .ok names ↔
    ∃ start more, t.origin here path = .ok (start, more) ∧
      t.Leads final maxLinks start (fullSteps more) (.taken names) := by
  constructor
  · intro h
    rw [resolve] at h
    split at h
    · rename_i hspot
      cases h
      obtain ⟨⟨start, more⟩, horigin, hfollow⟩ := exists_ok_of_bind_eq_ok hspot
      exact ⟨start, more, horigin, leads_of_follow hfollow⟩
    · cases h
    · cases h
  · rintro ⟨start, more, horigin, hleads⟩
    have hspot : t.spot here path final = .ok (.taken names) := by
      rw [FileTree.spot, horigin]
      exact hleads.follow
    rw [resolve, hspot]

lemma Leads.get?_free {dir : List String} {name : String}
    (h : t.Leads final links here steps (.free dir name)) : t.get? (dir ++ [name]) = none := by
  generalize hspot : Spot.free dir name = spot at h
  induction h with
  | arrive => cases hspot
  | stay _ _ ih => exact ih hspot
  | up _ _ ih => exact ih hspot
  | free henters =>
    cases hspot
    exact henters.found
  | enter _ _ _ ih => exact ih hspot
  | stop => cases hspot
  | jump _ _ _ _ ih => exact ih hspot

end SpecAtlas.Files.FileTree
