import SpecAtlas.Proofs.Index.Repeat

/-! Scans that fail. A report that is nested too deeply can be stored and not be read back, and a
scan with an index fails at the first file with such a report in the index, and nowhere else. -/

namespace SpecAtlas

variable {env : Env} {hide : Hiding} {path other : String} {files rest : List String} {i j : Index}
  {e : Failure}

namespace Env

/-- The index has a report of the file as it is now, which is too deep to be read back. -/
def FindsDeep (env : Env) (i : Index) (path : String) : Prop :=
  ∃ stamp row, ∃ report : FileReport, env.files.stamp path = .ok stamp ∧
    i.current? path stamp = some row ∧ row.report = report.toJson.render ∧
    Json.maxDepth < report.toJson.depth

/-- The index has no report of the file as it is now, and the one that a scan stores is too deep to
be read back. -/
def StoresDeep (env : Env) (i : Index) (path : String) : Prop :=
  ∃ stamp report, env.files.stamp path = .ok stamp ∧ i.current? path stamp = none ∧
    env.report? {} path = some report ∧ Json.maxDepth < report.toJson.depth

/-- A scan of the files has to read back a report of the file that is too deep: one that was in the
index before, or its own when it comes to the file again. -/
def MeetsDeep (env : Env) (files : List String) (i : Index) (path : String) : Prop :=
  env.FindsDeep i path ∨ 1 < files.count path ∧ env.StoresDeep i path

end Env

def IndexRow.HoldsReport (row : IndexRow) : Prop :=
  ∃ report : FileReport, row.report = report.toJson.render

namespace Index

lemma eq_corruptEntry_of_cached {stamp : Stamp} (h : i.cached path stamp = .error e) :
    e = .corruptEntry path := by
  rw [cached] at h
  split at h
  · cases h
  · split at h
    · cases h
    · cases h
      rfl

lemma cached_eq_none_iff {stamp : Stamp} :
    i.cached path stamp = .ok none ↔ i.current? path stamp = none := by
  cases hrow : i.current? path stamp with
  | none => simp [cached, hrow]
  | some row =>
    simp only [cached, hrow]
    split <;> simp

lemma known_of_stamp {stamp : Stamp} (h : env.files.stamp path = .ok stamp) :
    i.known env path = i.cached path stamp := by
  rw [known, h]

lemma eq_corruptEntry_of_known (h : i.known env path = .error e) : e = .corruptEntry path := by
  rw [known] at h
  split at h
  · cases h
  · exact eq_corruptEntry_of_cached h

lemma known_eq_error_iff (hi : i.AllRows IndexRow.HoldsReport) :
    i.known env path = .error (.corruptEntry path) ↔ env.FindsDeep i path := by
  cases hstamp : env.files.stamp path with
  | error e => simp [known, hstamp, Env.FindsDeep]
  | ok stamp =>
    rw [known_of_stamp hstamp]
    cases hrow : i.current? path stamp with
    | none =>
      rw [cached_eq_none_iff.mpr hrow]
      simp [Env.FindsDeep, hstamp, hrow]
    | some row =>
      obtain ⟨report, htext⟩ := hi row (current?_eq_some hrow).1
      rw [cached_of_current? hrow htext]
      constructor
      · intro h
        split_ifs at h with hdepth
        exact ⟨stamp, row, report, hstamp, hrow, htext, Nat.lt_of_not_le hdepth⟩
      · rintro ⟨stamp', row', report', hstamp', hrow', htext', hdeep⟩
        cases hstamp.symm.trans hstamp'
        cases hrow.symm.trans hrow'
        -- both reports have the same text, which is read back for either of them or for neither
        have hsame := (cached_of_current? hrow htext).symm.trans (cached_of_current? hrow htext')
        rwa [if_neg (Nat.not_le_of_lt hdeep)] at hsame

def Blocks (i : Index) (env : Env) (files : List String) (path : String) : Prop :=
  i.known env path = .error (.corruptEntry path) ∨ 1 < files.count path ∧ env.StoresDeep i path

lemma not_storesDeep_of_settled (h : i.Settled env path) : ¬ env.StoresDeep i path := by
  rintro ⟨stamp, report, hstamp, hnone, hreport, -⟩
  cases (h stamp hstamp (cached_eq_none_iff.mpr hnone)).symm.trans hreport

lemma storesDeep_store_of_ne (h : other ≠ path) (stamp : Stamp) (report : FileReport) :
    env.StoresDeep (i.store other stamp report).1 path ↔ env.StoresDeep i path := by
  simp only [Env.StoresDeep, ← cached_eq_none_iff, cached_store_of_ne h]

lemma known_store_of_ne (h : other ≠ path) (stamp : Stamp) (report : FileReport) :
    (i.store other stamp report).1.known env path = i.known env path := by
  rw [known, known]
  split
  · rfl
  · exact cached_store_of_ne h _ stamp report

lemma blocks_cons_of_ne (h : path ≠ other) :
    i.Blocks env (path :: rest) other ↔ i.Blocks env rest other := by
  rw [Blocks, Blocks, List.count_cons_of_ne h]

lemma blocks_store_self {stamp : Stamp} {report : FileReport} (hmem : path ∈ rest)
    (hstamp : env.files.stamp path = .ok stamp) (hnone : i.cached path stamp = .ok none)
    (hreport : env.report? {} path = some report) :
    i.Blocks env (path :: rest) path ↔ (i.store path stamp report).1.Blocks env rest path := by
  have hafter := i.cached_store_self path stamp report
  have hcount : 1 < (path :: rest).count path := by
    simpa using List.count_pos_iff.mpr hmem
  have hsettled : (i.store path stamp report).1.Settled env path := by
    intro s hs hunknown
    cases hstamp.symm.trans hs
    rw [hunknown] at hafter
    split_ifs at hafter
    cases hafter
  constructor
  · rintro (hknown | ⟨-, s, deep, -, -, hdeep, hdepth⟩)
    · cases hnone.symm.trans ((known_of_stamp hstamp).symm.trans hknown)
    · cases hreport.symm.trans hdeep
      refine .inl ?_
      rw [known_of_stamp hstamp, hafter, if_neg (Nat.not_le_of_lt hdepth)]
  · rintro (hknown | ⟨-, hstores⟩)
    · rw [known_of_stamp hstamp, hafter] at hknown
      split_ifs at hknown with hdepth
      exact .inr ⟨hcount, stamp, report, hstamp, cached_eq_none_iff.mp hnone, hreport,
        Nat.lt_of_not_le hdepth⟩
    · exact absurd hstores (not_storesDeep_of_settled hsettled)

lemma blocks_scanFile (htext : env.files.Textual) {found : Option Scanned}
    (h : scanFile env hide path i = (j, .ok found)) :
    other ∈ path :: rest ∧ i.Blocks env (path :: rest) other ↔
      other ∈ rest ∧ j.Blocks env rest other := by
  rcases scanFile_cases htext hide path i with hsettled |
    ⟨stamp, report, hstamp, hnone, hreport, he⟩
  · rw [scanFile_of_settled htext hsettled] at h
    obtain ⟨rfl, hfound⟩ := Prod.mk.inj h
    by_cases hsame : path = other
    · subst hsame
      -- what a settled file has in the index can be read back, as the scan got past it
      have hfree (files : List String) : ¬ i.Blocks env files path := by
        rintro (hknown | ⟨-, hstores⟩)
        · rw [hknown] at hfound
          cases hfound
        · exact not_storesDeep_of_settled hsettled hstores
      simp [hfree]
    · rw [blocks_cons_of_ne hsame]
      simp [Ne.symm hsame]
  · rw [he] at h
    obtain ⟨rfl, -⟩ := Prod.mk.inj h
    by_cases hsame : path = other
    · subst hsame
      by_cases hmem : path ∈ rest
      · simp [hmem, blocks_store_self hmem hstamp hnone hreport]
      · have hfree : ¬ i.Blocks env (path :: rest) path := by
          rintro (hknown | ⟨hcount, -⟩)
          · cases hnone.symm.trans ((known_of_stamp hstamp).symm.trans hknown)
          · simp [List.count_eq_zero_of_not_mem hmem] at hcount
        simp [hmem, hfree]
    · rw [blocks_cons_of_ne hsame, Blocks, Blocks, known_store_of_ne hsame,
        storesDeep_store_of_ne hsame]
      simp [Ne.symm hsame]

lemma blocks_of_scanFile (htext : env.files.Textual)
    (h : (scanFile env hide path i).2 = .error e) (files : List String) :
    e = .corruptEntry path ∧ i.Blocks env files path := by
  rcases scanFile_cases htext hide path i with hsettled | ⟨stamp, report, -, -, -, he⟩
  · rw [scanFile_of_settled htext hsettled] at h
    cases hknown : i.known env path with
    | error e' =>
      rw [hknown] at h
      cases h
      obtain rfl := eq_corruptEntry_of_known hknown
      exact ⟨rfl, .inl hknown⟩
    | ok found =>
      rw [hknown] at h
      cases h
  · rw [he] at h
    cases h

lemma blocks_of_scanEach (htext : env.files.Textual)
    (h : (scanEach env hide files i).2 = .error e) :
    ∃ path ∈ files, e = .corruptEntry path ∧ i.Blocks env files path := by
  induction files generalizing i with
  | nil => cases h
  | cons path rest ih =>
    rw [scanEach] at h
    split at h
    · rename_i hfirst
      cases h
      obtain ⟨rfl, hblocks⟩ := blocks_of_scanFile htext (congrArg Prod.snd hfirst) (path :: rest)
      exact ⟨path, List.mem_cons_self, rfl, hblocks⟩
    · rename_i hfirst
      split at h
      · rename_i hrest
        cases h
        obtain ⟨other, hother, rfl, hblocks⟩ := ih (congrArg Prod.snd hrest)
        obtain ⟨hmem, hblocks⟩ := (blocks_scanFile htext hfirst).mpr ⟨hother, hblocks⟩
        exact ⟨other, hmem, rfl, hblocks⟩
      · cases h

lemma exists_error_of_blocks (htext : env.files.Textual) (hpath : path ∈ files)
    (h : i.Blocks env files path) : ∃ e, (scanEach env hide files i).2 = .error e := by
  induction files generalizing i with
  | nil => cases hpath
  | cons first rest ih =>
    rw [scanEach]
    split
    · exact ⟨_, rfl⟩
    · rename_i hfirst
      obtain ⟨hmem, hblocks⟩ := (blocks_scanFile htext hfirst).mp ⟨hpath, h⟩
      obtain ⟨e, he⟩ := ih hmem hblocks
      split
      · exact ⟨_, rfl⟩
      · rename_i hrest
        cases (congrArg Prod.snd hrest).symm.trans he

lemma meetsDeep_iff_blocks (hi : i.AllRows IndexRow.HoldsReport) :
    env.MeetsDeep files i path ↔ i.Blocks env files path := by
  rw [Env.MeetsDeep, Blocks, known_eq_error_iff hi]

end Index

lemma scanFiles_eq_error_iff (hmeta : ∃ m, i.loadMeta env.now = .ok m) :
    (scanFiles env hide files i).2 = .error e ↔ (scanEach env hide files i).2 = .error e := by
  have hentries : (scanEach env hide files i).1.entries = i.entries := entries_scanEach
  rw [scanFiles]
  split
  · rename_i heq
    simp [heq]
  · rename_i heq
    rw [heq] at hentries ⊢
    obtain ⟨m, hm⟩ := hmeta
    rw [Index.loadMeta_congr hentries, hm]
    simp

lemma scanFiles_fails_iff (htext : env.files.Textual) (hi : i.AllRows IndexRow.HoldsReport)
    (hmeta : ∃ m, i.loadMeta env.now = .ok m) :
    ((∃ result, (scanFiles env hide files i).2 = .ok result) ↔
      ∀ path ∈ files, ¬ env.MeetsDeep files i path) ∧
    ∀ e, (scanFiles env hide files i).2 = .error e →
      ∃ path ∈ files, e = .corruptEntry path ∧ env.MeetsDeep files i path := by
  have hfails (e : Failure) (h : (scanFiles env hide files i).2 = .error e) :
      ∃ path ∈ files, e = .corruptEntry path ∧ env.MeetsDeep files i path := by
    obtain ⟨path, hpath, he, hblocks⟩ :=
      Index.blocks_of_scanEach htext ((scanFiles_eq_error_iff hmeta).mp h)
    exact ⟨path, hpath, he, (Index.meetsDeep_iff_blocks hi).mpr hblocks⟩
  refine ⟨⟨?_, fun h => ?_⟩, hfails⟩
  · rintro ⟨result, hresult⟩ path hpath hdeep
    obtain ⟨e, he⟩ :=
      Index.exists_error_of_blocks htext hpath ((Index.meetsDeep_iff_blocks hi).mp hdeep)
    cases hresult.symm.trans ((scanFiles_eq_error_iff hmeta).mpr he)
  · cases hscan : (scanFiles env hide files i).2 with
    | ok result => exact ⟨result, rfl⟩
    | error e =>
      obtain ⟨path, hpath, -, hdeep⟩ := hfails e hscan
      exact absurd hdeep (h path hpath)

def nestedLambdas : Nat → Source.Node
  | 0 => .mk { kind := "lambda_literal", start := 10, stop := 10 } []
  | n + 1 => .mk { kind := "lambda_literal", start := 10, stop := 10 }
    [.mk { kind := "call_expression", start := 10, stop := 10 }
      [.mk { kind := "string_literal", start := 10, stop := 10 } [], nestedLambdas n]]

def nestedTests (n : Nat) : Source.Node :=
  let node kind := Source.Node.mk { kind, start := 0, stop := 10 }
  node "source_file" [node "class_declaration" [node "delegation_specifier"
    [node "constructor_invocation" [node "user_type" [],
      node "value_arguments" [node "value_argument" [nestedLambdas n]]]]]]

lemma depth_nestedTests :
    (FileReport.ofFile "A.kt" ⟨"StringSpec", nestedTests 62⟩ {}).toJson.depth = 128 := by
  decide +kernel

end SpecAtlas
