import SpecAtlas.Proofs.Report.Codec

/-! The JSON of the interface. Configurations, requests and results are records, some of whose
fields are left out if there is nothing to write. Each of them is read back as it was written. -/

namespace SpecAtlas

open Json Source

namespace Json

variable {names : List String} {values : List (Option Value)} {n : Nat}

def record (names : List String) (values : List (Option Value)) : List (String × Value) :=
  (names.zip values).flatMap fun f => optionalField f.1 f.2

def Slot.ofField (value : Option Value) : Slot := value.elim .absent .given

def fieldDepth (value : Option Value) : Nat := value.elim 0 Value.depth

lemma fieldDepth_some (v : Value) : fieldDepth (some v) = v.depth := rfl

lemma record_cons (name : String) (value : Option Value) :
    record (name :: names) (value :: values) = optionalField name value ++
      record names values := rfl

lemma fst_mem_of_mem_record {f : String × Value} (h : f ∈ record names values) : f.1 ∈ names := by
  obtain ⟨⟨name, value⟩, hmem, hf⟩ := List.mem_flatMap.mp h
  obtain ⟨v, -, rfl⟩ := List.mem_map.mp hf
  exact (List.of_mem_zip hmem).1

lemma fst_of_mem_optionalField {name : String} {value : Option Value} {f : String × Value}
    (h : f ∈ optionalField name value) : f.1 = name := by
  obtain ⟨v, -, rfl⟩ := List.mem_map.mp h
  rfl

lemma filter_fst_eq_nil {fields : List (String × Value)} {name : String}
    (h : ∀ f ∈ fields, f.1 ≠ name) : fields.filter (·.1 == name) = [] :=
  List.filter_eq_nil_iff.mpr fun f hf he => h f hf (beq_iff_eq.mp he)

lemma fieldSlot?_optionalField {name : String} {before after : List (String × Value)}
    (hbefore : ∀ f ∈ before, f.1 ≠ name) (hafter : ∀ f ∈ after, f.1 ≠ name)
    (value : Option Value) :
    fieldSlot? (before ++ (optionalField name value ++ after)) name = some (.ofField value) := by
  rw [fieldSlot?, List.filter_append, List.filter_append, filter_fst_eq_nil hbefore,
    filter_fst_eq_nil hafter]
  cases value <;> simp [optionalField, Slot.ofField]

lemma mapM_fieldSlot?_record (before : List (String × Value)) (hbefore : ∀ f ∈ before, f.1 ∉ names)
    (hnodup : names.Nodup) (hlength : names.length = values.length) :
    names.mapM (fieldSlot? (before ++ record names values)) = some (values.map .ofField) := by
  induction names generalizing values before with
  | nil =>
    obtain rfl : values = [] := List.length_eq_zero_iff.mp hlength.symm
    rfl
  | cons name names ih =>
    cases values with
    | nil => simp at hlength
    | cons value values =>
      obtain ⟨hname, hnodup⟩ := List.nodup_cons.mp hnodup
      have hhead : fieldSlot? (before ++ record (name :: names) (value :: values)) name
          = some (.ofField value) := by
        refine fieldSlot?_optionalField (fun f hf he => hbefore f hf ?_) (fun f hf he => hname ?_)
          value
        · exact he ▸ List.mem_cons_self
        · exact (show f.1 = name from he) ▸ fst_mem_of_mem_record hf
      have htail : names.mapM (fieldSlot? (before ++ record (name :: names) (value :: values)))
          = some (values.map .ofField) := by
        rw [record_cons, ← List.append_assoc]
        refine ih _ (fun f hf => ?_) hnodup (by simpa using hlength)
        rcases List.mem_append.mp hf with hf | hf
        · exact fun hmem => hbefore f hf (List.mem_cons_of_mem name hmem)
        · exact fst_of_mem_optionalField hf ▸ hname
      rw [List.mapM_cons, hhead, htail]
      rfl

lemma slots?_record (hnodup : names.Nodup) (hlength : names.length = values.length) :
    slots? names (.object (record names values)) = some (values.map .ofField) :=
  mapM_fieldSlot?_record [] (by simp) hnodup hlength

lemma plainFields_record (h : ∀ v ∈ values, v.elim True Value.Plain) :
    Value.PlainFields (record names values) := by
  induction names generalizing values with
  | nil => trivial
  | cons name names ih =>
    cases values with
    | nil => trivial
    | cons value values =>
      obtain ⟨hvalue, hvalues⟩ := List.forall_mem_cons.mp h
      cases value with
      | none => exact ih hvalues
      | some v => exact ⟨hvalue, ih hvalues⟩

lemma depthFields_record_le (hlength : names.length = values.length) :
    Value.depthFields (record names values) ≤ n ↔ ∀ v ∈ values, fieldDepth v ≤ n := by
  induction names generalizing values with
  | nil =>
    obtain rfl : values = [] := List.length_eq_zero_iff.mp hlength.symm
    simp [record, Value.depthFields]
  | cons name names ih =>
    cases values with
    | nil => simp at hlength
    | cons value values =>
      rw [List.forall_mem_cons, ← ih (by simpa using hlength)]
      cases value with
      | none => simp [record_cons, optionalField, fieldDepth]
      | some v => exact Nat.max_le

lemma Slot.withDefault_given {α : Type} (d : Decoder α) (default : α) (v : Value) :
    (given v).withDefault d default n = d n v := rfl

namespace Decoder

lemma string_inverts : string.Inverts .string where
  plain _ := trivial
  decode _ _ := rfl

lemma uint64_inverts : uint64.Inverts fun x => natJson x.toNat where
  plain _ := trivial
  decode n x := by
    simp [uint64, natJson, below, Value.depth, x.toNat_lt]

lemma strings_inverts : (list string).Inverts stringsJson := string_inverts.list

variable {α : Type} {d : Decoder α} {encode : α → Value}

lemma optional_of_ne_null {v : Value} (h : v ≠ .null) : optional d n v = (d n v).map some := by
  cases v <;> first | rfl | exact absurd rfl h

lemma Inverts.plain_map (h : d.Inverts encode) (x : Option α) :
    (x.map encode).elim True Value.Plain := by
  cases x with
  | none => trivial
  | some a => exact h.plain a

lemma Inverts.nullable (h : d.Inverts encode) (n : Nat) (hnull : ∀ a, encode a ≠ .null)
    (x : Option α) :
    (Slot.ofField (x.map encode)).nullable d n
      = if fieldDepth (x.map encode) ≤ n then some x else none := by
  cases x with
  | none => rfl
  | some a =>
    have hread : optional d n (encode a)
        = if (encode a).depth ≤ n then some (some a) else none := by
      rw [optional_of_ne_null (hnull a), h.decode]
      split_ifs <;> rfl
    exact hread

lemma nullable_string (x : Option String) :
    (Slot.ofField (x.map .string)).nullable string n = some x := by
  cases x <;> rfl

lemma fieldDepth_map_string (x : Option String) : fieldDepth (x.map .string) = 0 := by
  cases x <;> rfl

lemma withDefault_optional_eq_nullable (x : Option Value) :
    (Slot.ofField x).withDefault (optional d) none n = (Slot.ofField x).nullable d n := by
  cases x <;> rfl

end Decoder

end Json

open Decoder

lemma ScanSummary.decoder_inverts : decoder.Inverts toJson where
  plain s := by simp [toJson, Value.Plain, Value.PlainFields, natJson]
  decode n s := by
    cases n with
    | zero => rfl
    | succ n =>
      have hslots : slots? ["files_scanned", "specs", "tests", "disabled_tests", "cached_files"]
          s.toJson
          = some [.given (natJson s.filesScanned.toNat), .given (natJson s.specs.toNat),
            .given (natJson s.tests.toNat), .given (natJson s.disabledTests.toNat),
            .given (natJson s.cachedFiles.toNat)] := rfl
      have huint (x : UInt64) : uint64 n (natJson x.toNat) = some x := uint64_inverts.decode n x
      have hdepth : s.toJson.depth = 1 := rfl
      simp [decoder, hslots, Slot.required, Slot.withDefault, huint, hdepth]

lemma ScanResult.decoder_inverts : decoder.Inverts toJson where
  plain r := ⟨trivial, FileReport.decoder_inverts.list.plain r.files,
    ScanSummary.decoder_inverts.plain r.summary, trivial⟩
  decode n r := by
    cases n with
    | zero => rfl
    | succ n =>
      have hslots : slots? ["version", "files", "summary"] r.toJson
          = some [.given (.string r.version), .given (.array (r.files.map FileReport.toJson)),
            .given r.summary.toJson] := rfl
      have hfiles := FileReport.decoder_inverts.list.decode n r.files
      have hsummary := ScanSummary.decoder_inverts.decode n r.summary
      have hdepth : r.toJson.depth ≤ n + 1
          ↔ (Value.array (r.files.map FileReport.toJson)).depth ≤ n ∧
          r.summary.toJson.depth ≤ n := by
        simp only [toJson, Value.depth, Value.depthFields]
        omega
      simp [decoder, hslots, Slot.required, Slot.withDefault, Decoder.string, hfiles, hsummary,
        bind_guarded, hdepth, ite_and]

lemma TestAtRequest.decoder_inverts : decoder.Inverts toJson where
  plain r := by simp [toJson, Value.Plain, Value.PlainFields, natJson]
  decode n r := by
    cases n with
    | zero => rfl
    | succ n =>
      have hslots : slots? ["path", "line", "column", "leaf"] r.toJson
          = some [.given (.string r.path), .given (natJson r.line.toNat),
            .given (natJson r.column.toNat), .given (.bool r.leaf)] := rfl
      have huint (x : UInt32) : uint32 n (natJson x.toNat) = some x := uint32_inverts.decode n x
      have hdepth : r.toJson.depth = 1 := rfl
      simp [decoder, hslots, Slot.required, Slot.withDefault, Decoder.string, Decoder.bool, huint,
        hdepth]

lemma TestReport.toJson_ne_null (t : TestReport) : t.toJson ≠ .null := by
  cases t
  simp [toJson]

namespace TestAtResult

lemma toJson_eq_record (r : TestAtResult) :
    r.toJson = .object (record ["path", "spec", "style", "test"]
      [some (.string r.path), r.spec.map .string, r.style.map .string,
        r.test.map TestReport.toJson]) := by
  simp [toJson, record, optionalField]

lemma decoder_inverts : decoder.Inverts toJson where
  plain r := by
    rw [toJson_eq_record]
    refine plainFields_record ?_
    simp only [List.forall_mem_cons]
    exact ⟨trivial, string_inverts.plain_map r.spec, string_inverts.plain_map r.style,
      TestReport.decoder_inverts.plain_map r.test, by simp⟩
  decode n r := by
    cases n with
    | zero => rfl
    | succ n =>
      have hslots : slots? ["path", "spec", "style", "test"] r.toJson
          = some [.given (.string r.path), .ofField (r.spec.map .string),
            .ofField (r.style.map .string), .ofField (r.test.map TestReport.toJson)] := by
        rw [toJson_eq_record, slots?_record (by decide) rfl]
        rfl
      have hdepth : r.toJson.depth ≤ n + 1
          ↔ fieldDepth (r.test.map TestReport.toJson) ≤ n := by
        rw [toJson_eq_record, Value.depth, Nat.add_le_add_iff_right, depthFields_record_le rfl]
        simp [fieldDepth_map_string, fieldDepth_some, Value.depth]
      have htest := TestReport.decoder_inverts.nullable n TestReport.toJson_ne_null r.test
      simp [decoder, hslots, Slot.required, Decoder.string, nullable_string, htest, bind_guarded,
        hdepth]

end TestAtResult

lemma depth_stringsJson (texts : List String) : (stringsJson texts).depth = 1 := by
  have hall : Value.depthAll (texts.map .string) = 0 := by
    induction texts with
    | nil => rfl
    | cons text texts ih => simp [Value.depthAll, Value.depth, ih]
  rw [stringsJson, Value.depth, hall]

lemma list_stringsJson (n : Nat) (texts : List String) :
    list Decoder.string n (stringsJson texts) = if 1 ≤ n then some texts else none := by
  rw [strings_inverts.decode, depth_stringsJson]

lemma LaunchCommand.decoder_inverts : decoder.Inverts toJson where
  plain c := ⟨trivial, strings_inverts.plain c.args, trivial⟩
  decode n c := by
    cases n with
    | zero => rfl
    | succ n =>
      have hslots : slots? ["main_class", "args"] c.toJson
          = some [.given (.string c.mainClass), .given (stringsJson c.args)] := rfl
      have hargs := strings_inverts.decode n c.args
      have hdepth : c.toJson.depth = (stringsJson c.args).depth + 1 := by
        simp [toJson, Value.depth, Value.depthFields]
      simp [decoder, hslots, Slot.required, Decoder.string, hargs, bind_guarded, hdepth]

namespace IndexConfig

lemma toJson_depth (c : IndexConfig) : c.toJson.depth = 2 := by
  simp [toJson, Value.depth, Value.depthFields, depth_stringsJson]

lemma decoder_inverts : decoder.Inverts toJson where
  plain c := ⟨strings_inverts.plain c.paths, strings_inverts.plain c.globs,
    strings_inverts.plain c.excludeGlobs, trivial, trivial⟩
  decode n c := by
    cases n with
    | zero => rfl
    | succ n =>
      have hslots : slots? ["paths", "globs", "exclude_globs", "index_path"] c.toJson
          = some [.given (stringsJson c.paths), .given (stringsJson c.globs),
            .given (stringsJson c.excludeGlobs), .given (.string c.indexPath)] := rfl
      simp only [decoder, hslots, Slot.required, Slot.withDefault, Decoder.string, list_stringsJson,
        toJson_depth, Option.bind_eq_bind, Option.bind_some, bind_guarded]
      split_ifs <;> first | rfl | omega

end IndexConfig

namespace ScanConfig

lemma toJson_eq_record (c : ScanConfig) :
    c.toJson = .object (record
      ["paths", "globs", "exclude_globs", "hide_callbacks", "hide_includes", "index"]
      [some (stringsJson c.paths), some (stringsJson c.globs), some (stringsJson c.excludeGlobs),
        some (.bool c.hideCallbacks), some (.bool c.hideIncludes),
        c.index.map IndexConfig.toJson]) := by
  simp [toJson, record, optionalField]

lemma toJson_depth_le {c : ScanConfig} {n : Nat} :
    c.toJson.depth ≤ n + 1 ↔ 1 ≤ n ∧ fieldDepth (c.index.map IndexConfig.toJson) ≤ n := by
  rw [toJson_eq_record, Value.depth, Nat.add_le_add_iff_right, depthFields_record_le rfl]
  simp [fieldDepth_some, depth_stringsJson, Value.depth]

lemma decoder_inverts : decoder.Inverts toJson where
  plain c := by
    rw [toJson_eq_record]
    refine plainFields_record ?_
    simp only [List.forall_mem_cons]
    exact ⟨strings_inverts.plain c.paths, strings_inverts.plain c.globs,
      strings_inverts.plain c.excludeGlobs, trivial, trivial,
      IndexConfig.decoder_inverts.plain_map c.index, by simp⟩
  decode n c := by
    cases n with
    | zero => rfl
    | succ n =>
      have hslots : slots? ["paths", "globs", "exclude_globs", "hide_callbacks", "hide_includes",
          "index"] c.toJson
          = some [.given (stringsJson c.paths), .given (stringsJson c.globs),
            .given (stringsJson c.excludeGlobs), .given (.bool c.hideCallbacks),
            .given (.bool c.hideIncludes), .ofField (c.index.map IndexConfig.toJson)] := by
        rw [toJson_eq_record, slots?_record (by decide) rfl]
        rfl
      have hindex := IndexConfig.decoder_inverts.nullable n (by simp [IndexConfig.toJson]) c.index
      simp only [decoder, hslots, Slot.required, Slot.withDefault_given, Decoder.bool,
        list_stringsJson, withDefault_optional_eq_nullable, hindex, toJson_depth_le,
        Option.bind_eq_bind, Option.bind_some, bind_guarded]
      split_ifs <;> first | rfl | omega

end ScanConfig

namespace IndexSummary

lemma toJson_eq_record (s : IndexSummary) :
    s.toJson = .object (record ["index_path", "files_indexed", "specs_indexed", "tests_indexed",
        "root_path", "schema_version", "tool_version", "created_at", "updated_at"]
      [some (.string s.indexPath), some (natJson s.filesIndexed.toNat),
        some (natJson s.specsIndexed.toNat), some (natJson s.testsIndexed.toNat),
        s.rootPath.map .string, s.schemaVersion.map .string, s.toolVersion.map .string,
        s.createdAt.map .string, s.updatedAt.map .string]) := by
  simp [toJson, record, optionalField]

lemma toJson_depth (s : IndexSummary) : s.toJson.depth = 1 := by
  have hfields : s.toJson.depth ≤ 0 + 1 := by
    rw [toJson_eq_record, Value.depth, Nat.add_le_add_iff_right, depthFields_record_le rfl]
    simp [fieldDepth_some, fieldDepth_map_string, natJson, Value.depth]
  rw [toJson_eq_record, Value.depth] at *
  omega

lemma decoder_inverts : decoder.Inverts toJson where
  plain s := by
    rw [toJson_eq_record]
    refine plainFields_record ?_
    simp only [List.forall_mem_cons]
    exact ⟨trivial, trivial, trivial, trivial, string_inverts.plain_map s.rootPath,
      string_inverts.plain_map s.schemaVersion, string_inverts.plain_map s.toolVersion,
      string_inverts.plain_map s.createdAt, string_inverts.plain_map s.updatedAt, by simp⟩
  decode n s := by
    cases n with
    | zero => rfl
    | succ n =>
      have hslots : slots? ["index_path", "files_indexed", "specs_indexed", "tests_indexed",
          "root_path", "schema_version", "tool_version", "created_at", "updated_at"] s.toJson
          = some [.given (.string s.indexPath), .given (natJson s.filesIndexed.toNat),
            .given (natJson s.specsIndexed.toNat), .given (natJson s.testsIndexed.toNat),
            .ofField (s.rootPath.map .string), .ofField (s.schemaVersion.map .string),
            .ofField (s.toolVersion.map .string), .ofField (s.createdAt.map .string),
            .ofField (s.updatedAt.map .string)] := by
        rw [toJson_eq_record, slots?_record (by decide) rfl]
        rfl
      have huint (x : UInt64) : uint64 n (natJson x.toNat) = some x := uint64_inverts.decode n x
      simp [decoder, hslots, Slot.required, Decoder.string, nullable_string, huint, toJson_depth]

end IndexSummary

/-- From its text the decoder gives back what was encoded, and nothing only if it is nested deeper
than texts are read. -/
def Json.Decoder.Restores {α : Type} (d : Decoder α) (encode : α → Value) : Prop :=
  ∀ a, d.ofText (encode a).render = if (encode a).depth ≤ maxDepth then some a else none

lemma Json.Decoder.Inverts.restores {α : Type} {d : Decoder α} {encode : α → Value}
    (h : d.Inverts encode) : d.Restores encode := h.ofText_render

/-- All that the interface writes as JSON is read back as it was. -/
theorem decoding_undoes_encoding :
    TextRange.decoder.Restores TextRange.toJson
    ∧ TestReport.decoder.Restores TestReport.toJson
    ∧ SpecReport.decoder.Restores SpecReport.toJson
    ∧ FileReport.decoder.Restores FileReport.toJson
    ∧ ScanSummary.decoder.Restores ScanSummary.toJson
    ∧ ScanResult.decoder.Restores ScanResult.toJson
    ∧ ScanConfig.decoder.Restores ScanConfig.toJson
    ∧ TestAtRequest.decoder.Restores TestAtRequest.toJson
    ∧ TestAtResult.decoder.Restores TestAtResult.toJson
    ∧ IndexConfig.decoder.Restores IndexConfig.toJson
    ∧ IndexSummary.decoder.Restores IndexSummary.toJson
    ∧ LaunchCommand.decoder.Restores LaunchCommand.toJson :=
  ⟨TextRange.decoder_inverts.restores, TestReport.decoder_inverts.restores,
    SpecReport.decoder_inverts.restores, FileReport.decoder_inverts.restores,
    ScanSummary.decoder_inverts.restores, ScanResult.decoder_inverts.restores,
    ScanConfig.decoder_inverts.restores, TestAtRequest.decoder_inverts.restores,
    TestAtResult.decoder_inverts.restores, IndexConfig.decoder_inverts.restores,
    IndexSummary.decoder_inverts.restores, LaunchCommand.decoder_inverts.restores⟩

end SpecAtlas
