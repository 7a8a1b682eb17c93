import SpecAtlas.Json.Decoder
import SpecAtlas.Report.Basic

/-!
Reports and requests as JSON. Fields are written in the order in which they are declared; an absent
package, position answer or index description and an empty list of children are left out.
-/

namespace SpecAtlas

open Json Source

def optionalField (name : String) (value : Option Value) : List (String × Value) :=
  value.toList.map ((name, ·))

def stringsJson (texts : List String) : Value := .array (texts.map .string)

def natJson (n : Nat) : Value := .int n

namespace Source.TextRange

def toJson (r : TextRange) : Value :=
  .object
    [("start_line", natJson r.startLine.toNat), ("start_column", natJson r.startColumn.toNat),
      ("end_line", natJson r.endLine.toNat), ("end_column", natJson r.endColumn.toNat)]

def decoder : Decoder TextRange
  | n + 1, v => do
    let [a, b, c, d] ← slots? ["start_line", "start_column", "end_line", "end_column"] v | none
    return {
      startLine := ← a.required .uint32 n
      startColumn := ← b.required .uint32 n
      endLine := ← c.required .uint32 n
      endColumn := ← d.required .uint32 n }
  | 0, _ => none

end Source.TextRange

namespace CallbackKind

def toJson (k : CallbackKind) : Value := .string k.keyword

def decoder : Decoder CallbackKind := .choice ofKeyword?

end CallbackKind

namespace IncludeKind

def toJson (k : IncludeKind) : Value := .string k.name

def decoder : Decoder IncludeKind := .choice ofName?

end IncludeKind

namespace TestReport

mutual

def toJson : TestReport → Value
  | ⟨name, path, enabled, unique, range, children⟩ =>
    .object
      ([("name", .string name), ("path", .string path), ("enabled", .bool enabled),
        ("unique", .bool unique), ("range", range.toJson)]
        ++ if children.isEmpty then [] else [("children", .array (toJsonAll children))])

def toJsonAll : List TestReport → List Value
  | [] => []
  | t :: ts => t.toJson :: toJsonAll ts

end

/-- Reads a tree of tests; each level of tests takes two levels of nesting. -/
def decoder : Decoder TestReport
  | 0, _ => none
  | n + 1, v => do
    let [name, path, enabled, unique, range, children] ←
      slots? ["name", "path", "enabled", "unique", "range", "children"] v | none
    let children ← match children with
      | .given (.array items) =>
        match n with
        | m + 1 => items.mapM (decoder m)
        | 0 => none
      | .given _ => none
      | .absent | .short => some []
    return {
      name := ← name.required .string n
      path := ← path.required .string n
      enabled := ← enabled.required .bool n
      unique := ← unique.required .bool n
      range := ← range.required TextRange.decoder n
      children }

end TestReport

namespace CallbackReport

def toJson (c : CallbackReport) : Value :=
  .object [("kind", c.kind.toJson), ("range", c.range.toJson)]

def decoder : Decoder CallbackReport
  | n + 1, v => do
    let [kind, range] ← slots? ["kind", "range"] v | none
    return {
      kind := ← kind.required CallbackKind.decoder n
      range := ← range.required TextRange.decoder n }
  | 0, _ => none

end CallbackReport

namespace IncludeReport

def toJson (i : IncludeReport) : Value :=
  .object [("name", .string i.name), ("kind", i.kind.toJson), ("range", i.range.toJson)]

def decoder : Decoder IncludeReport
  | n + 1, v => do
    let [name, kind, range] ← slots? ["name", "kind", "range"] v | none
    return {
      name := ← name.required .string n
      kind := ← kind.required IncludeKind.decoder n
      range := ← range.required TextRange.decoder n }
  | 0, _ => none

end IncludeReport

namespace SpecReport

def toJson (s : SpecReport) : Value :=
  .object
    [("name", .string s.name), ("fqn", .string s.fqn), ("style", .string s.style),
      ("style_label", .string s.styleLabel), ("range", s.range.toJson),
      ("tests", .array (s.tests.map TestReport.toJson)),
      ("callbacks", .array (s.callbacks.map CallbackReport.toJson)),
      ("includes", .array (s.includes.map IncludeReport.toJson))]

def decoder : Decoder SpecReport
  | n + 1, v => do
    let [name, fqn, style, styleLabel, range, tests, callbacks, includes] ←
      slots? ["name", "fqn", "style", "style_label", "range", "tests", "callbacks", "includes"] v
      | none
    return {
      name := ← name.required .string n
      fqn := ← fqn.required .string n
      style := ← style.required .string n
      styleLabel := ← styleLabel.required .string n
      range := ← range.required TextRange.decoder n
      tests := ← tests.withDefault (.list TestReport.decoder) [] n
      callbacks := ← callbacks.withDefault (.list CallbackReport.decoder) [] n
      includes := ← includes.withDefault (.list IncludeReport.decoder) [] n }
  | 0, _ => none

end SpecReport

namespace FileReport

def toJson (r : FileReport) : Value :=
  .object
    ([("path", .string r.path)] ++ optionalField "package" (r.package.map .string)
      ++ [("has_errors", .bool r.hasErrors), ("specs", .array (r.specs.map SpecReport.toJson))])

def decoder : Decoder FileReport
  | n + 1, v => do
    let [path, package, hasErrors, specs] ← slots? ["path", "package", "has_errors", "specs"] v
      | none
    return {
      path := ← path.required .string n
      package := ← package.nullable .string n
      hasErrors := ← hasErrors.withDefault .bool false n
      specs := ← specs.withDefault (.list SpecReport.decoder) [] n }
  | 0, _ => none

end FileReport

namespace ScanSummary

def toJson (s : ScanSummary) : Value :=
  .object
    [("files_scanned", natJson s.filesScanned.toNat), ("specs", natJson s.specs.toNat),
      ("tests", natJson s.tests.toNat), ("disabled_tests", natJson s.disabledTests.toNat),
      ("cached_files", natJson s.cachedFiles.toNat)]

def decoder : Decoder ScanSummary
  | n + 1, v => do
    let [filesScanned, specs, tests, disabledTests, cachedFiles] ←
      slots? ["files_scanned", "specs", "tests", "disabled_tests", "cached_files"] v | none
    return {
      filesScanned := ← filesScanned.required .uint64 n
      specs := ← specs.required .uint64 n
      tests := ← tests.required .uint64 n
      disabledTests := ← disabledTests.required .uint64 n
      cachedFiles := ← cachedFiles.withDefault .uint64 0 n }
  | 0, _ => none

end ScanSummary

namespace ScanResult

def toJson (r : ScanResult) : Value :=
  .object
    [("version", .string r.version), ("files", .array (r.files.map FileReport.toJson)),
      ("summary", r.summary.toJson)]

def decoder : Decoder ScanResult
  | n + 1, v => do
    let [version, files, summary] ← slots? ["version", "files", "summary"] v | none
    return {
      version := ← version.required .string n
      files := ← files.withDefault (.list FileReport.decoder) [] n
      summary := ← summary.required ScanSummary.decoder n }
  | 0, _ => none

end ScanResult

namespace TestAtRequest

def toJson (r : TestAtRequest) : Value :=
  .object
    [("path", .string r.path), ("line", natJson r.line.toNat), ("column", natJson r.column.toNat),
      ("leaf", .bool r.leaf)]

def decoder : Decoder TestAtRequest
  | n + 1, v => do
    let [path, line, column, leaf] ← slots? ["path", "line", "column", "leaf"] v | none
    return {
      path := ← path.required .string n
      line := ← line.required .uint32 n
      column := ← column.required .uint32 n
      leaf := ← leaf.withDefault .bool false n }
  | 0, _ => none

end TestAtRequest

namespace TestAtResult

def toJson (r : TestAtResult) : Value :=
  .object
    ([("path", .string r.path)] ++ optionalField "spec" (r.spec.map .string)
      ++ optionalField "style" (r.style.map .string)
      ++ optionalField "test" (r.test.map TestReport.toJson))

def decoder : Decoder TestAtResult
  | n + 1, v => do
    let [path, spec, style, test] ← slots? ["path", "spec", "style", "test"] v | none
    return {
      path := ← path.required .string n
      spec := ← spec.nullable .string n
      style := ← style.nullable .string n
      test := ← test.nullable TestReport.decoder n }
  | 0, _ => none

end TestAtResult

def StyleInfo.toJson (s : StyleInfo) : Value :=
  .object
    [("id", .string s.id), ("fqn", .string s.fqn), ("label", .string s.label),
      ("keywords", stringsJson s.keywords), ("template", .string s.template)]

namespace LaunchCommand

def toJson (c : LaunchCommand) : Value :=
  .object [("main_class", .string c.mainClass), ("args", stringsJson c.args)]

def decoder : Decoder LaunchCommand
  | n + 1, v => do
    let [mainClass, args] ← slots? ["main_class", "args"] v | none
    return {
      mainClass := ← mainClass.required .string n
      args := ← args.required (.list .string) n }
  | 0, _ => none

end LaunchCommand

namespace IndexConfig

def toJson (c : IndexConfig) : Value :=
  .object
    [("paths", stringsJson c.paths), ("globs", stringsJson c.globs),
      ("exclude_globs", stringsJson c.excludeGlobs), ("index_path", .string c.indexPath)]

def decoder : Decoder IndexConfig
  | n + 1, v => do
    let [paths, globs, excludeGlobs, indexPath] ←
      slots? ["paths", "globs", "exclude_globs", "index_path"] v | none
    return {
      paths := ← paths.required (.list .string) n
      globs := ← globs.withDefault (.list .string) [] n
      excludeGlobs := ← excludeGlobs.withDefault (.list .string) [] n
      indexPath := ← indexPath.required .string n }
  | 0, _ => none

end IndexConfig

namespace ScanConfig

def toJson (c : ScanConfig) : Value :=
  .object
    ([("paths", stringsJson c.paths), ("globs", stringsJson c.globs),
      ("exclude_globs", stringsJson c.excludeGlobs), ("hide_callbacks", .bool c.hideCallbacks),
      ("hide_includes", .bool c.hideIncludes)]
      ++ optionalField "index" (c.index.map IndexConfig.toJson))

def decoder : Decoder ScanConfig
  | n + 1, v => do
    let [paths, globs, excludeGlobs, hideCallbacks, hideIncludes, index] ←
      slots? ["paths", "globs", "exclude_globs", "hide_callbacks", "hide_includes", "index"] v
      | none
    return {
      paths := ← paths.required (.list .string) n
      globs := ← globs.withDefault (.list .string) [] n
      excludeGlobs := ← excludeGlobs.withDefault (.list .string) [] n
      hideCallbacks := ← hideCallbacks.withDefault .bool false n
      hideIncludes := ← hideIncludes.withDefault .bool false n
      index := ← index.withDefault (.optional IndexConfig.decoder) none n }
  | 0, _ => none

end ScanConfig

namespace IndexSummary

def toJson (s : IndexSummary) : Value :=
  .object
    ([("index_path", .string s.indexPath), ("files_indexed", natJson s.filesIndexed.toNat),
      ("specs_indexed", natJson s.specsIndexed.toNat),
      ("tests_indexed", natJson s.testsIndexed.toNat)]
      ++ optionalField "root_path" (s.rootPath.map .string)
      ++ optionalField "schema_version" (s.schemaVersion.map .string)
      ++ optionalField "tool_version" (s.toolVersion.map .string)
      ++ optionalField "created_at" (s.createdAt.map .string)
      ++ optionalField "updated_at" (s.updatedAt.map .string))

def decoder : Decoder IndexSummary
  | n + 1, v => do
    let [indexPath, files, specs, tests, rootPath, schemaVersion, toolVersion, createdAt,
        updatedAt] ←
      slots? ["index_path", "files_indexed", "specs_indexed", "tests_indexed", "root_path",
        "schema_version", "tool_version", "created_at", "updated_at"] v | none
    return {
      indexPath := ← indexPath.required .string n
      filesIndexed := ← files.required .uint64 n
      specsIndexed := ← specs.required .uint64 n
      testsIndexed := ← tests.required .uint64 n
      rootPath := ← rootPath.nullable .string n
      schemaVersion := ← schemaVersion.nullable .string n
      toolVersion := ← toolVersion.nullable .string n
      createdAt := ← createdAt.nullable .string n
      updatedAt := ← updatedAt.nullable .string n }
  | 0, _ => none

end IndexSummary

end SpecAtlas
