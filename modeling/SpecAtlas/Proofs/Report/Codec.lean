import SpecAtlas.Proofs.Json.RoundTrip
import SpecAtlas.Report.Codec

/-! Decoding undoes encoding. A decoder that may enter as many levels as the encoded data has gives
the data back, and one that may not gives nothing. -/

namespace SpecAtlas

open Json Source

namespace Json

namespace Value

@[simp] lemma plainAll_map {α : Type} {encode : α → Value} {items : List α} :
    PlainAll (items.map encode) ↔ ∀ a ∈ items, (encode a).Plain := by
  induction items with
  | nil => simp [PlainAll]
  | cons a items ih => simp [PlainAll, ih]

end Value

namespace Decoder

structure Inverts {α : Type} (d : Decoder α) (encode : α → Value) : Prop where
  plain (a : α) : (encode a).Plain
  decode (n : Nat) (a : α) : d n (encode a) = if (encode a).depth ≤ n then some a else none

lemma Inverts.ofText_render {α : Type} {d : Decoder α} {encode : α → Value} (h : d.Inverts encode)
    (a : α) : d.ofText (encode a).render =
      if (encode a).depth ≤ maxDepth then some a else none := by
  simp [ofText, parse?_render (h.plain a), h.decode]

lemma bind_guarded {α β : Type} {p : Prop} [Decidable p] (a : α) (next : α → Option β) :
    (if p then some a else none).bind next = if p then next a else none := by
  split <;> rfl

lemma uint32_inverts : uint32.Inverts fun x => natJson x.toNat where
  plain _ := trivial
  decode n x := by
    simp [uint32, natJson, below, Value.depth, x.toNat_lt]

lemma mapM_inverts {α : Type} {d : Decoder α} {encode : α → Value} (h : d.Inverts encode) (n : Nat)
    (items : List α) : (items.map encode).mapM (d n)
      = if Value.depthAll (items.map encode) ≤ n then some items else none := by
  induction items with
  | nil => simp [Value.depthAll]
  | cons a items ih =>
    simp only [List.map_cons, List.mapM_cons, ih, h.decode, Value.depthAll, Nat.max_le]
    simp [bind_guarded, ite_and]

lemma Inverts.list {α : Type} {d : Decoder α} {encode : α → Value} (h : d.Inverts encode) :
    d.list.Inverts fun items => .array (items.map encode) where
  plain items := Value.plainAll_map.mpr fun a _ => h.plain a
  decode n items := by
    cases n with
    | zero => simp [Decoder.list, Value.depth]
    | succ n => simp [Decoder.list, Value.depth, mapM_inverts h]

end Decoder

end Json

open Decoder

namespace Source.TextRange

lemma toJson_depth (r : TextRange) : r.toJson.depth = 1 := rfl

lemma decoder_inverts : decoder.Inverts toJson where
  plain r := by simp [toJson, Value.Plain, Value.PlainFields, natJson]
  decode n r := by
    cases n with
    | zero => rfl
    | succ n =>
      have hslots : slots? ["start_line", "start_column", "end_line", "end_column"] r.toJson
          = some [.given (natJson r.startLine.toNat), .given (natJson r.startColumn.toNat),
            .given (natJson r.endLine.toNat), .given (natJson r.endColumn.toNat)] := rfl
      have huint (x : UInt32) : uint32 n (natJson x.toNat) = some x := uint32_inverts.decode n x
      simp [decoder, toJson_depth, hslots, Slot.required, huint]

end Source.TextRange

lemma CallbackKind.decoder_inverts : decoder.Inverts toJson where
  plain _ := trivial
  decode _ k := ofKeyword?_keyword k

lemma IncludeKind.decoder_inverts : decoder.Inverts toJson where
  plain _ := trivial
  decode _ k := by cases k <;> rfl

lemma CallbackReport.decoder_inverts : decoder.Inverts toJson where
  plain c := ⟨trivial, TextRange.decoder_inverts.plain c.range, trivial⟩
  decode n c := by
    cases n with
    | zero => rfl
    | succ n =>
      have hslots : slots? ["kind", "range"] c.toJson
          = some [.given c.kind.toJson, .given c.range.toJson] := rfl
      have hkind : CallbackKind.decoder n c.kind.toJson = some c.kind :=
        CallbackKind.decoder_inverts.decode n c.kind
      have hrange := TextRange.decoder_inverts.decode n c.range
      have hdepth : c.toJson.depth = c.range.toJson.depth + 1 := rfl
      simp [decoder, hslots, Slot.required, hkind, hrange, bind_guarded, hdepth]

lemma IncludeReport.decoder_inverts : decoder.Inverts toJson where
  plain i := ⟨trivial, trivial, TextRange.decoder_inverts.plain i.range, trivial⟩
  decode n i := by
    cases n with
    | zero => rfl
    | succ n =>
      have hslots : slots? ["name", "kind", "range"] i.toJson
          = some [.given (.string i.name), .given i.kind.toJson, .given i.range.toJson] := rfl
      have hkind : IncludeKind.decoder n i.kind.toJson = some i.kind :=
        IncludeKind.decoder_inverts.decode n i.kind
      have hrange := TextRange.decoder_inverts.decode n i.range
      have hdepth : i.toJson.depth = i.range.toJson.depth + 1 := rfl
      simp [decoder, hslots, Slot.required, Decoder.string, hkind, hrange, bind_guarded, hdepth]

namespace TestReport

mutual

theorem plain_toJson : (t : TestReport) → t.toJson.Plain
  | ⟨_, _, _, _, range, children⟩ => by
    have hall := plainAll_toJsonAll children
    have hrange := TextRange.decoder_inverts.plain range
    cases children with
    | nil => simp [toJson, Value.Plain, Value.PlainFields, hrange]
    | cons t ts => simp [toJson, Value.Plain, Value.PlainFields, hrange, hall]

theorem plainAll_toJsonAll : (ts : List TestReport) → Value.PlainAll (toJsonAll ts)
  | [] => trivial
  | t :: ts => ⟨plain_toJson t, plainAll_toJsonAll ts⟩

end

mutual

theorem decoder_toJson : (t : TestReport) → (n : Nat) →
    decoder n t.toJson = if t.toJson.depth ≤ n then some t else none
  | ⟨_, _, _, _, _, _⟩, 0 => by simp [decoder, toJson, Value.depth]
  | ⟨name, path, enabled, unique, range, []⟩, n + 1 => by
    have hslots : slots? ["name", "path", "enabled", "unique", "range", "children"]
        (toJson ⟨name, path, enabled, unique, range, []⟩)
        = some [.given (.string name), .given (.string path), .given (.bool enabled),
          .given (.bool unique), .given range.toJson, .absent] := rfl
    have hrange := TextRange.decoder_inverts.decode n range
    have hdepth : (toJson ⟨name, path, enabled, unique, range, []⟩).depth
        = range.toJson.depth + 1 := rfl
    simp [decoder, hslots, Slot.required, Decoder.string, Decoder.bool, hrange, bind_guarded,
      hdepth]
  | ⟨name, path, enabled, unique, range, t :: ts⟩, n + 1 => by
    have hslots : slots? ["name", "path", "enabled", "unique", "range", "children"]
        (toJson ⟨name, path, enabled, unique, range, t :: ts⟩)
        = some [.given (.string name), .given (.string path), .given (.bool enabled),
          .given (.bool unique), .given range.toJson, .given (.array (toJsonAll (t :: ts)))] := rfl
    have hrange := TextRange.decoder_inverts.decode n range
    have hdepth : (toJson ⟨name, path, enabled, unique, range, t :: ts⟩).depth
        = max range.toJson.depth (Value.depthAll (toJsonAll (t :: ts)) + 1) + 1 := rfl
    cases n with
    | zero => simp [decoder, hslots, hdepth]
    | succ m =>
      have hchildren := mapM_decoder_toJsonAll (t :: ts) m
      have hiff : (toJson ⟨name, path, enabled, unique, range, t :: ts⟩).depth ≤ m + 1 + 1
          ↔ Value.depthAll (toJsonAll (t :: ts)) ≤ m ∧ range.toJson.depth ≤ m + 1 := by
        rw [hdepth]
        omega
      simp [decoder, hslots, Slot.required, Decoder.string, Decoder.bool, hrange, hchildren,
        bind_guarded, hiff, ite_and]

theorem mapM_decoder_toJsonAll : (ts : List TestReport) → (n : Nat) →
    (toJsonAll ts).mapM (decoder n)
      = if Value.depthAll (toJsonAll ts) ≤ n then some ts else none
  | [], n => by simp [toJsonAll, Value.depthAll]
  | t :: ts, n => by
    simp only [toJsonAll, List.mapM_cons, decoder_toJson t n, mapM_decoder_toJsonAll ts n,
      Value.depthAll, Nat.max_le]
    simp [bind_guarded, ite_and]

end

lemma decoder_inverts : decoder.Inverts toJson where
  plain := plain_toJson
  decode n t := decoder_toJson t n

end TestReport

lemma SpecReport.decoder_inverts : decoder.Inverts toJson where
  plain s := by
    have hrange := TextRange.decoder_inverts.plain s.range
    have htests := TestReport.decoder_inverts.list.plain s.tests
    have hcallbacks := CallbackReport.decoder_inverts.list.plain s.callbacks
    have hincludes := IncludeReport.decoder_inverts.list.plain s.includes
    exact ⟨trivial, trivial, trivial, trivial, hrange, htests, hcallbacks, hincludes, trivial⟩
  decode n s := by
    cases n with
    | zero => rfl
    | succ n =>
      have hslots : slots? ["name", "fqn", "style", "style_label", "range", "tests", "callbacks",
          "includes"] s.toJson
          = some [.given (.string s.name), .given (.string s.fqn), .given (.string s.style),
            .given (.string s.styleLabel), .given s.range.toJson,
            .given (.array (s.tests.map TestReport.toJson)),
            .given (.array (s.callbacks.map CallbackReport.toJson)),
            .given (.array (s.includes.map IncludeReport.toJson))] := rfl
      have hrange := TextRange.decoder_inverts.decode n s.range
      have htests := TestReport.decoder_inverts.list.decode n s.tests
      have hcallbacks := CallbackReport.decoder_inverts.list.decode n s.callbacks
      have hincludes := IncludeReport.decoder_inverts.list.decode n s.includes
      have hdepth : s.toJson.depth ≤ n + 1 ↔ s.range.toJson.depth ≤ n
          ∧ (Value.array (s.tests.map TestReport.toJson)).depth ≤ n
          ∧ (Value.array (s.callbacks.map CallbackReport.toJson)).depth ≤ n
          ∧ (Value.array (s.includes.map IncludeReport.toJson)).depth ≤ n := by
        simp only [toJson, Value.depth, Value.depthFields]
        omega
      simp [decoder, hslots, Slot.required, Slot.withDefault, Decoder.string, hrange, htests,
        hcallbacks, hincludes, bind_guarded, hdepth, ite_and]

lemma FileReport.decoder_inverts : decoder.Inverts toJson where
  plain r := by
    have hspecs := SpecReport.decoder_inverts.list.plain r.specs
    obtain ⟨path, package, hasErrors, specs⟩ := r
    cases package with
    | none => exact ⟨trivial, trivial, hspecs, trivial⟩
    | some p => exact ⟨trivial, trivial, trivial, hspecs, trivial⟩
  decode n r := by
    cases n with
    | zero => rfl
    | succ n =>
      have hspecs := SpecReport.decoder_inverts.list.decode n r.specs
      have hdepth : r.toJson.depth = (Value.array (r.specs.map SpecReport.toJson)).depth + 1 := by
        obtain ⟨path, package, hasErrors, specs⟩ := r
        cases package <;> rfl
      have hslots : slots? ["path", "package", "has_errors", "specs"] r.toJson
          = some [.given (.string r.path), r.package.elim .absent fun p => .given (.string p),
            .given (.bool r.hasErrors), .given (.array (r.specs.map SpecReport.toJson))] := by
        obtain ⟨path, package, hasErrors, specs⟩ := r
        cases package <;> rfl
      have hpackage :
          (r.package.elim Slot.absent fun p => .given (.string p)).nullable Decoder.string n
            = some r.package := by
        cases r.package <;> rfl
      simp [decoder, hslots, Slot.required, Slot.withDefault, Decoder.string, Decoder.bool, hspecs,
        hpackage, bind_guarded, hdepth]

end SpecAtlas
