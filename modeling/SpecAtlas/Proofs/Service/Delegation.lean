import SpecAtlas.Client
import SpecAtlas.Proofs.Report.Interface
import SpecAtlas.Proofs.Workspace.Transparency

/-! Delegation. An operation that is sent to a service in the same workspace does there what it does
when it is run directly, and the caller gets the same result, unless the argument is too large to be
taken in or the result is nested too deep to be read back. -/

namespace SpecAtlas

open Json Service

lemma Text.stripLead?_append (lead s : String) : stripLead? lead (lead ++ s) = some s := by
  simp [stripLead?, ← String.length_toList]

namespace Service

variable {α β : Type} {w : Workspace} {d : Decoder α} {encode : α → Value} {a : α}

def Request.posted (route : Route) (v : Value) : Request where
  method := "POST"
  path := route.path
  contentType := some "application/json"
  body := v.render

def Fits (v : Value) : Prop := v.render.utf8ByteSize ≤ maxBody

lemma isJsonType_posted (route : Route) (v : Value) :
    ((Request.posted route v).contentType.map isJsonType).getD false = true := by
  have htype : isJsonType "application/json" = true := by decide
  simp [Request.posted, htype]

lemma argument_posted (h : d.Inverts encode) (hdepth : (encode a).depth ≤ maxDepth)
    (hfits : Fits (encode a)) (route : Route) :
    argument d (.posted route (encode a)) = .ok a := by
  have hbody : ¬ maxBody < (encode a).render.utf8ByteSize := Nat.not_lt.mpr hfits
  rw [argument, isJsonType_posted]
  simp [Request.posted, hbody, parse?_render (h.plain a), h.decode, hdepth]

lemma argument_posted_large {v : Value} (hlarge : ¬ Fits v) (route : Route) :
    argument d (.posted route v) = .error { status := 413 } := by
  have hbody : maxBody < v.render.utf8ByteSize := Nat.not_le.mp hlarge
  rw [argument, isJsonType_posted]
  simp [Request.posted, hbody]

lemma answer_posted (h : d.Inverts encode) (hdepth : (encode a).depth ≤ maxDepth)
    (hfits : Fits (encode a)) (route : Route) (out : β → Value)
    (operation : α → Workspace × Except Failure β) :
    answer w (.posted route (encode a)) d out operation
      = ((operation a).1, .ofResult out (operation a).2) := by
  rw [answer, argument_posted h hdepth hfits]

lemma answer_posted_large {v : Value} (hlarge : ¬ Fits v) (route : Route) (out : β → Value)
    (operation : α → Workspace × Except Failure β) :
    answer w (.posted route v) d out operation = (w, { status := 413 }) := by
  rw [answer, argument_posted_large hlarge]

lemma handle_posted {route : Route} (hroute : route.isQuery = false) (v : Value) :
    handle w (.posted route v) = serve w (.posted route v) route := by
  have hallows : route.allows "POST" = true := by simp [Route.allows, hroute]
  simp [handle, Request.posted, hallows]

end Service

lemma IndexConfig.depth_le_maxDepth (c : IndexConfig) : c.toJson.depth ≤ maxDepth := by
  rw [toJson_depth]
  decide

lemma ScanConfig.depth_le_maxDepth (c : ScanConfig) : c.toJson.depth ≤ maxDepth := by
  have hindex : fieldDepth (c.index.map IndexConfig.toJson) ≤ 2 := by
    cases c.index with
    | none => decide
    | some index => exact Nat.le_of_eq index.toJson_depth
  have hdepth : c.toJson.depth ≤ 2 + 1 := toJson_depth_le.mpr ⟨by decide, hindex⟩
  exact Nat.le_trans hdepth (by decide)

lemma TestAtRequest.depth_le_maxDepth (r : TestAtRequest) : r.toJson.depth ≤ maxDepth := by
  have hdepth : r.toJson.depth = 1 := rfl
  rw [hdepth]
  decide

namespace Client

variable {α β : Type} {w : Workspace} {d : Decoder α} {encode : α → Value} {a : α}
  {out : Decoder β} {outcode : β → Value}

def relayed (encode : β → Value) (url : String) : Except Failure β → Except Failure β
  | .ok b => if (encode b).depth ≤ maxDepth then .ok b else .error .undecodedResponse
  | .error _ => .error (.refused url)

lemma result_ofResult (h : out.Inverts outcode) (url : String) (r : Except Failure β) :
    result out url (some (.ofResult outcode r)) = relayed outcode url r := by
  cases r with
  | ok b =>
    simp only [Response.ofResult, Response.ofValue, result, relayed, Option.bind_some,
      h.ofText_render]
    split_ifs <;> simp_all
  | error e =>
    have hstatus : 400 ≤ (Response.ofFailure e).status := by
      cases e <;> simp [Response.ofFailure, statusOf]
    simp [Response.ofResult, result, relayed, hstatus]

lemma post_loopback (out : Decoder β) {route : Route} (hroute : route.isQuery = false) (v : Value)
    (base : String) :
    post (.loopback (Text.trimEndOf '/' base)) base route v out w
      = ((serve w (.posted route v) route).1,
        result out (url base route) (some (serve w (.posted route v) route).2)) := by
  have hsend : Transport.loopback (Text.trimEndOf '/' base) w (url base route) v.render
      = ((serve w (.posted route v) route).1, some (serve w (.posted route v) route).2) := by
    rw [Transport.loopback, url, Text.stripLead?_append]
    exact congrArg (fun answered => (answered.1, some answered.2)) (handle_posted hroute v)
  rw [post, hsend]

/-- A delegated call does what the local one does and hands on its result, unless the argument is
too large to be sent, and nothing is done, or the result is too deep to be read back. A call that
succeeds has the result of the local one, and it fails if the local one does. -/
structure Agrees (w : Workspace) (argument : Value) (encode : β → Value)
    (delegated direct : Workspace × Except Failure β) : Prop where
  workspace : Fits argument → delegated.1 = direct.1
  untouched : ¬ Fits argument → delegated.1 = w
  result (b : β) : delegated.2 = .ok b → direct.2 = .ok b ∧ delegated.1 = direct.1
  success (b : β) : Fits argument → direct.2 = .ok b → (encode b).depth ≤ maxDepth →
    delegated.2 = .ok b
  failure (e : Failure) : direct.2 = .error e → ∃ e', delegated.2 = .error e'

lemma agrees_relayed {argument : Value} (hfits : Fits argument) (encode : β → Value) (url : String)
    (direct : Workspace × Except Failure β) :
    Agrees w argument encode (direct.1, relayed encode url direct.2) direct where
  workspace _ := rfl
  untouched hlarge := absurd hfits hlarge
  result b h := by
    refine ⟨?_, rfl⟩
    cases hr : direct.2 with
    | ok b' =>
      rw [hr, relayed] at h
      split_ifs at h
      exact h
    | error e =>
      rw [hr] at h
      cases h
  success b _ hb hdepth := by rw [hb, relayed, if_pos hdepth]
  failure e h := ⟨.refused url, by rw [h, relayed]⟩

lemma agrees_refused {argument : Value} (hlarge : ¬ Fits argument) (encode : β → Value)
    (e : Failure) (direct : Workspace × Except Failure β) :
    Agrees w argument encode (w, .error e) direct where
  workspace hfits := absurd hfits hlarge
  untouched _ := rfl
  result _ h := by cases h
  success _ hfits := absurd hfits hlarge
  failure _ _ := ⟨e, rfl⟩

lemma agrees_post (h : d.Inverts encode) (hdepth : (encode a).depth ≤ maxDepth)
    (hout : out.Inverts outcode) {route : Route} (hroute : route.isQuery = false)
    (operation : α → Workspace × Except Failure β)
    (hserve : ∀ r, serve w r route = answer w r d outcode operation) (base : String) :
    Agrees w (encode a) outcode
      (post (.loopback (Text.trimEndOf '/' base)) base route (encode a) out w) (operation a) := by
  rw [post_loopback out hroute, hserve]
  by_cases hfits : Fits (encode a)
  · rw [answer_posted h hdepth hfits, result_ofResult hout]
    exact agrees_relayed hfits outcode _ _
  · rw [answer_posted_large hfits]
    exact agrees_refused hfits outcode _ _

end Client

/-- Scans, position queries and work on an index give the same through a service as without it, and
leave the same workspace behind. -/
theorem delegation_agrees_with_local_calls (base : String) (w : Workspace) :
    let send := Transport.loopback (Text.trimEndOf '/' base)
    (∀ config : ScanConfig, Client.Agrees w config.toJson ScanResult.toJson
      (Client.scan send base config w) (w.scan config))
    ∧ (∀ request : TestAtRequest, Client.Agrees w request.toJson TestAtResult.toJson
      (Client.testAt send base request w) (w, w.testAt request))
    ∧ (∀ config : IndexConfig, Client.Agrees w config.toJson IndexSummary.toJson
      (Client.buildIndex send base config w) (w.buildIndex config))
    ∧ ∀ config : IndexConfig, Client.Agrees w config.toJson IndexSummary.toJson
      (Client.describeIndex send base config w) (w.describeIndex config) := by
  intro send
  refine ⟨fun config => ?_, fun request => ?_, fun config => ?_, fun config => ?_⟩
  · exact Client.agrees_post ScanConfig.decoder_inverts config.depth_le_maxDepth
      ScanResult.decoder_inverts rfl w.scan (fun _ => rfl) base
  · exact Client.agrees_post TestAtRequest.decoder_inverts request.depth_le_maxDepth
      TestAtResult.decoder_inverts rfl (fun request => (w, w.testAt request)) (fun _ => rfl) base
  · exact Client.agrees_post IndexConfig.decoder_inverts config.depth_le_maxDepth
      IndexSummary.decoder_inverts rfl w.buildIndex (fun _ => rfl) base
  · exact Client.agrees_post IndexConfig.decoder_inverts config.depth_le_maxDepth
      IndexSummary.decoder_inverts rfl w.describeIndex (fun _ => rfl) base

def served : Workspace :=
  { Workspace.empty with frontend := fun _ => nestedTests 2 }.after
    (.write "A.kt" "StringSpec".toByteArray 1)

theorem delegation_agrees_with_local_calls_served :
    ∃ result, (Client.scan (.loopback "http://localhost") "http://localhost/"
        Workspace.cachedScan served).2 = .ok result ∧ result.summary.tests = 2 ∧
      (served.scan Workspace.cachedScan).2 = .ok result := by
  have hfits : Fits Workspace.cachedScan.toJson := by
    rw [Fits]
    decide +kernel
  have hlocal : (served.scan Workspace.cachedScan).2.toOption.map
      (fun r => (r.summary.tests, decide (r.toJson.depth ≤ maxDepth))) = some (2, true) := by
    decide +kernel
  cases hresult : (served.scan Workspace.cachedScan).2 with
  | error e =>
    rw [hresult] at hlocal
    cases hlocal
  | ok result =>
    rw [hresult] at hlocal
    obtain ⟨htests, hdepth⟩ := Prod.mk.inj (Option.some.inj hlocal)
    obtain ⟨hscan, -⟩ := delegation_agrees_with_local_calls "http://localhost/" served
    have hagrees := hscan Workspace.cachedScan
    exact ⟨result, hagrees.success result hfits hresult (of_decide_eq_true hdepth), htests, rfl⟩

end SpecAtlas
