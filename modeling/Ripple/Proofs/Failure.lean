import Ripple.Proofs.Json.Document
import Ripple.Web.Handler

/-!
# Ripple.Proofs.Failure

What callers learn of a failure.

A failure is looked at in three ways that stop at different places: its code is that of the first
coded layer, a mention of a code may be in any layer, and the web shows the first coded layer or
nothing.  All of them are read off one list, the `chain` of the failure and everything under its
layers.  So causes, and the texts that were put in front of a coded layer, never reach the web
(`caller_sees`).
-/

namespace Ripple.Failure

/-! ## layers -/

/-- Code and text of the outermost layer, if this layer is a coded one. -/
def layer? : Failure → Option (Code × String)
  | coded code text | codedOver code text _ => some (code, text)
  | root _ | within _ _ => none

/-- A failure and all that is under its layers, outermost first. -/
def chain : Failure → List Failure
  | root c => [root c]
  | within context inner => within context inner :: inner.chain
  | coded code text => [coded code text]
  | codedOver code text inner => codedOver code text inner :: inner.chain

/-- The coded layers, outermost first. -/
def codedLayers (f : Failure) : List (Code × String) := f.chain.filterMap layer?

@[simp] theorem codedLayers_root (c : Cause) : (root c).codedLayers = [] := rfl

@[simp] theorem codedLayers_within (context : String) (f : Failure) :
    (within context f).codedLayers = f.codedLayers := rfl

@[simp] theorem codedLayers_coded (code : Code) (text : String) :
    (coded code text).codedLayers = [(code, text)] := rfl

@[simp] theorem codedLayers_codedOver (code : Code) (text : String) (f : Failure) :
    (codedOver code text f).codedLayers = (code, text) :: f.codedLayers := rfl

theorem mem_codedLayers {f : Failure} {l : Code × String} :
    l ∈ f.codedLayers ↔ ∃ g ∈ f.chain, g.layer? = some l :=
  List.mem_filterMap

/-! ## codes -/

/-- The search for the outermost coded layer stops at the first one of the chain. -/
theorem outermost?_eq_head? (f : Failure) : f.outermost? = f.codedLayers.head? := by
  induction f with
  | root c => rfl
  | within context inner ih => simpa [outermost?] using ih
  | coded code text => rfl
  | codedOver code text inner ih => rfl

theorem code_eq (f : Failure) : f.code = (f.codedLayers.head?.map Prod.fst).getD Code.internal := by
  rw [code, outermost?_eq_head?]
  cases f.codedLayers.head? <;> rfl

/-- The search for a code goes through the whole chain. -/
theorem mentions_iff {c : Code} (f : Failure) :
    f.mentions c = true ↔ ∃ text, (c, text) ∈ f.codedLayers := by
  induction f with
  | root cause => simp [mentions]
  | within context inner ih => simpa [mentions] using ih
  | coded code text => simp [mentions, @eq_comm _ c]
  | codedOver code text inner ih => simp [mentions, ih, @eq_comm _ c, exists_or]

/-- A failure with a coded layer mentions the code that a caller sees. -/
theorem mentions_of_hasCode {f : Failure} {c : Code} (hf : f.codedLayers ≠ [])
    (hc : f.hasCode c = true) : f.mentions c = true := by
  obtain ⟨⟨code, text⟩, rest, hlayers⟩ := List.exists_cons_of_ne_nil hf
  have hcode : code = c := by
    simpa [hasCode, code_eq, hlayers] using hc
  exact f.mentions_iff.mpr ⟨text, by simp [hlayers, hcode]⟩

/-! ## the web -/

/-- Code and text that the web shows of a failure. -/
def visible (f : Failure) : Code × String :=
  f.codedLayers.head?.getD (Code.internal, "internal error")

theorem failed_eq (f : Failure) :
    Web.Response.failed f =
      .json (Web.statusFor f.visible.1) (codedJson f.visible.1 f.visible.2) := by
  rw [Web.Response.failed, outermost?_eq_head?, visible]
  cases f.codedLayers.head? <;> rfl

/-- The document of a coded layer shows its code and its text, and that is all. -/
theorem parse?_codedJson (code : Code) (text : String) :
    Json.parse? (codedJson code text).compact =
      some (.object [("code", .string code), ("message", .string text)]) := by
  refine Json.parse?_compact ?_
  simp [codedJson, Json.readable_object, Json.Readable]

/-- **What a caller sees** of any failure: the code is that of the outermost coded layer, or
`INTERNAL_ERROR` if there is none.  A code is mentioned exactly when a layer of the chain has it,
which is so for the code that is seen if there is a coded layer at all.  The web shows code and
text of the outermost coded layer in a document that holds nothing else; failures that agree on
these, or that both have no coded layer, get the same response. -/
theorem caller_sees (f : Failure) :
    f.code = (f.codedLayers.head?.map Prod.fst).getD Code.internal ∧
      (f.codedLayers ≠ [] → ∀ c, f.hasCode c = true → f.mentions c = true) ∧
      (∀ c, f.mentions c = true ↔ ∃ g ∈ f.chain, ∃ text, g.layer? = some (c, text)) ∧
      ((Web.Response.failed f).status = Web.statusFor f.visible.1 ∧
        Json.parse? (Web.Response.failed f).body =
          some (.object [("code", .string f.visible.1), ("message", .string f.visible.2)])) ∧
      ∀ g : Failure, f.codedLayers.head? = g.codedLayers.head? →
        Web.Response.failed f = Web.Response.failed g := by
  refine ⟨f.code_eq, fun hf c => mentions_of_hasCode hf, fun c => ?_, ⟨?_, ?_⟩, fun g hg => ?_⟩
  · rw [mentions_iff]
    simp only [mem_codedLayers]
    exact ⟨fun ⟨text, g, hg, h⟩ => ⟨g, hg, text, h⟩, fun ⟨g, hg, text, h⟩ => ⟨text, g, hg, h⟩⟩
  · rw [failed_eq]
    rfl
  · rw [failed_eq]
    exact parse?_codedJson _ _
  · rw [failed_eq, failed_eq, visible, visible, hg]

/-- A conflict that was caused by a missing node, and one with another cause and other texts in
front, are the same to a caller; only the first mentions that something was not found. -/
theorem conflict_over_missing :
    let f := within "rescan"
      (codedOver Code.conflict "busy" (within "load" (coded Code.notFound "n1")))
    let g := codedOver Code.conflict "busy" (root (.text "disk full"))
    f.code = Code.conflict ∧ f.mentions Code.conflict = true ∧ f.mentions Code.notFound = true ∧
      g.mentions Code.notFound = false ∧ (Web.Response.failed f).status = 409 ∧
      Web.Response.failed f = Web.Response.failed g := by
  intro f g
  obtain ⟨hcode, hseen, hmentions, ⟨hstatus, -⟩, hsame⟩ := caller_sees f
  refine ⟨hcode, hseen (by decide) Code.conflict (by decide), ?_, by decide, hstatus, hsame g rfl⟩
  exact (hmentions Code.notFound).mpr ⟨coded Code.notFound "n1", by decide, "n1", rfl⟩

end Ripple.Failure
