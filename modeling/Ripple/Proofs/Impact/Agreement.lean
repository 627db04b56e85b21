import Ripple.Proofs.Snapshot.RoundTrip
import Ripple.Impact.Query

/-!
# Ripple.Proofs.Impact.Agreement

Graphs that agree answer alike.

Questions see a graph through its nodes, its edges and its lookups only.  So whatever is computed on
the way to an answer is the same for two graphs that agree on these, and the answers are
(`Graph.Agrees.ask_eq`).
-/

namespace Ripple.Graph.Agrees

variable {g h : Graph}

section
variable (hgh : g.Agrees h)
include hgh

/-! ## what is read from a graph -/

theorem node?_eq : g.node? = h.node? := by
  funext id
  simp only [node?, hgh.nodes]

theorem nodesOfKind_eq : g.nodesOfKind = h.nodesOfKind := by
  funext kind
  simp only [nodesOfKind, hgh.nodes]

theorem successors_eq : g.successors = h.successors := by
  funext id kind
  simp only [successors, hgh.outgoing]

theorem predecessors_eq : g.predecessors = h.predecessors := by
  funext id kind
  simp only [predecessors, hgh.incoming]

theorem declaringTypes_eq : g.declaringTypes = h.declaringTypes := by
  funext id
  simp only [declaringTypes, hgh.node?_eq, hgh.predecessors_eq]

theorem declaringFiles_eq : g.declaringFiles = h.declaringFiles := by
  funext id
  simp only [declaringFiles, hgh.predecessors_eq]

theorem closure_eq : g.closure = h.closure := by
  have hstep : g.step = h.step := by
    funext kind direction id
    cases direction <;> simp only [step, hgh.outgoing, hgh.incoming]
  funext direction kind seeds cap poll
  simp only [closure, hstep, hgh.edges]

/-! ## what is assembled -/

theorem nameOf_eq : Assembly.nameOf g = Assembly.nameOf h := by
  funext id
  simp only [Assembly.nameOf, hgh.node?_eq]

theorem keyOf_eq : Assembly.keyOf g = Assembly.keyOf h := by
  funext id
  simp only [Assembly.keyOf, hgh.node?_eq]

theorem fieldRefs_eq : Assembly.fieldRefs g = Assembly.fieldRefs h := by
  funext fields edges
  simp only [Assembly.fieldRefs, hgh.nameOf_eq]

theorem member_eq : Assembly.member g = Assembly.member h := by
  funext sel method line
  simp only [Assembly.member, Assembly.callRefs, hgh.nameOf_eq, hgh.keyOf_eq, hgh.fieldRefs_eq,
    hgh.outgoing]

theorem members_eq : Assembly.members g = Assembly.members h := by
  funext sel type
  simp only [Assembly.members, hgh.member_eq, hgh.outgoing]

theorem typeEntry?_eq : Assembly.typeEntry? g = Assembly.typeEntry? h := by
  funext sel type line
  simp only [Assembly.typeEntry?, hgh.nameOf_eq, hgh.fieldRefs_eq, hgh.members_eq, hgh.outgoing]

theorem assemble_eq : assemble g = assemble h := by
  have hfile : Assembly.fileEntry? g = Assembly.fileEntry? h := by
    funext sel file
    simp only [Assembly.fileEntry?, hgh.nameOf_eq, hgh.keyOf_eq, hgh.typeEntry?_eq, hgh.outgoing]
  funext sel
  simp only [assemble, hfile]

theorem describe_eq : Query.describe g = Query.describe h := by
  have hpaths : Query.pathsOf g = Query.pathsOf h := by
    funext method
    simp only [Query.pathsOf, hgh.declaringTypes_eq, hgh.declaringFiles_eq, hgh.node?_eq,
      hgh.keyOf_eq]
  funext methods
  simp only [Query.describe, hgh.node?_eq, hpaths]

/-! ## questions -/

theorem accessors_eq : Query.accessors g = Query.accessors h := by
  funext fields
  simp only [Query.accessors, hgh.predecessors_eq]

theorem similar_eq : Query.similar g = Query.similar h := by
  funext like methods
  simp only [Query.similar, hgh.node?_eq, hgh.methodsNamed]

theorem filesOf_eq : Query.filesOf g = Query.filesOf h := by
  funext members
  simp only [Query.filesOf, hgh.declaringTypes_eq, hgh.declaringFiles_eq]

theorem declares_eq : Query.declares g = Query.declares h := by
  funext type member
  simp only [Query.declares, hgh.declaringTypes_eq]

variable (cap : Nat) (cancelled : Nat → Bool)

theorem callClosure_eq :
    Query.callClosure ⟨g, cap, cancelled⟩ = Query.callClosure ⟨h, cap, cancelled⟩ := by
  funext direction seeds p
  simp only [Query.callClosure, hgh.closure_eq]

theorem reportOn_eq : Query.reportOn ⟨g, cap, cancelled⟩ = Query.reportOn ⟨h, cap, cancelled⟩ := by
  funext target type chain fields files
  simp only [Query.reportOn, hgh.assemble_eq]

/-- **Graphs that agree answer alike.** -/
theorem ask_eq (q : Question) : ask ⟨g, cap, cancelled⟩ q = ask ⟨h, cap, cancelled⟩ q := by
  cases q with
  | field fieldName className =>
      simp only [ask, Query.fieldImpact, Query.callers, hgh.find?, hgh.declares_eq,
        hgh.accessors_eq, hgh.similar_eq, hgh.filesOf_eq, hgh.declaringFiles_eq,
        hgh.callClosure_eq, hgh.reportOn_eq]
  | method signature className =>
      simp only [ask, Query.methodImpact, Query.callers, Query.callees, hgh.find?, hgh.declares_eq,
        hgh.accessors_eq, hgh.similar_eq, hgh.filesOf_eq, hgh.declaringFiles_eq, hgh.successors_eq,
        hgh.callClosure_eq, hgh.reportOn_eq]
  | «class» className =>
      simp only [ask, Query.classImpact, Query.callers, Query.callees, hgh.find?, hgh.accessors_eq,
        hgh.similar_eq, hgh.filesOf_eq, hgh.declaringFiles_eq, hgh.successors_eq,
        hgh.nodesOfKind_eq, hgh.callClosure_eq, hgh.reportOn_eq]
  | writers fieldName | readers fieldName =>
      simp only [ask, Query.fieldAccess, hgh.find?, hgh.predecessors_eq, hgh.describe_eq]
  | upstream methodName =>
      simp only [ask, Query.upstreamCallers, Query.callers, hgh.methodsNamed, hgh.describe_eq,
        hgh.callClosure_eq]
  | downstream signature =>
      simp only [ask, Query.downstreamCallees, Query.callees, hgh.find?, hgh.describe_eq,
        hgh.callClosure_eq]

end

end Ripple.Graph.Agrees
