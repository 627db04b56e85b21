import Ripple.Graph.Store
import Ripple.Proofs.Graph.Invariant

/-!
# Ripple.Proofs.Graph.Sharing

A frozen graph never changes, whoever else holds it.

A builder, the store and the queries do not hold copies of a graph.  Publishing hands out the very
object that the builder goes on writing to, and a query reads the object that was published when it
started.  `Memory` has this sharing: graphs are numbered objects, and builders and the store refer
to them by number, so that a write through one of them is seen through all.

The only protection is that a builder asks whether its graph is frozen before it writes:

* `perform_error`: a refused operation leaves the builder as it was;
* `perform_frozen`: every operation that could write is refused by a frozen builder;
* `Memory.Kept.step`, `Memory.Kept.run`: so no event, and no history of events, touches a frozen
  object, nor moves the builders that write to it;
* `Memory.Settled.run`: what the store publishes is frozen at all times.

Seen through one builder or through the store, a memory does what they do when they hold their graph
by value (`builder?_perform`, `store_swap`, `store_clear`).
-/

namespace Ripple

namespace Builder

/-! ## refused operations -/

/-- A checked amendment is refused as a whole. -/
theorem expect_modify_error {id : NodeId} {kind : NodeKind} {f : Builder → Builder} {b : Builder}
    {e : GraphError}
    (h : ((do expect id kind; modify f : Ingest Unit).run b).1 = .error e) :
    ((do expect id kind; modify f : Ingest Unit).run b).2 = b := by
  rw [run_bind] at h ⊢
  obtain ⟨e', hrun⟩ | ⟨n, -, -, hrun⟩ := expect_cases id kind b
  · rw [hrun]
  · rw [hrun] at h
    cases h

theorem upsert_error {s : Symbol} {b : Builder} {e : GraphError}
    (h : ((upsert s).run b).1 = .error e) : ((upsert s).run b).2 = b := by
  obtain ⟨e', hrun⟩ | ⟨id, -, hrun⟩ | ⟨-, -, hrun⟩ := upsert_cases s b
  · rw [hrun]
  · rw [hrun]
  · rw [hrun] at h
    cases h

/-- The path of a type is set only after its node was found or added. -/
theorem upsertType_error {name filePath : String} {b : Builder} {e : GraphError}
    (h : ((upsertType name filePath).run b).1 = .error e) :
    ((upsertType name filePath).run b).2 = b := by
  rw [upsertType, run_bind] at h ⊢
  obtain ⟨e', hrun⟩ | ⟨id, -, hrun⟩ | ⟨-, -, hrun⟩ := upsert_cases (.type name filePath) b
  · rw [hrun]
  · rw [hrun] at h
    cases h
  · rw [hrun] at h
    cases h

theorem addEdge_error {label : EdgeLabel} {source target : NodeId} {line : Int}
    {createdAt : Option Timestamp} {confidence : Float} {b : Builder} {e : GraphError}
    (h : ((addEdge label source target line createdAt confidence).run b).1 = .error e) :
    ((addEdge label source target line createdAt confidence).run b).2 = b := by
  obtain ⟨e', hrun⟩ | ⟨kind, s, t, -, -, -, -, ⟨-, hrun⟩ | ⟨-, hrun⟩⟩ :=
    addEdge_cases label source target line createdAt confidence b
  · rw [hrun]
  · rw [hrun]
  · rw [hrun] at h
    cases h

theorem clear_error {b : Builder} {e : GraphError} (h : (clear.run b).1 = .error e) :
    (clear.run b).2 = b := by
  by_cases hfrozen : b.frozen
  · simp [clear, ExceptT.run, hfrozen]
  · simp [clear, ExceptT.run, hfrozen] at h

theorem map_eq_error {x : Except GraphError α} {f : α → β} {e : GraphError}
    (h : x.map f = .error e) : x = .error e := by
  cases x with
  | error e' => exact congrArg Except.error (Except.error.inj h)
  | ok a => cases h

/-- **A refused operation changes nothing**, neither the graph nor the rest of the builder. -/
theorem perform_error {op : Operation} {b : Builder} {e : GraphError}
    (h : (op.perform.run b).1 = .error e) : (op.perform.run b).2 = b := by
  cases op with
  | fact f =>
      cases f <;> simp only [Operation.perform, ingest, run_map] at h ⊢ <;>
        replace h := map_eq_error h
      case file name path => exact upsert_error h
      case type name filePath => exact upsertType_error h
      case field name => exact upsert_error h
      case method signature => exact upsert_error h
      case fieldType id text => exact expect_modify_error h
      case methodTypes id ret params => exact expect_modify_error h
      case link kind source target line => exact addEdge_error h
      case edge label source target line createdAt confidence => exact addEdge_error h
  | clear =>
      simp only [Operation.perform, run_map] at h ⊢
      exact clear_error (map_eq_error h)
  | freeze => cases h
  | tick now => cases h

end Builder

/-- Facts and clearing write to the graph; freezing and the passing of time do not. -/
def Operation.Writes : Operation → Prop
  | fact _ | clear => True
  | freeze | tick _ => False

namespace Builder

/-- **A frozen builder refuses** every operation that writes, before it looks at the arguments. -/
theorem perform_frozen (op : Operation) (hop : op.Writes) {b : Builder} (hb : b.frozen = true) :
    op.perform.run b = (.error .frozen, b) := by
  have hupsert : ∀ s, (upsert s).run b = (.error .frozen, b) := fun s => if_pos hb
  have hexpect : ∀ id kind, (expect id kind).run b = (.error .frozen, b) := fun _ _ => if_pos hb
  have hedge : ∀ label source target line createdAt confidence,
      (addEdge label source target line createdAt confidence).run b = (.error .frozen, b) :=
    fun _ _ _ _ _ _ => if_pos hb
  have hclear : clear.run b = (.error .frozen, b) := if_pos hb
  cases op with
  | fact f =>
      cases f <;> simp [Operation.perform, ingest, run_map, run_bind, upsertFile, upsertType,
        upsertField, upsertMethod, setFieldType, setMethodTypes, link, hupsert, hexpect, hedge,
        Except.map]
  | clear => simp [Operation.perform, run_map, hclear, Except.map]
  | freeze | tick now => exact hop.elim

/-- No operation changes the graph of a frozen builder, or opens it again. -/
theorem perform_kept (op : Operation) {b : Builder} (hb : b.frozen = true) :
    (op.perform.run b).2.graph = b.graph ∧ (op.perform.run b).2.frozen = true := by
  cases op with
  | fact f => simp [perform_frozen (.fact f) trivial hb, hb]
  | clear => simp [perform_frozen .clear trivial hb, hb]
  | freeze => exact ⟨rfl, rfl⟩
  | tick now => exact ⟨rfl, hb⟩

end Builder

/-- Whether an operation drops the whole graph. -/
def Operation.clears : Operation → Bool
  | clear => true
  | fact _ | freeze | tick _ => false

/-! ## shared graphs -/

/-- The graphs that were ever begun, with those that refer to them. -/
structure Memory where
  /-- Each graph with its mark and the clock of its builder, in order of creation. -/
  objects : List Builder
  /-- For each builder, the number of the object that it writes to. -/
  writers : List Nat
  /-- The number of the object that the store publishes. -/
  published : Nat

namespace Memory

/-- What can happen to the graphs. -/
inductive Event where
  /-- A builder is created, over an object of its own. -/
  | create (now : Timestamp)
  /-- An operation on a builder. -/
  | perform (builder : Nat) (op : Operation)
  /-- The store publishes an object, be it the one of a builder or one that was published before. -/
  | swap (object : Nat)
  /-- The store publishes a new object without nodes. -/
  | clear

/-- The memory of a store that publishes the empty graph, before any builder was created. -/
def initial : Memory := ⟨[(Builder.new 0).freeze], [], 0⟩

/-- The graph of an object. -/
def graph? (m : Memory) (object : Nat) : Option Graph := m.objects[object]?.map (·.graph)

/-- The builder with a given number, with what its object holds. -/
def builder? (m : Memory) (builder : Nat) : Option Builder :=
  m.writers[builder]?.bind fun object => m.objects[object]?

/-- The store, with the graph of the object that it publishes. -/
def store (m : Memory) : Store := ⟨(m.graph? m.published).getD Graph.empty⟩

/-- What a builder does to its object.  Clearing an open graph leaves the object as it is, and the
builder goes on with a new one; all else is written to the object. -/
def write (m : Memory) (builder object : Nat) (op : Operation) (b : Builder) : Memory :=
  if op.clears ∧ b.frozen = false then
    { m with
      objects := m.objects ++ [(op.perform.run b).2]
      writers := m.writers.set builder m.objects.length }
  else { m with objects := m.objects.set object (op.perform.run b).2 }

/-- The memory after an event.  An event that names no builder or no object does nothing. -/
def step (m : Memory) : Event → Memory
  | .create now =>
    { m with objects := m.objects ++ [Builder.new now], writers := m.writers ++ [m.objects.length] }
  | .perform builder op =>
    match m.writers[builder]? with
    | none => m
    | some object =>
      match m.objects[object]? with
      | none => m
      | some b => m.write builder object op b
  | .swap object =>
    match m.objects[object]? with
    | none => m
    | some b => { m with objects := m.objects.set object (m.store.swap b).2.2, published := object }
  | .clear =>
    { m with
      objects := m.objects ++ [{ Builder.new 0 with graph := m.store.clear.snapshot }.freeze]
      published := m.objects.length }

/-- The memory after some events. -/
def run (m : Memory) (events : List Event) : Memory := events.foldl step m

/-! ## frozen objects -/

/-- A later memory still has a graph under its number, frozen, and the builders that wrote to it
then write to it now. -/
structure Kept (m : Memory) (object : Nat) (g : Graph) (m' : Memory) : Prop where
  frozen : ∃ b, m'.objects[object]? = some b ∧ b.graph = g ∧ b.frozen = true
  writers : ∀ i : Nat, m.writers[i]? = some object → m'.writers[i]? = some object

theorem Kept.objects_append {m m' : Memory} {object : Nat} {g : Graph} (h : Kept m object g m')
    (new : Builder) :
    ∃ b, (m'.objects ++ [new])[object]? = some b ∧ b.graph = g ∧ b.frozen = true := by
  obtain ⟨b, hb, hkept⟩ := h.frozen
  exact ⟨b, by grind, hkept⟩

/-- Writing to the object what a frozen builder allows. -/
theorem Kept.objects_set {m m' : Memory} {object : Nat} {g : Graph} (h : Kept m object g m')
    {other : Nat} {b b' : Builder} (hb : m'.objects[other]? = some b)
    (hb' : b.frozen = true → b'.graph = b.graph ∧ b'.frozen = true) :
    ∃ b, (m'.objects.set other b')[object]? = some b ∧ b.graph = g ∧ b.frozen = true := by
  obtain ⟨c, hc, hgraph, hfrozen⟩ := h.frozen
  by_cases hsame : other = object
  · subst hsame
    obtain rfl := Option.some.inj (hb.symm.trans hc)
    obtain ⟨hgraph', hfrozen'⟩ := hb' hfrozen
    have hlt : other < m'.objects.length := (List.getElem?_eq_some_iff.mp hb).1
    exact ⟨b', by simp [hlt], hgraph'.trans hgraph, hfrozen'⟩
  · exact ⟨c, by rw [List.getElem?_set_ne hsame, hc], hgraph, hfrozen⟩

theorem Kept.write {m m' : Memory} {object : Nat} {g : Graph} (h : Kept m object g m')
    {builder other : Nat} {b : Builder} (hwriter : m'.writers[builder]? = some other)
    (hb : m'.objects[other]? = some b) (op : Operation) :
    Kept m object g (m'.write builder other op b) := by
  unfold Memory.write
  split
  · next hclears =>
      refine ⟨h.objects_append _, ?_⟩
      intro i hi
      -- a builder that clears its graph did not write to the frozen object
      have hne : builder ≠ i := by
        rintro rfl
        obtain ⟨c, hc, -, hfrozen⟩ := h.frozen
        obtain rfl := Option.some.inj (hwriter.symm.trans (h.writers builder hi))
        obtain rfl := Option.some.inj (hb.symm.trans hc)
        rw [hclears.2] at hfrozen
        cases hfrozen
      rw [List.getElem?_set_ne hne]
      exact h.writers i hi
  · exact ⟨h.objects_set hb (Builder.perform_kept op), h.writers⟩

/-- **One event** leaves a frozen object and its builders as they are. -/
theorem Kept.step {m m' : Memory} {object : Nat} {g : Graph} (h : Kept m object g m')
    (e : Event) : Kept m object g (m'.step e) := by
  cases e with
  | create now =>
      refine ⟨h.objects_append _, ?_⟩
      intro i hi
      have hi' := h.writers i hi
      simp only [Memory.step]
      grind
  | perform builder op =>
      simp only [Memory.step]
      split
      · exact h
      · next other hwriter =>
          split
          · exact h
          · next b hb => exact h.write hwriter hb op
  | swap other =>
      simp only [Memory.step]
      split
      · exact h
      · next b hb => exact ⟨h.objects_set hb fun _ => ⟨rfl, rfl⟩, h.writers⟩
  | clear => exact ⟨h.objects_append _, h.writers⟩

/-- **A history** leaves a frozen object and its builders as they are. -/
theorem Kept.run {m m' : Memory} {object : Nat} {g : Graph} (h : Kept m object g m')
    (events : List Event) : Kept m object g (m'.run events) := by
  induction events generalizing m' with
  | nil => exact h
  | cons e events ih => exact ih (h.step e)

/-! ## the published object -/

/-- The object that the store publishes is there, and frozen. -/
def Settled (m : Memory) : Prop := ∃ b, m.objects[m.published]? = some b ∧ b.frozen = true

/-- Builders do not publish. -/
theorem published_perform (m : Memory) (builder : Nat) (op : Operation) :
    (m.step (.perform builder op)).published = m.published := by
  simp only [step, write]
  repeat' split
  all_goals rfl

theorem Settled.step {m : Memory} (h : m.Settled) (e : Event) : (m.step e).Settled := by
  obtain ⟨b, hb, hfrozen⟩ := h
  have hkept : Kept m m.published b.graph m := ⟨⟨b, hb, rfl, hfrozen⟩, fun _ hi => hi⟩
  obtain ⟨c, hc, -, hc'⟩ := (hkept.step e).frozen
  cases e with
  | create now => exact ⟨c, hc, hc'⟩
  | perform builder op => exact ⟨c, by rw [published_perform, hc], hc'⟩
  | swap object =>
      cases hobject : m.objects[object]? with
      | none => exact ⟨b, by simp [Memory.step, hobject, hb], hfrozen⟩
      | some b =>
          obtain ⟨hlt, hget⟩ := List.getElem?_eq_some_iff.mp hobject
          exact ⟨b.freeze, by simp [Memory.step, hlt, hget, Store.swap], rfl⟩
  | clear => exact ⟨_, List.getElem?_concat_length, rfl⟩

/-- **What the store publishes is frozen**, after any history. -/
theorem Settled.run {m : Memory} (h : m.Settled) (events : List Event) :
    (m.run events).Settled := by
  induction events generalizing m with
  | nil => exact h
  | cons e events ih => exact ih (h.step e)

theorem settled_initial : initial.Settled := ⟨_, rfl, rfl⟩

/-! ## shared and held by value -/

/-- A builder does to its object what it does to a graph of its own. -/
theorem builder?_perform {m : Memory} {builder : Nat} {b : Builder}
    (hb : m.builder? builder = some b) (op : Operation) :
    (m.step (.perform builder op)).builder? builder = some (op.perform.run b).2 := by
  obtain ⟨object, hwriter, hobject⟩ := Option.bind_eq_some_iff.mp hb
  have hlt : builder < m.writers.length := (List.getElem?_eq_some_iff.mp hwriter).1
  have hlt' : object < m.objects.length := (List.getElem?_eq_some_iff.mp hobject).1
  simp only [step, hwriter, hobject, write]
  split
  · simp [builder?, hlt]
  · simp [builder?, hwriter, hlt']

/-- The store publishes an object as it publishes a graph that is handed over. -/
theorem store_swap {m : Memory} {object : Nat} {b : Builder} (hb : m.objects[object]? = some b) :
    (m.step (.swap object)).store = (m.store.swap b).2.1 := by
  obtain ⟨hlt, hget⟩ := List.getElem?_eq_some_iff.mp hb
  simp [step, store, graph?, hlt, hget, Store.swap, Builder.freeze]

theorem store_clear (m : Memory) : (m.step .clear).store = m.store.clear := by
  simp [step, store, graph?, Store.clear, Builder.freeze]

/-! ## frozen for good -/

/-- The events that freeze an object: its builder freezes it, or the store publishes it. -/
def Freezes (m : Memory) (object : Nat) : Event → Prop
  | .perform builder .freeze => m.writers[builder]? = some object
  | .swap other => other = object
  | _ => False

theorem step_of_freezes {m : Memory} {object : Nat} {b : Builder} {e : Event}
    (hb : m.objects[object]? = some b) (he : m.Freezes object e) :
    (m.step e).objects = m.objects.set object b.freeze ∧ (m.step e).writers = m.writers := by
  unfold Freezes at he
  split at he
  · simp only [step, he, hb]
    rw [write, if_neg (by simp [Operation.clears])]
    exact ⟨rfl, rfl⟩
  · subst he
    simp only [step, hb]
    exact ⟨rfl, trivial⟩
  · exact he.elim

theorem Kept.of_freezes {m : Memory} {object : Nat} {b : Builder} {e : Event}
    (hb : m.objects[object]? = some b) (he : m.Freezes object e) :
    Kept m object b.graph (m.step e) := by
  obtain ⟨hobjects, hwriters⟩ := step_of_freezes hb he
  have hlt : object < m.objects.length := (List.getElem?_eq_some_iff.mp hb).1
  exact ⟨⟨b.freeze, by simp [hobjects, hlt], rfl, rfl⟩, by simp [hwriters]⟩

/-- **Frozen for good**: a refused operation leaves the builder as it was.  Once a graph is frozen
by its builder or published, it is the same graph after any events on builders and on the store, so
all that is looked up in it stays the same, and its builders refuse every operation that writes.  In
particular the snapshot that a query takes at any time never changes. -/
theorem frozen_for_good :
    (∀ (op : Operation) (b : Builder) (e : GraphError),
      (op.perform.run b).1 = .error e → (op.perform.run b).2 = b) ∧
    (∀ (m : Memory) (object : Nat) (b : Builder) (e : Event), m.objects[object]? = some b →
      m.Freezes object e → ∀ events, let m' := (m.step e).run events
        m'.graph? object = some b.graph ∧
          ∀ builder : Nat, m.writers[builder]? = some object →
            ∃ c, m'.builder? builder = some c ∧ c.graph = b.graph ∧
              ∀ op : Operation, op.Writes → op.perform.run c = (.error .frozen, c)) ∧
    ∀ before after : List Event, let m := initial.run before
      (m.run after).graph? m.published = some m.store.snapshot := by
  refine ⟨fun op b e => Builder.perform_error, ?_, ?_⟩
  · intro m object b e hb he events
    have hkept : Kept m object b.graph ((m.step e).run events) := (Kept.of_freezes hb he).run events
    obtain ⟨c, hc, hgraph, hfrozen⟩ := hkept.frozen
    refine ⟨by simp [graph?, hc, hgraph], ?_⟩
    intro builder hbuilder
    refine ⟨c, ?_, hgraph, fun op hop => Builder.perform_frozen op hop hfrozen⟩
    simp [builder?, hkept.writers builder hbuilder, hc]
  · intro before after m
    obtain ⟨b, hb, hfrozen⟩ : m.Settled := settled_initial.run before
    have hkept : Kept m m.published b.graph m := ⟨⟨b, hb, rfl, hfrozen⟩, fun _ hi => hi⟩
    obtain ⟨c, hc, hgraph, -⟩ := (hkept.run after).frozen
    simp [graph?, store, hb, hc, hgraph]

/-- A builder with one method. -/
def oneMethod : Memory :=
  initial.run [.create 0, .perform 0 (.fact (.method "run()"))]

theorem oneMethod_object : ∃ b, oneMethod.objects[1]? = some b ∧ b.graph.nodeCount = 1 := by
  refine ⟨_, rfl, ?_⟩
  simp [Operation.perform, Builder.ingest, Builder.run_map, Builder.upsertMethod,
    Builder.upsert_run_of_new, Builder.new, Text.isBlank, Text.isBlankChar, Symbol.key,
    Graph.nodeCount]

/-- The builder of the published graph goes on, and another one takes its place in the store. -/
def laterEvents : List Event :=
  [.perform 0 (.fact (.method "stop()")), .perform 0 .clear, .create 1,
    .perform 1 (.fact (.method "stop()")), .swap 2, .clear]

/-- After the graph was published its builder adds nothing and clears nothing. -/
theorem oneMethod_frozen_for_good :
    ∃ b c, oneMethod.objects[1]? = some b ∧ b.graph.nodeCount = 1 ∧
      ((oneMethod.step (.swap 1)).run laterEvents).builder? 0 = some c ∧
      c.graph = b.graph ∧ Operation.clear.perform.run c = (.error .frozen, c) := by
  obtain ⟨b, hb, hcount⟩ := oneMethod_object
  obtain ⟨-, hkept, -⟩ := frozen_for_good
  obtain ⟨-, hwriters⟩ := hkept oneMethod 1 b (.swap 1) hb rfl laterEvents
  obtain ⟨c, hc, hgraph, hrefused⟩ := hwriters 0 rfl
  exact ⟨b, c, hb, hcount, hc, hgraph, hrefused .clear trivial⟩

end Memory

end Ripple
