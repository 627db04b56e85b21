import Ripple.Proofs.Java.Shadowing

/-!
# Ripple.Proofs.Java.Visibility

What the visible fields and the variables of a scope change in what is found in a body.

`Tree.candidates` lists the constructs that are accesses as soon as every name means a field: bare
names and selections, each with its access, in source order.  It knows no scope.  Whether a
candidate is a read or a write is a matter of its place, which knows none either; so all that a
scope can do is to leave candidates out:

* `calls_congr`: the calls are the same in all scopes of one class;
* `reads_eq`, `writes_eq`: the reads and writes in a scope are the candidates that it keeps;
* `kept_of_visible`: a scope that sees every name and has no variables keeps all of them;
* `filterMap_selected?_kept`: every scope keeps the selections.

`scope_only_deletes` puts them together.
-/

namespace Ripple.Java

/-- The place of a tree whose value is assigned or is used. -/
def Place.ofTarget (asTarget : Bool) : Place := if asTarget then .target else .value

/-- What a scope keeps of some accesses, each with the construct that it comes from: all but those
of bare names that are not visible fields or are variables. -/
def BodyScope.kept (s : BodyScope) (es : List (Tree × Access)) : List (Tree × Access) :=
  es.filter fun e => ∀ id ∈ e.1.bare?, id ∈ s.fields ∧ id ∉ s.locals

namespace Tree

section
variable (s : BodyScope) (asTarget : Bool) (t : Tree)

/-- The calls that are found in a tree. -/
def calls : List Call := (t.events s asTarget).filterMap Event.call?

/-- The reads that are found in a tree. -/
def reads : List Access := (t.events s asTarget).filterMap Event.read?

/-- The writes that are found in a tree. -/
def writes : List Access := (t.events s asTarget).filterMap Event.write?

end

/-! ## candidates -/

/-- The access that a construct is if every name means a field. -/
def candidate? : Tree → Option Access
  | .name _ id line => some ⟨id, line⟩
  | t => t.selected?

/-- The constructs in a place of a tree that are accesses if every name means a field, each with its
access, in source order. -/
def candidates (asTarget : Bool) (p : Place) (t : Tree) : List (Tree × Access) :=
  ((t.occurrences (.ofTarget asTarget)).filter (·.1 = p)).filterMap fun c =>
    c.2.candidate?.map (c.2, ·)

/-- A construct is an access in a scope when it is one anyway and the scope keeps its name, if it is
a bare one. -/
theorem access?_eq (s : BodyScope) (t : Tree) :
    t.access? s =
      if ∀ id ∈ t.bare?, id ∈ s.fields ∧ id ∉ s.locals then t.candidate? else none := by
  cases t with
  | name role id line => simp [access?, candidate?, bare?, BodyScope.isField]
  | _ => simp [access?, candidate?, bare?, selected?]

/-- The accesses in a place are the candidates there that the scope keeps. -/
theorem map_kept_candidates (s : BodyScope) (asTarget : Bool) (p : Place) (t : Tree) :
    (s.kept (t.candidates asTarget p)).map (·.2) =
      ((t.occurrences (.ofTarget asTarget)).filter (·.1 = p)).filterMap fun c => c.2.access? s := by
  rw [BodyScope.kept, candidates, List.filter_filterMap, List.map_filterMap]
  refine List.filterMap_congr fun c _ => ?_
  rw [access?_eq]
  cases c.2.candidate? with
  | none => simp
  | some a =>
      rw [Option.map_some, Option.filter_some]
      by_cases hkept : ∀ id ∈ c.2.bare?, id ∈ s.fields ∧ id ∉ s.locals
      · rw [if_pos hkept, if_pos (decide_eq_true hkept), Option.map_some]
      · rw [if_neg hkept, if_neg (by simpa using hkept), Option.map_none]

/-! ## runs in a scope -/

section
variable {s : BodyScope} {asTarget : Bool} {t : Tree}

theorem events_eq :
    t.events s asTarget =
      (t.occurrences (.ofTarget asTarget)).filterMap fun c => c.2.own? s c.1 := by
  rw [← eventsAt_eq]
  cases asTarget <;> rfl

/-- Of a scope, only the class decides which calls are found. -/
theorem calls_congr {s' : BodyScope} (h : s.className = s'.className) :
    t.calls s asTarget = t.calls s' asTarget := by
  rw [calls, calls, events_eq, events_eq, filterMap_own? (own?_call? s),
    filterMap_own? (own?_call? s'), h]

theorem reads_eq :
    t.reads s asTarget = (s.kept (t.candidates asTarget .value)).map (·.2) := by
  rw [reads, events_eq, filterMap_own? (own?_read? s), map_kept_candidates]

theorem writes_eq :
    t.writes s asTarget = (s.kept (t.candidates asTarget .target)).map (·.2) := by
  rw [writes, events_eq, filterMap_own? (own?_write? s), map_kept_candidates]

/-- A scope without variables in which every name of the tree is visible leaves nothing out. -/
theorem kept_of_visible (hlocals : s.locals = [])
    (hall : ∀ c ∈ t.occurrences (.ofTarget asTarget), ∀ id ∈ c.2.bare?, id ∈ s.fields) (p : Place) :
    s.kept (t.candidates asTarget p) = t.candidates asTarget p := by
  refine List.filter_eq_self.mpr fun e he => decide_eq_true fun id hid => ?_
  obtain ⟨c, hc, hentry⟩ := List.mem_filterMap.mp he
  obtain ⟨a, -, rfl⟩ := Option.map_eq_some_iff.mp hentry
  exact ⟨hall c (List.mem_filter.mp hc).1 id hid, by simp [hlocals]⟩

/-- A selection is no bare name, so that no scope leaves it out. -/
theorem filterMap_selected?_kept (es : List (Tree × Access)) :
    (s.kept es).filterMap (·.1.selected?) = es.filterMap (·.1.selected?) := by
  rw [BodyScope.kept, List.filterMap_filter]
  refine List.filterMap_congr fun e _ => ?_
  cases e.1 <;> simp [selected?, bare?]

end

/-- **Visibility**: on every tree, whether its value is used or assigned, the calls that are found
are the same whatever fields are visible and whatever variables there are.  When every name of the
tree is visible and there are no variables, the reads and the writes are all candidates in their
places.  In any other scope they are the same lists, in the same order, without exactly the
candidates that are bare names and not visible, or the names of variables; selections are never left
out. -/
theorem scope_only_deletes (t : Tree) (asTarget : Bool) (s : BodyScope)
    (fields locals all : List String)
    (hall : ∀ c ∈ t.occurrences (.ofTarget asTarget), ∀ id ∈ c.2.bare?, id ∈ all) :
    t.calls { s with fields, locals } asTarget = t.calls s asTarget ∧
    (t.reads { s with fields := all, locals := [] } asTarget =
        (t.candidates asTarget .value).map (·.2) ∧
      t.reads s asTarget = (s.kept (t.candidates asTarget .value)).map (·.2)) ∧
    (t.writes { s with fields := all, locals := [] } asTarget =
        (t.candidates asTarget .target).map (·.2) ∧
      t.writes s asTarget = (s.kept (t.candidates asTarget .target)).map (·.2)) ∧
    ∀ p, (s.kept (t.candidates asTarget p)).filterMap (·.1.selected?) =
      (t.candidates asTarget p).filterMap (·.1.selected?) := by
  refine ⟨calls_congr rfl, ⟨?_, reads_eq⟩, ⟨?_, writes_eq⟩, fun p => filterMap_selected?_kept _⟩
  · rw [reads_eq, kept_of_visible rfl hall]
  · rw [writes_eq, kept_of_visible rfl hall]

/-- The body of `(x) = this.y + y + z; try (R r = f(x.y)) {}`. -/
def mixedBody : Tree :=
  .group .block
    [.assign (.paren (.name .use "x" 1))
      (.group .operation
        [.select (.group .operation []) "y" 1, .name .use "y" 1, .name .use "z" 1]),
      .group .statement
        [.variable (.resource 2) "r" (some (.invoke none "f" 2 [.select (.name .use "x" 2) "y" 2])),
          .group .block []]]

/-- With the fields `x` and `y` and a variable `y`, the bare `y` and `z` and the name of the
resource are left out; the selections of `y` stay, the first of them with the same name and line as
the bare `y` behind it. -/
theorem mixedBody_scope_only_deletes :
    (∀ c ∈ mixedBody.occurrences .value, ∀ id ∈ c.2.bare?, id ∈ ["x", "y", "z", "r"]) ∧
      mixedBody.calls ⟨"A", [], ["x"]⟩ false = mixedBody.calls ⟨"A", ["x", "y"], ["y"]⟩ false ∧
      mixedBody.reads ⟨"A", ["x", "y", "z", "r"], []⟩ false =
        [⟨"y", 1⟩, ⟨"y", 1⟩, ⟨"z", 1⟩, ⟨"r", 2⟩, ⟨"y", 2⟩, ⟨"x", 2⟩] ∧
      mixedBody.reads ⟨"A", ["x", "y"], ["y"]⟩ false = [⟨"y", 1⟩, ⟨"y", 2⟩, ⟨"x", 2⟩] ∧
      mixedBody.writes ⟨"A", ["x", "y"], ["y"]⟩ false = [⟨"x", 1⟩] := by
  have hall : ∀ c ∈ mixedBody.occurrences .value, ∀ id ∈ c.2.bare?, id ∈ ["x", "y", "z", "r"] := by
    decide +kernel
  obtain ⟨hcalls, ⟨hfull, hreads⟩, ⟨-, hwrites⟩, -⟩ :=
    scope_only_deletes mixedBody false ⟨"A", ["x", "y"], ["y"]⟩ [] ["x"] ["x", "y", "z", "r"]
      hall
  refine ⟨hall, hcalls, hfull.trans ?_, hreads.trans ?_, hwrites.trans ?_⟩
  · decide +kernel
  · decide +kernel
  · decide +kernel

end Tree

end Ripple.Java
