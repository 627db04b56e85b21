import Ripple.Proofs.Mock.Project
import Mathlib.Data.List.Chain
import Mathlib.Logic.Relation

/-!
# Ripple.Proofs.Mock.Calls

The calls between the service methods of a generated project.

Statements call by name.  The names of a service method give its layer (`Plan.layerOf`), and a call
leads from a layer to a deeper one (`Plan.layerOf_lt_of_calls`).  So calls never come back, and a
path of calls has at most as many steps as there are layers below its start.
-/

namespace Ripple.Mock

variable {σ : Type}

/-- A service method calls another one, said with their names. -/
def Calls (classes : Classes) (x y : String × String) : Prop :=
  ∃ m body t, (m, body) ∈ classes.flatten ∧ .call t ∈ body ∧ m.names = x ∧ t.names = y

namespace Plan

variable {p : Plan}

/-- The layer of the service method with some names. -/
def layerOf (p : Plan) (x : String × String) : Nat :=
  ((p.registry.find? (·.names = x)).map (·.layer)).getD 0

theorem layerOf_names {m : Service} (h : m ∈ p.registry) : p.layerOf m.names = m.layer := by
  cases hfind : p.registry.find? (·.names = m.names) with
  | none => simpa using List.find?_eq_none.mp hfind m h
  | some m' =>
      have hnames : m'.names = m.names := by simpa using List.find?_some hfind
      have hsame := eq_of_names_eq (List.mem_of_find?_eq_some hfind) h hnames
      rw [layerOf, hfind, hsame]
      rfl

/-- The service methods of all classes are those of the registry, each with a body. -/
theorem services_of_classes {classes : Classes}
    (h : List.Forall₂ p.IsClass (List.range p.classes.toNat) classes) :
    classes.flatten.map Prod.fst = p.registry ∧
      ∀ x ∈ classes.flatten, p.IsBody x.1.layer x.2 := by
  rw [registry_eq]
  generalize List.range p.classes.toNat = cs at h
  induction h with
  | nil => exact ⟨rfl, by simp⟩
  | cons hclass _ ih =>
      rw [List.flatten_cons, List.flatMap_cons, List.map_append, hclass.services_eq, ih.1]
      exact ⟨rfl, List.forall_mem_append.mpr ⟨hclass.bodies, ih.2⟩⟩

variable {classes : Classes} {x y : String × String}

/-- A call leads to a deeper layer. -/
theorem layerOf_lt_of_calls (h : List.Forall₂ p.IsClass (List.range p.classes.toNat) classes)
    (hcalls : Calls classes x y) : p.layerOf x < p.layerOf y ∧ (p.layerOf y : Int) ≤ p.depth := by
  obtain ⟨hservices, hbodies⟩ := services_of_classes h
  obtain ⟨m, body, t, hm, ht, rfl, rfl⟩ := hcalls
  have hmem : m ∈ p.registry := hservices ▸ List.mem_map_of_mem hm
  obtain ⟨htarget, -, -, hlayer, hdepth⟩ := (hbodies (m, body) hm).refers (.call t) ht
  rw [layerOf_names hmem, layerOf_names htarget]
  exact ⟨hlayer, hdepth⟩

theorem layerOf_lt_of_transGen (h : List.Forall₂ p.IsClass (List.range p.classes.toNat) classes)
    (hcalls : Relation.TransGen (Calls classes) x y) : p.layerOf x < p.layerOf y := by
  induction hcalls with
  | single hcall => exact (layerOf_lt_of_calls h hcall).1
  | tail _ hcall ih => exact ih.trans (layerOf_lt_of_calls h hcall).1

/-- A path of calls that starts in a layer has as many calls as there are deeper layers, at most. -/
theorem length_le_of_isChain (h : List.Forall₂ p.IsClass (List.range p.classes.toNat) classes)
    {path : List (String × String)} (hpath : (x :: path).IsChain (Calls classes)) :
    path = [] ∨ (p.layerOf x + path.length : Int) ≤ p.depth := by
  induction path generalizing x with
  | nil => exact .inl rfl
  | cons y path ih =>
      obtain ⟨hcall, hrest⟩ := List.isChain_cons_cons.mp hpath
      obtain ⟨hlayer, hdepth⟩ := layerOf_lt_of_calls h hcall
      refine .inr ?_
      rw [List.length_cons]
      obtain rfl | hle := ih hrest
      · simp only [List.length_nil]
        omega
      · omega

end Plan

/-- **Calls descend**: a run of the generator never looks outside its tables, which hold the
service methods of a plan and, for each layer, those that were dealt to it.  In a project that is
generated, each service method is there once; its statements call service methods of deeper layers,
of existing classes, and access fields of existing classes, and no two of them have the same class,
member and direction.  So no service method leads back to itself, and no path of calls is longer
than the deepest layer. -/
theorem generated_calls_descend (s : Source σ) (start : σ) (p : Plan) :
    (∀ place size, generateFrom s start p ≠ .error (.draw (.outOfRange place size))) ∧
      (∀ layer < p.layers, p.registry.filter (·.layer = layer) =
        (List.range (p.layerSize layer)).map (p.layerService layer)) ∧
      ∀ files, generateFrom s start p = .ok files →
        ∃ classes : Classes, files = filesOf p (List.range p.classes.toNat) classes ∧
          classes.flatten.map Prod.fst = p.registry ∧
          (∀ m body, (m, body) ∈ classes.flatten →
            (∀ a ∈ body, p.Refers m.layer a) ∧ (body.map Statement.key).Nodup) ∧
          (∀ x, ¬ Relation.TransGen (Calls classes) x x) ∧
          ∀ path : List (String × String), path.IsChain (Calls classes) →
            (path.length : Int) ≤ p.depth + 1 := by
  refine ⟨?_, fun layer => Plan.filter_registry, ?_⟩
  · obtain ⟨-, h⟩ | ⟨-, -, h⟩ | ⟨-, -, -, h⟩ | ⟨-, -, -, classes, -, h⟩ :=
      generateFrom_cases s start p <;> simp [h]
  · intro files hfiles
    obtain ⟨-, h⟩ | ⟨-, -, h⟩ | ⟨-, -, -, h⟩ | ⟨hvalid, -, -, classes, hclasses, h⟩ :=
      generateFrom_cases s start p
    case inr.inr.inr =>
      rw [h] at hfiles
      obtain ⟨hservices, hbodies⟩ := Plan.services_of_classes hclasses
      obtain ⟨-, -, hdepth⟩ := Plan.isValid_iff.mp hvalid
      refine ⟨classes, (Except.ok.inj hfiles).symm, hservices, ?_, ?_, ?_⟩
      · exact fun m body hm => ⟨(hbodies _ hm).refers, (hbodies _ hm).nodup⟩
      · exact fun x hcycle => (Plan.layerOf_lt_of_transGen hclasses hcycle).false
      · intro path hpath
        cases path with
        | nil => rw [List.length_nil]; omega
        | cons x path =>
            rw [List.length_cons]
            obtain rfl | hle := Plan.length_le_of_isChain hclasses hpath
            · rw [List.length_nil]; omega
            · omega
    all_goals
      rw [h] at hfiles
      cases hfiles

/-- A plan with two classes, of two service methods each, in two layers. -/
def twoClasses : Plan := ⟨2, 1, 2, 1, 1, 7⟩

/-- The project has four service methods, and none that is called calls another one. -/
theorem twoClasses_descend :
    ∃ files classes, generate twoClasses = .ok files ∧
      files = filesOf twoClasses [0, 1] classes ∧
      classes.flatten.map Prod.fst = [⟨0, 0, 0⟩, ⟨0, 1, 1⟩, ⟨1, 0, 0⟩, ⟨1, 1, 1⟩] ∧
      (∀ x, ¬ Relation.TransGen (Calls classes) x x) ∧
      ∀ x y z, ¬ [x, y, z].IsChain (Calls classes) := by
  obtain ⟨classes, -, hok⟩ := generateFrom_of_pos Permuted.source (.ofSeed twoClasses.seed)
    (p := twoClasses) (by decide) (by decide) (by decide +kernel)
  obtain ⟨-, -, hfiles⟩ :=
    generated_calls_descend Permuted.source (.ofSeed twoClasses.seed) twoClasses
  obtain ⟨classes, hfiles, hservices, -, hacyclic, hpath⟩ := hfiles _ hok
  refine ⟨_, classes, hok, hfiles, hservices, hacyclic, fun x y z hchain => ?_⟩
  exact absurd (hpath _ hchain) (by simp [twoClasses])

end Ripple.Mock
