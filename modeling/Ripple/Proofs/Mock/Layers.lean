import Ripple.Mock.Project
import Ripple.Proofs.Arranged

/-!
# Ripple.Proofs.Mock.Layers

The service methods of a plan, their layers and their names.

A plan knows its service methods by arithmetic.  `registry` lists them, class by class; the service
methods of a layer, which are found by its size and their place in it, are those of the list that
have this layer (`filter_registry`).  What statements say of a service method or an accessor are two
names, and they tell which one is meant (`eq_of_names_eq`, `Refers.eq_of_key_eq`).
-/

namespace Ripple.Mock

/-! ## service methods -/

namespace Plan

variable {p : Plan}

/-- The service methods in order. -/
def registry (p : Plan) : List Service := (List.range p.services).map p.service

theorem mem_registry {m : Service} : m ∈ p.registry ↔ ∃ i < p.services, p.service i = m := by
  simp [registry]

/-- A class and a number say which service method is meant. -/
theorem eq_of_mem_registry {m m' : Service} (h : m ∈ p.registry) (h' : m' ∈ p.registry)
    (hclass : m.classNumber = m'.classNumber) (hnumber : m.number = m'.number) : m = m' := by
  obtain ⟨i, -, rfl⟩ := mem_registry.mp h
  obtain ⟨j, -, rfl⟩ := mem_registry.mp h'
  have hsame : i = j := by
    rw [← Nat.div_add_mod i p.methods.toNat, ← Nat.div_add_mod j p.methods.toNat]
    simp only [service] at hclass hnumber
    rw [hclass, hnumber]
  rw [hsame]

/-- A service method is one of an existing class, and has a number there. -/
theorem bounds_of_mem_registry {m : Service} (h : m ∈ p.registry) :
    (m.classNumber : Int) < p.classes ∧ (m.number : Int) < p.methods := by
  obtain ⟨i, hi, rfl⟩ := mem_registry.mp h
  have hmethods : 0 < p.methods.toNat := by
    refine Nat.pos_of_ne_zero fun hzero => ?_
    simp [services, hzero] at hi
  exact ⟨Int.lt_toNat.mp ((Nat.div_lt_iff_lt_mul hmethods).mpr hi),
    Int.lt_toNat.mp (Nat.mod_lt i hmethods)⟩

/-- The service methods, class by class. -/
theorem registry_eq (p : Plan) :
    p.registry = (List.range p.classes.toNat).flatMap fun c =>
      (List.range p.methods.toNat).map fun k => p.service (c * p.methods.toNat + k) := by
  rw [registry, services]
  induction p.classes.toNat with
  | zero => simp
  | succ n ih => simp [Nat.succ_mul, List.range_add, List.range_succ, ih]

/-! ## layers -/

/-- A layer has a place as long as the count through all layers has not run out. -/
theorem lt_layerSize_iff {layer k : Nat} (h : layer < p.layers) :
    k < p.layerSize layer ↔ layer + k * p.layers < p.services := by
  have hlayers : p.layers = p.depth.toNat + 1 := rfl
  rw [layerSize, Nat.lt_iff_add_one_le, Nat.le_div_iff_mul_le (by omega), Nat.succ_mul]
  omega

theorem layer_layerService {layer k : Nat} (h : layer < p.layers) :
    (p.layerService layer k).layer = layer := by
  simp [layerService, service, Nat.mod_eq_of_lt h]

theorem layerService_mem {layer k : Nat} (h : layer < p.layers) (hk : k < p.layerSize layer) :
    p.layerService layer k ∈ p.registry :=
  mem_registry.mpr ⟨_, (lt_layerSize_iff h).mp hk, rfl⟩

/-- The places that are dealt to a layer come round with the layers. -/
theorem filter_range_services {layer : Nat} (h : layer < p.layers) :
    (List.range p.services).filter (fun i => i % p.layers = layer) =
      (List.range (p.layerSize layer)).map fun k => layer + k * p.layers := by
  have hpos : 0 < p.layers := Nat.succ_pos _
  have hdealt : Arranged id ((List.range p.services).filter fun i => i % p.layers = layer) :=
    List.pairwise_lt_range.filter _
  have hcounted :
      Arranged id ((List.range (p.layerSize layer)).map fun k => layer + k * p.layers) := by
    refine List.pairwise_map.mpr (List.pairwise_lt_range.imp fun hlt => ?_)
    exact Nat.add_lt_add_left (Nat.mul_lt_mul_of_pos_right hlt hpos) layer
  -- both lists ascend, so it is enough that they have the same members
  refine hdealt.ext hcounted ?_ ?_
  · intro i hi
    simp only [List.mem_filter, List.mem_range, decide_eq_true_eq] at hi
    obtain ⟨hi, rfl⟩ := hi
    have hi' : i % p.layers + i / p.layers * p.layers = i := by
      rw [Nat.mul_comm, Nat.mod_add_div]
    exact List.mem_map.mpr ⟨i / p.layers,
      List.mem_range.mpr ((lt_layerSize_iff h).mpr (hi'.symm ▸ hi)), hi'⟩
  · intro i hi
    obtain ⟨k, hk, rfl⟩ := List.mem_map.mp hi
    have hlt := (lt_layerSize_iff h).mp (List.mem_range.mp hk)
    simp [hlt, Nat.mod_eq_of_lt h]

/-- The places of a layer, in order, are the service methods that were dealt to it. -/
theorem filter_registry {layer : Nat} (h : layer < p.layers) :
    p.registry.filter (·.layer = layer) =
      (List.range (p.layerSize layer)).map (p.layerService layer) := by
  have hservice : (fun i => decide ((p.service i).layer = layer)) =
      fun i => decide (i % p.layers = layer) := rfl
  rw [registry, List.filter_map, Function.comp_def, hservice, filter_range_services h, List.map_map]
  rfl

end Plan

/-! ## names -/

theorem numbered_inj {word : String} {width n n' : Nat}
    (h : numbered word width n = numbered word width n') : n = n' := by
  -- the digits are read back; zeros in front do not count
  have hread : ∀ n, Nat.ofDigitChars 10
      (List.replicate (width - (toString n).length) '0' ++ (toString n).toList) 0 = n := by
    intro n
    rw [Nat.ofDigitChars_append, Nat.ofDigitChars_replicate_zero, Nat.toString_eq_ofList_toDigits,
      String.toList_ofList, Nat.mul_zero, Nat.ofDigitChars_ten_toDigits]
  have hdigits : List.replicate (width - (toString n).length) '0' ++ (toString n).toList =
      List.replicate (width - (toString n').length) '0' ++ (toString n').toList := by
    simpa [numbered, Text.padLeft, ← String.toList_inj] using h
  rw [← hread n, hdigits, hread n']

theorem serviceName_ne_accessorSuffix (m f : Nat) : serviceName m ≠ accessorSuffix f := by
  simp [serviceName, accessorSuffix, numbered, ← String.toList_inj]

/-- The names of a service method and its class. -/
def Service.names (m : Service) : String × String := (className m.classNumber, serviceName m.number)

theorem Plan.eq_of_names_eq {p : Plan} {m m' : Service} (h : m ∈ p.registry) (h' : m' ∈ p.registry)
    (hnames : m.names = m'.names) : m = m' := by
  obtain ⟨hclass, hnumber⟩ := Prod.mk.inj hnames
  exact eq_of_mem_registry h h' (numbered_inj hclass) (numbered_inj hnumber)

/-- What tells statements of a body apart: the names of a class and of a member, and whether the
statement writes. -/
def Statement.key : Statement → String × String × Bool
  | call t => (className t.classNumber, serviceName t.number, false)
  | read c f => (className c, accessorSuffix f, false)
  | write c f => (className c, accessorSuffix f, true)

/-! ## references -/

/-- A statement of a method in a layer refers to something that is generated: a call to a service
method of an existing class and of a deeper layer, an access to one of the fields of an existing
class. -/
def Plan.Refers (p : Plan) (layer : Nat) : Statement → Prop
  | .call t => t ∈ p.registry ∧ (t.classNumber : Int) < p.classes ∧ (t.number : Int) < p.methods ∧
      layer < t.layer ∧ (t.layer : Int) ≤ p.depth
  | .read c f | .write c f => (c : Int) < p.classes ∧ (f : Int) < p.fields

theorem Plan.Refers.eq_of_key_eq {p : Plan} {layer : Nat} {a b : Statement} (ha : p.Refers layer a)
    (hb : p.Refers layer b) (hkey : a.key = b.key) : a = b := by
  have hmember (m f : Nat) : accessorSuffix f ≠ serviceName m :=
    (serviceName_ne_accessorSuffix m f).symm
  cases a <;> cases b <;>
    simp only [Statement.key, Prod.mk.injEq, serviceName_ne_accessorSuffix, hmember, and_false,
      and_true, reduceCtorEq] at hkey
  case call.call t t' => rw [eq_of_names_eq ha.1 hb.1 (Prod.ext hkey.1 hkey.2)]
  case read.read => rw [numbered_inj hkey.1, numbered_inj hkey.2]
  case write.write => rw [numbered_inj hkey.1, numbered_inj hkey.2]

end Ripple.Mock
