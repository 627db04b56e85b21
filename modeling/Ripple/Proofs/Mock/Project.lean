import Ripple.Proofs.Mock.Draw
import Ripple.Proofs.Mock.Layers

/-!
# Ripple.Proofs.Mock.Project

Projects that are drawn from any source.

Each draw of a valid plan is described once (`gives_drawCall` to `gives_drawFiles`): it answers,
its lookups are inside their tables, and its statements refer to what is generated.  The one bound
that a valid plan does not keep positive is that of the number of statements, which comes from the
density.  So the plan alone decides whether a project is generated (`generateFrom_cases`).
-/

namespace Ripple.Mock

variable {σ : Type}

namespace Plan

variable {p : Plan} (s : Source σ)

theorem isValid_iff : p.isValid = true ↔ 0 < p.classes ∧ 0 < p.methods ∧ 0 < p.depth := by
  simp [isValid, and_assoc]

/-! ## statements -/

theorem gives_layerAt {layer : Nat} (h : layer < p.layers) :
    Gives (p.layerAt layer : Draw σ Nat) (· = layer) :=
  gives_entry id h

theorem gives_drawCallTo {layer target : Nat} (hlayer : layer < target)
    (htarget : target < p.layers) (hdepth : (target : Int) ≤ p.depth) :
    Gives (p.drawCallTo s target) fun o => ∀ a ∈ o, p.Refers layer a := by
  rw [drawCallTo]
  split
  · exact .pure (by simp)
  · next hsize =>
      refine (gives_below s (by omega)).bind fun k hk => ?_
      have hk' : k < p.layerSize target := by omega
      refine (gives_entry (p.layerService target) hk').bind fun t ht => .pure ?_
      have hmem := layerService_mem htarget hk'
      obtain ⟨hclass, hnumber⟩ := bounds_of_mem_registry hmem
      rw [← ht] at hmem hclass hnumber
      have hlayer' : t.layer = target := ht ▸ layer_layerService htarget
      simpa [Refers, hlayer'] using ⟨hmem, hclass, hnumber, hlayer, hdepth⟩

theorem gives_drawCall {layer : Nat} (h : (layer : Int) < p.depth) :
    Gives (p.drawCall s layer) fun o => ∀ a ∈ o, p.Refers layer a := by
  have hlayers : p.layers = p.depth.toNat + 1 := rfl
  rw [drawCall]
  refine (gives_layerAt (by omega)).bind fun next hnext => ?_
  refine (gives_chance s nextLayerShare).bind fun near _ => ?_
  split
  · exact gives_drawCallTo s (by omega) (by omega) (by omega)
  · refine (gives_below s (by omega)).bind fun k hk => ?_
    refine (gives_layerAt (by omega)).bind fun target htarget => ?_
    exact gives_drawCallTo s (by omega) (by omega) (by omega)

theorem gives_drawAccess (hclasses : 0 < p.classes) (layer : Nat) :
    Gives (p.drawAccess s) fun o => ∀ a ∈ o, p.Refers layer a := by
  rw [drawAccess]
  split
  · exact .pure (by simp)
  · next hfields =>
      refine (gives_below s hclasses).bind fun c hc => ?_
      refine (gives_below s (by omega)).bind fun f hf => ?_
      refine (gives_below s (by decide)).bind fun flip _ => ?_
      split
      · exact .pure (by simpa [Refers] using ⟨hc, hf⟩)
      · exact .pure (by simpa [Refers] using ⟨hc, hf⟩)

theorem gives_drawStatement (hclasses : 0 < p.classes) (layer : Nat) :
    Gives (p.drawStatement s layer) fun o => ∀ a ∈ o, p.Refers layer a := by
  rw [drawStatement]
  split
  · next hlayer =>
      refine (gives_chance s callShare).bind fun isCall _ => ?_
      split
      · exact gives_drawCall s (by omega)
      · exact gives_drawAccess s hclasses layer
  · exact gives_drawAccess s hclasses layer

/-! ## bodies -/

/-- The statements of a method in a layer: each refers to something that is generated, and no two
have the same class, member and direction. -/
structure IsBody (p : Plan) (layer : Nat) (body : List Statement) : Prop where
  refers : ∀ a ∈ body, p.Refers layer a
  nodup : (body.map Statement.key).Nodup

/-- A statement that is not there yet may be added. -/
theorem IsBody.add {layer : Nat} {body : List Statement} (h : p.IsBody layer body) {a : Statement}
    (ha : p.Refers layer a) : p.IsBody layer (if body.contains a then body else body ++ [a]) := by
  split
  · exact h
  · next hnew =>
      have hnew' : a ∉ body := by simpa using hnew
      have hkey : a.key ∉ body.map Statement.key := by
        intro hmem
        obtain ⟨b, hb, hsame⟩ := List.mem_map.mp hmem
        exact hnew' ((h.refers b hb).eq_of_key_eq ha hsame ▸ hb)
      refine ⟨List.forall_mem_append.mpr ⟨h.refers, by simpa using ha⟩, ?_⟩
      rw [List.map_append, List.map_singleton]
      exact h.nodup.append (by simp) (by simpa using hkey)

theorem gives_drawStatements (hclasses : 0 < p.classes) (layer n : Nat) {body : List Statement}
    (h : p.IsBody layer body) : Gives (p.drawStatements s layer n body) (p.IsBody layer) := by
  induction n generalizing body with
  | zero => exact .pure h
  | succ n ih =>
      rw [drawStatements]
      refine (gives_drawStatement s hclasses layer).bind fun o ho => ?_
      cases o with
      | none => exact ih h
      | some a => exact ih (h.add (ho a rfl))

theorem gives_drawBody (hclasses : 0 < p.classes) (hbound : 0 < p.statementBound) (m : Service) :
    Gives (p.drawBody s m) (p.IsBody m.layer) := by
  refine (gives_below s hbound).bind fun n _ => ?_
  exact gives_drawStatements s hclasses m.layer (n + 1) ⟨by simp, by simp⟩

/-- Without a positive bound, no number of statements can be drawn. -/
theorem drawBody_run_of_nonpos (hbound : p.statementBound ≤ 0) (m : Service) (st : σ) :
    (p.drawBody s m).run st = (.error .emptyRange, st) :=
  run_bind_of_error (below_run_of_nonpos s hbound st)

/-! ## classes -/

/-- The service methods of a class, in order and with their statements. -/
structure IsClass (p : Plan) (c : Nat) (services : List (Service × List Statement)) : Prop where
  services_eq : services.map Prod.fst =
    (List.range p.methods.toNat).map fun k => p.service (c * p.methods.toNat + k)
  bodies : ∀ x ∈ services, p.IsBody x.1.layer x.2

/-- The service methods of a class are in the registry. -/
theorem place_lt_services {c k : Nat} (hc : c < p.classes.toNat) (hk : k < p.methods.toNat) :
    c * p.methods.toNat + k < p.services := by
  have hnext : (c + 1) * p.methods.toNat ≤ p.services := Nat.mul_le_mul_right _ hc
  rw [Nat.succ_mul] at hnext
  omega

/-- Service methods that were drawn one by one. -/
theorem bodies_of_forall₂ {place : Nat → Nat} {ks : List Nat}
    {services : List (Service × List Statement)}
    (h : List.Forall₂ (fun k x => x.1 = p.service (place k) ∧ p.IsBody x.1.layer x.2) ks services) :
    services.map Prod.fst = ks.map (fun k => p.service (place k)) ∧
      ∀ x ∈ services, p.IsBody x.1.layer x.2 := by
  induction h with
  | nil => exact ⟨rfl, by simp⟩
  | cons hx _ ih =>
      rw [List.map_cons, List.map_cons, hx.1, ih.1]
      exact ⟨rfl, List.forall_mem_cons.mpr ⟨hx.2, ih.2⟩⟩

theorem gives_drawClass (hclasses : 0 < p.classes) (hbound : 0 < p.statementBound) {c : Nat}
    (hc : c < p.classes.toNat) : Gives (p.drawClass s c) (p.IsClass c) := by
  have hturn : ∀ k ∈ List.range p.methods.toNat, Gives (do
      let m ← entry p.services p.service (c * p.methods.toNat + k)
      return (m, ← p.drawBody s m)) fun x =>
        x.1 = p.service (c * p.methods.toNat + k) ∧ p.IsBody x.1.layer x.2 := by
    intro k hk
    have hplace := place_lt_services hc (List.mem_range.mp hk)
    refine (gives_entry p.service hplace).bind fun m hm => ?_
    exact (gives_drawBody s hclasses hbound m).bind fun body hbody => .pure ⟨hm, hbody⟩
  refine (Gives.mapM hturn).imp fun services hservices => ?_
  obtain ⟨hmethods, hbodies⟩ := bodies_of_forall₂ hservices
  exact ⟨hmethods, hbodies⟩

theorem drawClass_run_of_nonpos (hmethods : 0 < p.methods) (hbound : p.statementBound ≤ 0) {c : Nat}
    (hc : c < p.classes.toNat) (st : σ) : (p.drawClass s c).run st = (.error .emptyRange, st) := by
  obtain ⟨n, hn⟩ : ∃ n, p.methods.toNat = n + 1 := ⟨p.methods.toNat - 1, by omega⟩
  have hplace : c * p.methods.toNat + 0 < p.services := place_lt_services hc (by omega)
  rw [drawClass, hn, List.range_succ_eq_map, List.mapM_cons, ← hn]
  refine run_bind_of_error ?_
  rw [run_bind, entry, if_pos hplace]
  exact run_bind_of_error (drawBody_run_of_nonpos s hbound _ st)

end Plan

/-! ## projects -/

/-- The classes of a project, each with its service methods and their statements. -/
abbrev Classes := List (List (Service × List Statement))

/-- The files of some classes. -/
def filesOf (p : Plan) (cs : List Nat) (classes : Classes) : List ProjectFile :=
  List.zipWith (fun c services => (classPath c, classSource c p.fields.toNat services)) cs classes

section

variable {p : Plan} (s : Source σ)

theorem gives_drawFiles (hclasses : 0 < p.classes) (hbound : 0 < p.statementBound) {cs : List Nat}
    (hcs : ∀ c ∈ cs, c < p.classes.toNat) :
    Gives (drawFiles p s cs) fun files =>
      ∃ classes, List.Forall₂ p.IsClass cs classes ∧ files = filesOf p cs classes := by
  induction cs with
  | nil => exact .pure ⟨[], .nil, rfl⟩
  | cons c cs ih =>
      obtain ⟨hc, hrest⟩ := List.forall_mem_cons.mp hcs
      refine (Plan.gives_drawClass s hclasses hbound hc).bind fun services hservices => ?_
      refine (ih hrest).bind fun files hfiles => .pure ?_
      obtain ⟨classes, hdrawn, rfl⟩ := hfiles
      exact ⟨services :: classes, .cons hservices hdrawn, rfl⟩

theorem drawFiles_run_of_nonpos (hclasses : 0 < p.classes) (hmethods : 0 < p.methods)
    (hbound : p.statementBound ≤ 0) (st : σ) :
    (drawFiles p s (List.range p.classes.toNat)).run st = (.error .emptyRange, st) := by
  obtain ⟨n, hn⟩ : ∃ n, p.classes.toNat = n + 1 := ⟨p.classes.toNat - 1, by omega⟩
  rw [hn, List.range_succ_eq_map, drawFiles]
  exact run_bind_of_error (Plan.drawClass_run_of_nonpos s hmethods hbound (by omega) st)

variable (start : σ)

theorem generateFrom_of_valid (hvalid : p.isValid = true) (hlayers : p.layers ≤ layerLimit) :
    generateFrom s start p =
      ((drawFiles p s (List.range p.classes.toNat)).run start).1.mapError .draw := by
  simp [generateFrom, hvalid, Nat.not_lt.mpr hlayers]

theorem generateFrom_of_pos (hvalid : p.isValid = true) (hlayers : p.layers ≤ layerLimit)
    (hbound : 0 < p.statementBound) :
    ∃ classes, List.Forall₂ p.IsClass (List.range p.classes.toNat) classes ∧
      generateFrom s start p = .ok (filesOf p (List.range p.classes.toNat) classes) := by
  obtain ⟨hclasses, -, -⟩ := Plan.isValid_iff.mp hvalid
  obtain ⟨files, st, hrun, classes, hdrawn, rfl⟩ :=
    gives_drawFiles s hclasses hbound (fun c hc => List.mem_range.mp hc) start
  exact ⟨classes, hdrawn, by rw [generateFrom_of_valid s start hvalid hlayers, hrun]; rfl⟩

theorem generateFrom_of_nonpos (hvalid : p.isValid = true) (hlayers : p.layers ≤ layerLimit)
    (hbound : p.statementBound ≤ 0) : generateFrom s start p = .error (.draw .emptyRange) := by
  obtain ⟨hclasses, hmethods, -⟩ := Plan.isValid_iff.mp hvalid
  rw [generateFrom_of_valid s start hvalid hlayers,
    drawFiles_run_of_nonpos s hclasses hmethods hbound start]
  rfl

/-- Whether a project is generated is known from the plan. -/
theorem generateFrom_cases (p : Plan) :
    (p.isValid = false ∧ generateFrom s start p = .error .notPositive) ∨
    (p.isValid = true ∧ layerLimit < p.layers ∧ generateFrom s start p = .error .tooManyLayers) ∨
    (p.isValid = true ∧ p.layers ≤ layerLimit ∧ p.statementBound ≤ 0 ∧
      generateFrom s start p = .error (.draw .emptyRange)) ∨
    (p.isValid = true ∧ p.layers ≤ layerLimit ∧ 0 < p.statementBound ∧
      ∃ classes, List.Forall₂ p.IsClass (List.range p.classes.toNat) classes ∧
        generateFrom s start p = .ok (filesOf p (List.range p.classes.toNat) classes)) := by
  cases hvalid : p.isValid with
  | false => exact .inl ⟨rfl, by simp [generateFrom, hvalid]⟩
  | true =>
      obtain hmany | hlayers := Nat.lt_or_ge layerLimit p.layers
      · exact .inr (.inl ⟨rfl, hmany, by simp [generateFrom, hvalid, hmany]⟩)
      · obtain hbound | hbound := Int.lt_or_le 0 p.statementBound
        · have hok := generateFrom_of_pos s start hvalid hlayers hbound
          exact .inr (.inr (.inr ⟨rfl, hlayers, hbound, hok⟩))
        · have herror := generateFrom_of_nonpos s start hvalid hlayers hbound
          exact .inr (.inr (.inl ⟨rfl, hlayers, hbound, herror⟩))

end

end Ripple.Mock
