import Ripple.Proofs.Graph.Growth
import Ripple.Proofs.Java.Resolution
import Ripple.Proofs.Text.Search
import Mathlib.Data.List.Nodup

/-!
# Ripple.Proofs.Signature

A signature identifies a method: name and parameter types can be told from the text `name(T1,T2)`.

The types are joined with commas, and a type may hold commas itself, but only inside brackets.
From a comma of a type on, more brackets of some kind are closed than opened, up to some place;
from a comma between two types on, this happens nowhere (`Bracket.Opened`).  So the commas between
types are known from what follows them, and joining is injective (`join_inj`).
-/

namespace Ripple.Signature

/-! ## brackets -/

/-- A kind of brackets. -/
structure Bracket where
  opening : Char
  closing : Char
  deriving DecidableEq

/-- The brackets that types are written with. -/
def brackets : List Bracket := [⟨'<', '>'⟩, ⟨'(', ')'⟩, ⟨'[', ']'⟩, ⟨'\x7b', '\x7d'⟩]

namespace Bracket

/-- Every closing bracket has its opening bracket before it. -/
def Opened (k : Bracket) (w : List Char) : Prop :=
  ∀ p ∈ w.inits, p.count k.closing ≤ p.count k.opening

instance (k : Bracket) (w : List Char) : Decidable (k.Opened w) :=
  inferInstanceAs (Decidable (∀ p ∈ w.inits, p.count k.closing ≤ p.count k.opening))

/-- Every bracket has its partner. -/
def Balanced (k : Bracket) (w : List Char) : Prop :=
  k.Opened w ∧ w.count k.closing = w.count k.opening

instance (k : Bracket) (w : List Char) : Decidable (k.Balanced w) :=
  inferInstanceAs (Decidable (_ ∧ _))

/-- The place between two texts is inside two brackets that are partners. -/
def Encloses (k : Bracket) (a b : List Char) : Prop :=
  ∃ y ∈ a.tails, ∃ z ∈ b.inits,
    k.opening :: y <:+ a ∧ z ++ [k.closing] <+: b ∧ k.Balanced (y ++ z)

instance (k : Bracket) (a b : List Char) : Decidable (k.Encloses a b) :=
  inferInstanceAs (Decidable (∃ y ∈ a.tails, ∃ z ∈ b.inits,
    k.opening :: y <:+ a ∧ z ++ [k.closing] <+: b ∧ k.Balanced (y ++ z)))

variable {k : Bracket} {a b u v : List Char}

theorem Opened.append (hu : k.Opened u) (hv : k.Opened v) : k.Opened (u ++ v) := by
  intro p hp
  rw [List.mem_inits] at hp
  obtain hfront | ⟨q, rfl⟩ := List.prefix_or_prefix_of_prefix hp (List.prefix_append u v)
  · exact hu p ((List.mem_inits _ _).mpr hfront)
  · have hq := hv q ((List.mem_inits _ _).mpr ((List.prefix_append_right_inj u).mp hp))
    have hwhole := hu u ((List.mem_inits _ _).mpr List.prefix_rfl)
    rw [List.count_append, List.count_append]
    omega

/-- After a place inside brackets, more of them are closed than opened. -/
theorem Encloses.not_opened (h : k.Encloses a b) (hne : k.opening ≠ k.closing) (r : List Char) :
    ¬ k.Opened (b ++ r) := by
  obtain ⟨y, -, z, -, -, hclose, hopened, hcount⟩ := h
  intro hb
  have hz := hb (z ++ [k.closing])
    ((List.mem_inits _ _).mpr (hclose.trans (List.prefix_append b r)))
  have hy := hopened y ((List.mem_inits _ _).mpr (List.prefix_append y z))
  simp only [List.count_append, List.count_cons, List.count_nil, beq_self_eq_true, beq_iff_eq,
    if_neg hne.symm] at hz hcount
  simp only [if_true] at hz
  omega

end Bracket

theorem opening_ne_closing : ∀ k ∈ brackets, k.opening ≠ k.closing := by
  decide

/-! ## parameter types -/

/-- Commas stand only inside brackets that are partners. -/
def CommasEnclosed (t : String) : Prop :=
  ∀ a ∈ t.toList.inits, ∀ b ∈ t.toList.tails, t.toList = a ++ ',' :: b →
    ∃ k ∈ brackets, k.Encloses a b

instance (t : String) : Decidable (CommasEnclosed t) :=
  inferInstanceAs (Decidable (∀ a ∈ t.toList.inits, ∀ b ∈ t.toList.tails,
    t.toList = a ++ ',' :: b → ∃ k ∈ brackets, k.Encloses a b))

/-- A text that can stand between the commas of a signature. -/
structure IsTypeText (t : String) : Prop where
  ne_empty : t ≠ ""
  commas : CommasEnclosed t
  opened : ∀ k ∈ brackets, k.Opened t.toList

instance (t : String) : Decidable (IsTypeText t) :=
  decidable_of_iff (t ≠ "" ∧ CommasEnclosed t ∧ ∀ k ∈ brackets, k.Opened t.toList)
    ⟨fun h => ⟨h.1, h.2.1, h.2.2⟩, fun h => ⟨h.ne_empty, h.commas, h.opened⟩⟩

/-- What follows a comma of a type closes a bracket that it did not open. -/
theorem IsTypeText.not_opened {t : String} (h : IsTypeText t) {a b : List Char}
    (ht : t.toList = a ++ ',' :: b) (r : List Char) : ¬ ∀ k ∈ brackets, k.Opened (b ++ r) := by
  intro hopened
  have ha : a ∈ t.toList.inits := (List.mem_inits _ _).mpr (ht ▸ List.prefix_append a _)
  have hb : b ∈ t.toList.tails :=
    (List.mem_tails _ _).mpr (ht ▸ ⟨a ++ [','], by simp⟩)
  obtain ⟨k, hk, hencloses⟩ := h.commas a ha b hb ht
  exact hencloses.not_opened (opening_ne_closing k hk) r (hopened k hk)

/-- What can follow a type in a list of types. -/
def Continues (r : List Char) : Prop :=
  r = [] ∨ ∃ v, r = ',' :: v ∧ ∀ k ∈ brackets, k.Opened v

/-- A type takes nothing of what follows a shorter one: it would hold the comma between types. -/
theorem IsTypeText.eq_nil_of_continues {t : String} (h : IsTypeText t) {a c r : List Char}
    (ht : t.toList = a ++ c) (hr : Continues (c ++ r)) : c = [] := by
  cases c with
  | nil => rfl
  | cons x b =>
      obtain hnil | ⟨v, hcomma, hv⟩ := hr
      · cases hnil
      · rw [List.cons_append, List.cons.injEq] at hcomma
        obtain ⟨rfl, rfl⟩ := hcomma
        exact absurd hv (h.not_opened ht r)

/-- A type ends where nothing or a comma between types follows, and not before. -/
theorem IsTypeText.append_inj {t t' : String} (h : IsTypeText t) (h' : IsTypeText t')
    {r r' : List Char} (hr : Continues r) (hr' : Continues r')
    (heq : t.toList ++ r = t'.toList ++ r') : t = t' ∧ r = r' := by
  obtain ⟨c, hc, hrest⟩ | ⟨c, hc, hrest⟩ := List.append_eq_append_iff.mp heq
  · obtain rfl := h'.eq_nil_of_continues hc (hrest ▸ hr)
    exact ⟨String.toList_inj.mp (by simpa using hc.symm), hrest⟩
  · obtain rfl := h.eq_nil_of_continues hc (hrest ▸ hr')
    exact ⟨String.toList_inj.mp (by simpa using hc), hrest.symm⟩

/-! ## lists of types -/

/-- What follows the first type in a list of types. -/
def following (ps : List String) : List Char :=
  if ps = [] then [] else ',' :: (Text.join "," ps).toList

theorem toList_join_cons (t : String) (ps : List String) :
    (Text.join "," (t :: ps)).toList = t.toList ++ following ps := by
  cases ps <;> simp [Text.join, following]

theorem opened_join {ps : List String} (h : ∀ t ∈ ps, IsTypeText t) {k : Bracket}
    (hk : k ∈ brackets) : k.Opened (Text.join "," ps).toList := by
  have hcomma : ∀ k ∈ brackets, k.Opened [','] := by decide
  induction ps with
  | nil => simp [Text.join, Bracket.Opened]
  | cons t ps ih =>
      obtain ⟨ht, hps⟩ := List.forall_mem_cons.mp h
      rw [toList_join_cons, following]
      split
      · simpa using ht.opened k hk
      · exact (ht.opened k hk).append ((hcomma k hk).append (ih hps))

theorem continues_following {ps : List String} (h : ∀ t ∈ ps, IsTypeText t) :
    Continues (following ps) := by
  rw [following]
  split
  · exact .inl rfl
  · exact .inr ⟨_, rfl, fun k => opened_join h⟩

theorem join_cons_ne_empty {t : String} (ht : IsTypeText t) (ps : List String) :
    Text.join "," (t :: ps) ≠ "" := by
  intro hempty
  have hlist := congrArg String.toList hempty
  rw [toList_join_cons] at hlist
  exact ht.ne_empty (by simpa using (List.append_eq_nil_iff.mp hlist).1)

theorem join_inj {ps ps' : List String} (h : ∀ t ∈ ps, IsTypeText t) (h' : ∀ t ∈ ps', IsTypeText t)
    (heq : Text.join "," ps = Text.join "," ps') : ps = ps' := by
  induction ps generalizing ps' with
  | nil =>
      cases ps' with
      | nil => rfl
      | cons t' ps' => exact absurd heq.symm (join_cons_ne_empty (h' t' List.mem_cons_self) ps')
  | cons t ps ih =>
      obtain ⟨ht, hps⟩ := List.forall_mem_cons.mp h
      cases ps' with
      | nil => exact absurd heq (join_cons_ne_empty ht ps)
      | cons t' ps' =>
          obtain ⟨ht', hps'⟩ := List.forall_mem_cons.mp h'
          have hlist := congrArg String.toList heq
          rw [toList_join_cons, toList_join_cons] at hlist
          obtain ⟨rfl, hrest⟩ := ht.append_inj ht' (continues_following hps)
            (continues_following hps') hlist
          rw [following, following] at hrest
          split at hrest <;> split at hrest
          · simp [*]
          · cases hrest
          · cases hrest
          · rw [ih hps hps' (String.toList_inj.mp (by simpa using hrest))]

/-! ## signatures -/

/-- Name and parameter types that can be told from their signature. -/
structure Separable (name : String) (parameterTypes : List String) : Prop where
  name : '(' ∉ name.toList
  types : ∀ t ∈ parameterTypes, IsTypeText t

instance (name : String) (parameterTypes : List String) :
    Decidable (Separable name parameterTypes) :=
  decidable_of_iff ('(' ∉ name.toList ∧ ∀ t ∈ parameterTypes, IsTypeText t)
    ⟨fun h => ⟨h.1, h.2⟩, fun h => ⟨h.name, h.types⟩⟩

theorem simpleName_render {name : String} (h : '(' ∉ name.toList) (parameterTypes : List String) :
    simpleName (render name parameterTypes) = name := by
  have hparts : render name parameterTypes =
      name ++ '('.toString ++ (Text.join "," parameterTypes ++ ")") := by
    simp [render, String.append_assoc, Char.toString]
  rw [simpleName, hparts, Text.upTo_append h]

theorem render_inj {n n' : String} {ps ps' : List String} (h : Separable n ps)
    (h' : Separable n' ps') : render n ps = render n' ps' ↔ n = n' ∧ ps = ps' := by
  constructor
  · intro heq
    have hname : n = n' := by
      rw [← simpleName_render h.name ps, heq, simpleName_render h'.name]
    subst hname
    have hjoin : Text.join "," ps = Text.join "," ps' := by
      simpa [render, ← String.toList_inj] using heq
    exact ⟨rfl, join_inj h.types h'.types hjoin⟩
  · rintro ⟨rfl, rfl⟩
    rfl

end Ripple.Signature

namespace Ripple

open Signature (render simpleName Separable CommasEnclosed)

/-! ## the table of methods -/

namespace Java

/-- Name and parameter types of a method. -/
def MethodFacts.shape (m : MethodFacts) : String × List String := (m.name, m.params)

/-- The kept methods have the signatures that were seen, each once. -/
def Kept.Distinct (k : Kept) : Prop :=
  (k.2.map (·.signature)).Nodup ∧ ∀ m ∈ k.2, m.signature ∈ k.1

theorem Kept.Distinct.add {k : Kept} (h : k.Distinct) (m : MethodFacts) : (k.add m).Distinct := by
  obtain ⟨seen, kept⟩ := k
  obtain ⟨hnodup, hseen⟩ := h
  by_cases hs : m.signature ∈ seen
  · simpa [Kept.add, hs] using ⟨hnodup, hseen⟩
  · have hnew : m.signature ∉ kept.map (·.signature) := by
      intro hmem
      obtain ⟨m', hm', hsig⟩ := List.mem_map.mp hmem
      exact hs (hsig ▸ hseen m' hm')
    have hadd : Kept.add (seen, kept) m = (seen.insert m.signature, m :: kept) := by
      simp [Kept.add, hs]
    rw [hadd]
    refine ⟨List.nodup_cons.mpr ⟨hnew, hnodup⟩, List.forall_mem_cons.mpr ⟨by simp, ?_⟩⟩
    exact fun m' hm' => Std.HashSet.mem_insert.mpr (.inr (hseen m' hm'))

theorem Kept.Distinct.foldl {k : Kept} (h : k.Distinct) (l : List MethodFacts) :
    (l.foldl Kept.add k : Kept).Distinct := by
  induction l generalizing k with
  | nil => exact h
  | cons m l ih => exact ih (h.add m)

/-- The table has a method of each name and parameter types that are declared, and only one. -/
theorem declaredMethods_shapes {files : List FileFacts}
    (h : ∀ m ∈ methodsOf files, Separable m.name m.params) :
    ((declaredMethods files).map (·.shape)).Nodup ∧
      ∀ s, s ∈ (declaredMethods files).map (·.shape) ↔ s ∈ (methodsOf files).map (·.shape) := by
  have hdistinct : Kept.Distinct ((files.flatMap fun f => f.classes.flatMap (·.methods)).foldl
      Kept.add (∅, [])) := Kept.Distinct.foldl ⟨by simp, by simp⟩ _
  obtain ⟨hmem, hcovered⟩ := declaredMethods_covers files
  constructor
  · have hnodup : ((declaredMethods files).map (·.signature)).Nodup := by
      rw [declaredMethods, List.map_reverse, List.nodup_reverse]
      exact hdistinct.1
    refine List.Nodup.of_map (fun s : String × List String => render s.1 s.2) ?_
    rwa [List.map_map]
  · intro s
    simp only [List.mem_map]
    constructor
    · rintro ⟨m, hm, rfl⟩
      exact ⟨m, hmem m hm, rfl⟩
    · rintro ⟨m, hm, rfl⟩
      obtain ⟨m', hm', hsig⟩ := hcovered m hm
      obtain ⟨hname, hparams⟩ := (Signature.render_inj (h m' (hmem m' hm')) (h m hm)).mp hsig
      exact ⟨m', hm', Prod.ext hname hparams⟩

end Java

/-! ## nodes of methods -/

namespace Builder

/-- An upsert answers with the number of the node, and no node loses its number. -/
theorem numbers_of_upsert {s : Symbol} {b b' : Builder} {id : NodeId} (hg : b.graph.WellFormed)
    (h : (upsert s).run b = (.ok id, b')) :
    b'.graph.WellFormed ∧ b'.graph.Numbers s.mention id ∧ b.graph.Keeps b'.graph := by
  obtain ⟨e, hrun⟩ | ⟨id', hfind, hrun⟩ | ⟨hkey, hnew, hrun⟩ := upsert_cases s b
  · rw [hrun] at h
    cases h
  · rw [hrun] at h
    cases h
    exact ⟨hg, hfind, fun _ _ hm => hm⟩
  · rw [hrun] at h
    cases h
    refine ⟨hg.insertNode s hkey hnew, ?_, (Graph.Gains.insertNode hg hnew).keeps⟩
    simp [Graph.Numbers, Symbol.mention, Graph.find?_insertNode]

/-- Nodes keep their numbers until the graph is cleared. -/
theorem keeps_after {ops : List Operation} (hops : ∀ op ∈ ops, op ≠ .clear) {b : Builder}
    (hg : b.graph.WellFormed) : b.graph.Keeps (after ops b).graph := by
  intro m id hm
  obtain ⟨n, hn, hkind, hkey⟩ := (hg.find?_iff _ _ _).mp hm
  obtain ⟨n', hn', hgrows⟩ := (after_extends hops b).node id n hn
  have hg' := hg.edits (after_edits ops hg)
  exact (hg'.find?_iff _ _ _).mpr ⟨n', hn', hgrows.kind_eq.trans hkind, hgrows.key_eq.trans hkey⟩

/-- Two upserts of methods answer with the same number exactly if the signatures are the same. -/
theorem upsertMethod_same_iff {s s' : String} {b b₁ b₂ : Builder} {between : List Operation}
    {id id' : NodeId} (hg : b.graph.WellFormed) (hops : ∀ op ∈ between, op ≠ .clear)
    (h : (upsertMethod s).run b = (.ok id, b₁))
    (h' : (upsertMethod s').run (after between b₁) = (.ok id', b₂)) : id = id' ↔ s = s' := by
  obtain ⟨hg₁, hid, -⟩ := numbers_of_upsert hg h
  have hbetween := hg₁.edits (after_edits between hg₁)
  obtain ⟨hg₂, hid', hkeeps⟩ := numbers_of_upsert hbetween h'
  have hid₂ := hkeeps (keeps_after hops hg₁ hid)
  constructor
  · rintro rfl
    exact congrArg Mention.key (hg₂.mention_unique hid₂ hid')
  · rintro rfl
    exact Option.some.inj (hid₂.symm.trans hid')

end Builder

/-! ## identity of methods -/

/-- **Signatures identify methods**, for names without an opening parenthesis and types that are
not empty, close no bracket that they did not open, and have commas only inside brackets: methods
of one signature have one name and the same parameter types, and the name can be read off.  So the
table of declared methods keeps one method of each name and parameter types, and two upserts, with
anything but clearing between them, give one node exactly to a method that is the same. -/
theorem Signature.identifies {n n' : String} {ps ps' : List String} (h : Separable n ps)
    (h' : Separable n' ps') :
    (render n ps = render n' ps' → n = n' ∧ ps = ps') ∧ simpleName (render n ps) = n ∧
      (∀ files : List Java.FileFacts, (∀ m ∈ Java.methodsOf files, Separable m.name m.params) →
        ((Java.declaredMethods files).map (·.shape)).Nodup ∧
          ∀ s, s ∈ (Java.declaredMethods files).map (·.shape) ↔
            s ∈ (Java.methodsOf files).map (·.shape)) ∧
      ∀ now before between id id' b₁ b₂, (∀ op ∈ between, op ≠ Operation.clear) →
        (Builder.upsertMethod (render n ps)).run (Builder.after before (Builder.new now)) =
          (.ok id, b₁) →
        (Builder.upsertMethod (render n' ps')).run (Builder.after between b₁) = (.ok id', b₂) →
        (id = id' ↔ n = n' ∧ ps = ps') := by
  refine ⟨(render_inj h h').mp, simpleName_render h.name ps,
    fun files hfiles => Java.declaredMethods_shapes hfiles, ?_⟩
  intro now before between id id' b₁ b₂ hops hfirst hsecond
  have hg : (Builder.after before (Builder.new now)).graph.WellFormed :=
    Graph.Built.wellFormed ⟨now, before, rfl⟩
  rw [Builder.upsertMethod_same_iff hg hops hfirst hsecond, render_inj h h']

/-- A method with a map and a number for parameters, and one with a map of maps, have two nodes. -/
theorem Signature.maps_identified :
    Separable "put" ["Map<K,int[]>", "int"] ∧ Separable "put" ["Map<K,Map<K,V>>"] ∧
      render "put" ["Map<K,int[]>", "int"] ≠ render "put" ["Map<K,Map<K,V>>"] ∧
      simpleName (render "put" ["Map<K,int[]>", "int"]) = "put" ∧
      ("g", ["int", "int"]) ∈ (Java.declaredMethods Java.overloadedFiles).map (·.shape) ∧
      ∃ id id' b₁ b₂,
        (Builder.upsertMethod (render "put" ["Map<K,int[]>", "int"])).run (Builder.new 0) =
          (.ok id, b₁) ∧
        (Builder.upsertMethod (render "put" ["Map<K,Map<K,V>>"])).run b₁ = (.ok id', b₂) ∧
        id ≠ id' := by
  have h : Separable "put" ["Map<K,int[]>", "int"] := by decide +kernel
  have h' : Separable "put" ["Map<K,Map<K,V>>"] := by decide +kernel
  have hfiles : ∀ m ∈ Java.methodsOf Java.overloadedFiles, Separable m.name m.params := by
    decide +kernel
  obtain ⟨hinj, hname, htable, hnodes⟩ := identifies h h'
  have hne : render "put" ["Map<K,int[]>", "int"] ≠ render "put" ["Map<K,Map<K,V>>"] := by
    intro heq
    exact absurd (hinj heq).2 (by decide)
  obtain ⟨id, b₁, hfirst, hb₁, -⟩ := Records.upsert
    (s := .method (render "put" ["Map<K,int[]>", "int"]) "" []) (Builder.ready_new 0)
    (by decide +kernel)
  obtain ⟨id', b₂, hsecond, -⟩ := Records.upsert
    (s := .method (render "put" ["Map<K,Map<K,V>>"]) "" []) hb₁ (by decide +kernel)
  refine ⟨h, h', hne, hname, ?_, id, id', b₁, b₂, hfirst, hsecond, ?_⟩
  · rw [(htable _ hfiles).2]
    decide +kernel
  · intro heq
    have hsame := (hnodes 0 [] [] id id' b₁ b₂ (by simp) hfirst hsecond).mp heq
    exact absurd hsame.2 (by decide)

/-- Where a type closes a bracket that it did not open, two types can be taken for one: commas
inside brackets alone do not make types separable. -/
theorem Signature.unopened_bracket_merges :
    ¬ ∀ (n n' : String) (ps ps' : List String), '(' ∉ n.toList → '(' ∉ n'.toList →
      (∀ t ∈ ps, t ≠ "" ∧ CommasEnclosed t) → (∀ t ∈ ps', t ≠ "" ∧ CommasEnclosed t) →
      render n ps = render n' ps' → n = n' ∧ ps = ps' := by
  intro h
  have hsame := h "f" "f" ["x(", ")"] ["x(,)"] (by decide) (by decide) (by decide +kernel)
    (by decide +kernel) (by decide +kernel)
  exact absurd hsame.2 (by decide)

end Ripple
