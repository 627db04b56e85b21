import Ripple.Path
import Ripple.Proofs.Text.Search

/-!
# Ripple.Proofs.Path

Paths and the names along them, whatever they are written in.

A path means the list of its names, with `.` and `..` resolved (`names`), and whether it is
absolute.  What is left of dots is *settled*: names, after steps up out of where a path that is not
absolute starts.  Settled names are read back from the path that is written along them
(`names_ofNames`), and to join a name is to append it (`join_eq`); so the path of what stands below
a root is determined by the names that lead there (`names_descend`).
-/

namespace Ripple.Path

open Spelling (letters ofLetters letter spell)

variable {τ α : Type} [Spelling τ α]

/-- A name that an entry of a directory can have. -/
def IsName (n : τ) : Prop :=
  n ≠ spell "" ∧ n ≠ spell "." ∧ n ≠ spell ".." ∧ letter τ '/' ∉ letters n

instance [DecidableEq τ] [DecidableEq α] (n : τ) : Decidable (IsName n) :=
  inferInstanceAs (Decidable
    (n ≠ spell "" ∧ n ≠ spell "." ∧ n ≠ spell ".." ∧ letter τ '/' ∉ letters n))

theorem spell_ne_spell {s t : String} (h : s.toList.length ≠ t.toList.length) :
    (spell s : τ) ≠ spell t := by
  intro heq
  have hletters := congrArg (List.length ∘ letters) heq
  simp only [Function.comp_apply, Spelling.letters_spell, List.length_map] at hletters
  exact h hletters

theorem IsName.letters_ne_nil {n : τ} (h : IsName n) : letters n ≠ [] := by
  intro hempty
  exact h.1 (Spelling.letters_inj.mp (by simpa using hempty))

/-! ## dots in paths -/

/-- What is left of the parts of a path, the last first: names, after steps up. -/
inductive Settled (absolute : Bool) : List τ → Prop where
  | nil : Settled absolute []
  | up {done : List τ} (habsolute : absolute = false) (h : ∀ w ∈ done, w = spell "..") :
    Settled absolute (spell ".." :: done)
  | name {n : τ} {done : List τ} (hn : IsName n) (h : Settled absolute done) :
    Settled absolute (n :: done)

variable {absolute : Bool}

theorem Settled.tail {w : τ} {done : List τ} (h : Settled absolute (w :: done)) :
    Settled absolute done := by
  cases h with
  | name hn h => exact h
  | up habsolute h =>
      cases done with
      | nil => exact .nil
      | cons v done =>
          obtain ⟨rfl, hdone⟩ := List.forall_mem_cons.mp h
          exact .up habsolute hdone

theorem Settled.of_append {ws done : List τ} (h : Settled absolute (ws ++ done)) :
    Settled absolute done := by
  induction ws with
  | nil => exact h
  | cons w ws ih => exact ih h.tail

/-- What is settled has no slashes and is not empty. -/
theorem Settled.of_mem {done : List τ} (h : Settled absolute done) {w : τ} (hw : w ∈ done) :
    letters w ≠ [] ∧ letter τ '/' ∉ letters w := by
  have hup : letters (spell ".." : τ) ≠ [] ∧ letter τ '/' ∉ letters (spell ".." : τ) := by
    simp [Spelling.letter_slash_ne]
  induction h with
  | nil => cases hw
  | up habsolute h =>
      obtain rfl | hw := List.mem_cons.mp hw
      · exact hup
      · exact h w hw ▸ hup
  | name hn h ih =>
      obtain rfl | hw := List.mem_cons.mp hw
      · exact ⟨hn.letters_ne_nil, hn.2.2.2⟩
      · exact ih hw

section
variable [DecidableEq τ]

section
variable (absolute) (done rest : List τ)

theorem resolve_skip {part : τ} (h : part = spell "" ∨ part = spell ".") :
    resolve absolute done (part :: rest) = resolve absolute done rest := by
  cases done with
  | nil => rw [resolve, if_pos h]
  | cons last before => rw [resolve, if_pos h]

theorem resolve_name {n : τ} (hn : IsName n) :
    resolve absolute done (n :: rest) = resolve absolute (n :: done) rest := by
  obtain ⟨hempty, hdot, hdots, -⟩ := hn
  cases done <;> simp [resolve, hempty, hdot, hdots]

/-- A name at the end stays there, whatever stands before it. -/
theorem resolve_append_name {n : τ} (hn : IsName n) :
    resolve absolute done (rest ++ [n]) = resolve absolute done rest ++ [n] := by
  induction rest generalizing done with
  | nil =>
      rw [List.nil_append, resolve_name absolute done [] hn, resolve, resolve, List.reverse_cons]
  | cons part rest ih =>
      rw [List.cons_append]
      cases done <;> simp only [resolve, ih, apply_ite (· ++ [n])]

end

/-- The next part of what is settled is kept. -/
theorem Settled.resolve_cons {w : τ} {done : List τ} (h : Settled absolute (w :: done))
    (rest : List τ) : resolve absolute done (w :: rest) = resolve absolute (w :: done) rest := by
  have hdots : ¬((spell ".." : τ) = spell "" ∨ (spell ".." : τ) = spell ".") :=
    not_or.mpr ⟨spell_ne_spell (by decide), spell_ne_spell (by decide)⟩
  cases h with
  | name hn h => exact resolve_name absolute done rest hn
  | up habsolute h =>
      subst habsolute
      cases done with
      | nil => simp [resolve, hdots]
      | cons last before =>
          obtain ⟨rfl, -⟩ := List.forall_mem_cons.mp h
          simp [resolve, hdots]

/-- What is settled stays as it is. -/
theorem resolve_settled {done ws : List τ} (h : Settled absolute (ws.reverse ++ done)) :
    resolve absolute done ws = done.reverse ++ ws := by
  induction ws generalizing done with
  | nil => simp [resolve]
  | cons w ws ih =>
      rw [List.reverse_cons, List.append_assoc, List.singleton_append] at h
      rw [h.of_append.resolve_cons, ih h]
      simp

/-- What is left of a path is settled. -/
theorem settled_resolve {done rest : List τ} (hdone : Settled absolute done)
    (hrest : ∀ w ∈ rest, letter τ '/' ∉ letters w) :
    Settled absolute (resolve absolute done rest).reverse := by
  fun_induction resolve absolute done rest with
  | case1 done => simpa [resolve] using hdone
  | case2 done part rest hskip ih => exact ih hdone (List.forall_mem_cons.mp hrest).2
  | case3 rest before _ ih =>
      refine ih ?_ (List.forall_mem_cons.mp hrest).2
      cases hdone with
      | name hn h => exact absurd rfl hn.2.2.1
      | up habsolute h => exact .up habsolute (List.forall_mem_cons.mpr ⟨rfl, h⟩)
  | case4 rest last before _ _ ih => exact ih hdone.tail (List.forall_mem_cons.mp hrest).2
  | case5 rest _ ih =>
      refine ih ?_ (List.forall_mem_cons.mp hrest).2
      cases absolute with
      | true => exact .nil
      | false => exact .up rfl (by simp)
  | case6 done part rest hskip hdots ih =>
      obtain ⟨hempty, hdot⟩ := not_or.mp hskip
      obtain ⟨hpart, hrest⟩ := List.forall_mem_cons.mp hrest
      exact ih (.name ⟨hempty, hdot, hdots, hpart⟩ hdone) hrest

end

/-! ## pieces of a path -/

section
variable [DecidableEq α]

theorem not_mem_of_mem_pieces {p w : τ} (h : w ∈ pieces p) : letter τ '/' ∉ letters w := by
  obtain ⟨ls, hls, rfl⟩ := List.mem_map.mp h
  simpa using Text.not_mem_of_mem_splitLetters hls

theorem pieces_of_not_mem {w : τ} (h : letter τ '/' ∉ letters w) : pieces w = [w] := by
  simp [pieces, Text.splitLetters_of_not_mem h]

theorem pieces_slash (a b : τ) :
    pieces (ofLetters (letters a ++ letter τ '/' :: letters b)) = pieces a ++ pieces b := by
  simp [pieces, Text.splitLetters_append]

/-- The pieces of a path along names are the names. -/
theorem pieces_glue {ns : List τ} (hne : ns ≠ []) (h : ∀ n ∈ ns, letter τ '/' ∉ letters n) :
    pieces (glue ns) = ns := by
  induction ns with
  | nil => exact absurd rfl hne
  | cons n ns ih =>
      obtain ⟨hn, hns⟩ := List.forall_mem_cons.mp h
      cases ns with
      | nil => exact pieces_of_not_mem hn
      | cons m ms =>
          rw [glue, pieces_slash, pieces_of_not_mem hn, ih (by simp) hns, List.singleton_append]

theorem isAbsolute_glue_cons {n : τ} (hn : letters n ≠ []) (ns : List τ) :
    isAbsolute (glue (n :: ns)) = isAbsolute n := by
  cases ns with
  | nil => rfl
  | cons m ms =>
      obtain ⟨l, ls, hl⟩ := List.exists_cons_of_ne_nil hn
      simp [isAbsolute, glue, hl]

/-- A text without slashes at its front is no absolute path. -/
theorem isAbsolute_of_not_mem {w : τ} (h : letter τ '/' ∉ letters w) : isAbsolute w = false := by
  rw [isAbsolute, decide_eq_false_iff_not]
  exact fun hhead => h (List.mem_of_mem_head? hhead)

theorem isAbsolute_ofNames {ns : List τ} (h : Settled absolute ns.reverse) :
    isAbsolute (ofNames absolute ns) = absolute := by
  cases absolute with
  | true => simp [ofNames, isAbsolute]
  | false =>
      cases ns with
      | nil => simp [ofNames, isAbsolute, Spelling.letter_slash_ne.symm]
      | cons n ns =>
          obtain ⟨hne, hslash⟩ := h.of_mem (List.mem_reverse.mpr List.mem_cons_self)
          rw [ofNames, if_neg (by simp), if_neg (by simp), isAbsolute_glue_cons hne,
            isAbsolute_of_not_mem hslash]

end

/-! ## names along a path -/

variable [DecidableEq τ] [DecidableEq α]

theorem settled_names (p : τ) : Settled (isAbsolute p) (names p).reverse :=
  settled_resolve .nil fun _ => not_mem_of_mem_pieces

theorem names_of_isName {n : τ} (h : IsName n) : names n = [n] := by
  rw [names, pieces_of_not_mem h.2.2.2, resolve_name _ _ _ h]
  rfl

theorem names_empty : names (spell "" : τ) = [] := by
  rw [names, pieces_of_not_mem (w := spell "") (by simp), resolve_skip _ _ _ (.inl rfl)]
  rfl

theorem names_ofNames {ns : List τ} (h : Settled absolute ns.reverse) :
    names (ofNames absolute ns) = ns := by
  have hresolve : resolve absolute [] ns = ns := resolve_settled (by rwa [List.append_nil])
  have hslash : ∀ n ∈ ns, letter τ '/' ∉ letters n := fun n hn =>
    (h.of_mem (List.mem_reverse.mpr hn)).2
  rw [names, isAbsolute_ofNames h]
  cases absolute with
  | true =>
      have hpieces : pieces (ofNames true ns) = spell "" :: pieces (glue ns) := by
        have hslash := pieces_slash (spell "" : τ) (glue ns)
        rw [pieces_of_not_mem (w := spell "") (by simp), Spelling.letters_spell] at hslash
        exact hslash
      rw [hpieces, resolve_skip _ _ _ (.inl rfl)]
      cases ns with
      | nil =>
          rw [glue, pieces_of_not_mem (w := spell "") (by simp), resolve_skip _ _ _ (.inl rfl)]
          rfl
      | cons n ns => rw [pieces_glue (by simp) hslash, hresolve]
  | false =>
      cases ns with
      | nil =>
          have hpath : ofNames false ([] : List τ) = spell "." := rfl
          rw [hpath, pieces_of_not_mem (w := spell ".") (by simp [Spelling.letter_slash_ne]),
            resolve_skip _ _ _ (.inr rfl)]
          rfl
      | cons n ns =>
          rw [ofNames, if_neg (by simp), if_neg (by simp), pieces_glue (by simp) hslash, hresolve]

/-- To join a name is to append it. -/
theorem join_eq (p : τ) {n : τ} (hn : IsName n) :
    join [p, n] = ofNames (isAbsolute p) (names p ++ [n]) := by
  have hne := hn.letters_ne_nil
  by_cases hp : letters p = []
  · have hempty : p = spell "" := Spelling.letters_inj.mp (by simpa using hp)
    have hjoin : join [p, n] = clean n := by
      simp [join, Spelling.isEmpty, hp, hne, glue]
    rw [hjoin, clean, hempty, names_empty, names_of_isName hn, isAbsolute_of_not_mem hn.2.2.2,
      isAbsolute_of_not_mem (w := spell "") (by simp), List.nil_append]
  · have hjoin : join [p, n] = clean (glue [p, n]) := by
      simp [join, Spelling.isEmpty, hp, hne]
    have hnames : names (glue [p, n]) = names p ++ [n] := by
      rw [names, isAbsolute_glue_cons hp, glue, glue, pieces_slash, pieces_of_not_mem hn.2.2.2,
        resolve_append_name _ _ _ hn]
      rfl
    rw [hjoin, clean, hnames, isAbsolute_glue_cons hp]

/-! ## below a root -/

/-- The path of what some names lead to from a root. -/
def descend (root : τ) (ns : List τ) : τ := ns.foldl (fun p n => join [p, n]) root

theorem descend_cons (root n : τ) (ns : List τ) :
    descend root (n :: ns) = descend (join [root, n]) ns := rfl

theorem names_descend (root : τ) {ns : List τ} (hns : ∀ n ∈ ns, IsName n) :
    names (descend root ns) = names root ++ ns := by
  induction ns generalizing root with
  | nil => simp [descend]
  | cons n ns ih =>
      obtain ⟨hn, hns⟩ := List.forall_mem_cons.mp hns
      have hsettled : Settled (isAbsolute root) (names root ++ [n]).reverse := by
        rw [List.reverse_append]
        exact .name hn (settled_names root)
      rw [descend_cons, ih (join [root, n]) hns, join_eq root hn, names_ofNames hsettled,
        List.append_assoc, List.singleton_append]

/-- Different names lead to different paths. -/
theorem descend_injective {root : τ} {ns ms : List τ} (hns : ∀ n ∈ ns, IsName n)
    (hms : ∀ n ∈ ms, IsName n) (heq : descend root ns = descend root ms) : ns = ms := by
  have hnames := congrArg names heq
  rwa [names_descend root hns, names_descend root hms, List.append_cancel_left_eq] at hnames

end Ripple.Path
