import Ripple.Proofs.Arranged
import Ripple.Proofs.Path
import Ripple.Proofs.Text.Order
import Ripple.Proofs.Watch.Delivery
import Ripple.Source.FileTree
import Ripple.Watch.Watcher
import Mathlib.Data.String.Basic

/-!
# Ripple.Proofs.Source.Scan

What a scan for source files sees, and what a watcher watches, whatever the names are written in.

Scans and watchers go through a tree in the same way.  `visits` is that walk: all that it comes to,
with the names that lead there.  A scan lists the files among the visits (`filesAt_eq`), and a
watcher watches the directories among them (`directoriesAt_eq`).  In a lawful tree the visits are
what the tree holds outside of skipped directories (`mem_visits`), in the order of the names that
lead there (`arranged_visits`).
-/

namespace Ripple.Source

open Ripple.Path (descend names IsName)
open Spelling (letters)

namespace FileTree

variable {τ α : Type}

/-! ## lawful trees -/

section
variable [Spelling τ α]

mutual

/-- The entries of every directory have names, in strictly increasing order. -/
def Lawful : FileTree τ → Prop
  | .file _ => True
  | .directory es => LawfulEntries es

/-- Entries with names in strictly increasing order, each of them lawful. -/
def LawfulEntries : List (τ × FileTree τ) → Prop
  | [] => True
  | (name, t) :: rest =>
    IsName name ∧ t.Lawful ∧ (∀ e ∈ rest, Spelling.bytes name < Spelling.bytes e.1) ∧
      LawfulEntries rest

end

theorem Lawful.entries {t : FileTree τ} (h : t.Lawful) : LawfulEntries t.entries := by
  cases t with
  | file content => trivial
  | directory es => exact h

theorem LawfulEntries.of_mem {es : List (τ × FileTree τ)} (h : LawfulEntries es)
    {e : τ × FileTree τ} (he : e ∈ es) : IsName e.1 ∧ e.2.Lawful := by
  induction es with
  | nil => cases he
  | cons e' rest ih =>
      obtain ⟨hname, ht, -, hrest⟩ := h
      obtain rfl | he := List.mem_cons.mp he
      · exact ⟨hname, ht⟩
      · exact ih hrest he

end

/-! ## walks -/

mutual

/-- What a walk through a tree comes to, with the names that lead there: each directory before its
entries, and nothing of a skipped one. -/
def visits (skip : τ → Bool) : FileTree τ → List (List τ × FileTree τ)
  | .file content => [([], .file content)]
  | .directory es => ([], .directory es) :: entryVisits skip es

/-- What a walk comes to from some entries of a directory on. -/
def entryVisits (skip : τ → Bool) : List (τ × FileTree τ) → List (List τ × FileTree τ)
  | [] => []
  | (name, t) :: rest =>
    (if t.isDirectory && skip name then []
     else (visits skip t).map fun v => (name :: v.1, v.2)) ++ entryVisits skip rest

end

variable {skip : τ → Bool}

theorem visits_eq (skip : τ → Bool) (t : FileTree τ) :
    visits skip t = ([], t) :: entryVisits skip t.entries := by
  cases t <;> rfl

/-- Induction over entries and what is below them. -/
theorem induction_on_entries {motive : List (τ × FileTree τ) → Prop} (nil : motive [])
    (cons : ∀ name t rest, motive t.entries → motive rest → motive ((name, t) :: rest))
    (es : List (τ × FileTree τ)) : motive es :=
  entryVisits.induct (fun t => motive t.entries) motive (fun _ => nil) (fun _ => id) nil cons es

/-- The names of the directories that a walk enters to come to something. -/
def entered (ns : List τ) : FileTree τ → List τ
  | .file _ => ns.dropLast
  | .directory _ => ns

theorem mem_entryVisits_cons {name : τ} {t u : FileTree τ} {rest : List (τ × FileTree τ)}
    {ns : List τ} :
    (ns, u) ∈ entryVisits skip ((name, t) :: rest) ↔
      ((t.isDirectory && skip name) = false ∧ ∃ ms, (ms, u) ∈ visits skip t ∧ ns = name :: ms) ∨
        (ns, u) ∈ entryVisits skip rest := by
  rw [entryVisits, List.mem_append]
  cases t.isDirectory && skip name <;> simp [eq_comm]

/-- What a walk comes to from some entries on is reached through one of them. -/
theorem head_of_mem_entryVisits {es : List (τ × FileTree τ)} {v : List τ × FileTree τ}
    (h : v ∈ entryVisits skip es) : ∃ e ∈ es, ∃ ns, v.1 = e.1 :: ns := by
  induction es with
  | nil => cases h
  | cons e rest ih =>
      obtain ⟨-, ms, -, hms⟩ | h := mem_entryVisits_cons.mp h
      · exact ⟨e, List.mem_cons_self, ms, hms⟩
      · obtain ⟨e', he', hns⟩ := ih h
        exact ⟨e', List.mem_cons_of_mem e he', hns⟩

section
variable [Spelling τ α]

/-- The bytes of the names that lead somewhere, which decide the order of a walk. -/
def rank (v : List τ × FileTree τ) : List (List UInt8) := v.1.map Spelling.bytes

theorem arranged_visits_of_entries {t : FileTree τ}
    (h : Arranged rank (entryVisits skip t.entries)) : Arranged rank (visits skip t) := by
  rw [visits_eq]
  refine List.pairwise_cons.mpr ⟨?_, h⟩
  intro v hv
  obtain ⟨e, -, ns, hns⟩ := head_of_mem_entryVisits hv
  rw [rank, rank, hns]
  exact List.nil_lt_cons _ _

theorem arranged_entryVisits {es : List (τ × FileTree τ)} (h : LawfulEntries es) :
    Arranged rank (entryVisits skip es) := by
  induction es using induction_on_entries with
  | nil => exact .nil
  | cons name t rest iht ihrest =>
      obtain ⟨-, ht, hlt, hrest⟩ := h
      rw [entryVisits]
      refine List.pairwise_append.mpr ⟨?_, ihrest hrest, ?_⟩
      · split
        · exact .nil
        · refine List.pairwise_map.mpr ((arranged_visits_of_entries (iht ht.entries)).imp ?_)
          intro v w hvw
          exact List.cons_lt_cons_iff.mpr (.inr ⟨rfl, hvw⟩)
      · intro v hv w hw
        obtain ⟨e, he, ns, hns⟩ := head_of_mem_entryVisits hw
        have hname : ∃ ms, v.1 = name :: ms := by
          split at hv
          · cases hv
          · obtain ⟨v', -, rfl⟩ := List.mem_map.mp hv
            exact ⟨v'.1, rfl⟩
        obtain ⟨ms, hms⟩ := hname
        rw [rank, rank, hms, hns]
        exact List.cons_lt_cons_iff.mpr (.inl (hlt e he))

/-- **A walk goes in the order of the names**, and comes to nothing twice. -/
theorem arranged_visits {t : FileTree τ} (h : t.Lawful) : Arranged rank (visits skip t) :=
  arranged_visits_of_entries (arranged_entryVisits h.entries)

end

/-! ## what names lead to -/

section
variable [DecidableEq τ] {t : FileTree τ}

theorem find?_cons_entry (n name : τ) (ns : List τ) (t : FileTree τ)
    (rest : List (τ × FileTree τ)) :
    (directory ((name, t) :: rest)).find? (n :: ns) =
      if n = name then t.find? ns else (directory rest).find? (n :: ns) := by
  by_cases hn : n = name
  · simp [FileTree.find?, FileTree.entries, hn]
  · simp [FileTree.find?, FileTree.entries, List.lookup_cons, hn, beq_false_of_ne hn]

theorem find?_append (ns ms : List τ) (t : FileTree τ) :
    t.find? (ns ++ ms) = (t.find? ns).bind (find? ms) := by
  induction ns generalizing t with
  | nil => rfl
  | cons n ns ih =>
      simp only [List.cons_append, FileTree.find?, Option.bind_assoc]
      exact congrArg _ (funext ih)

/-- A file that some names lead to stands in a directory. -/
theorem directory_of_find? {ns : List τ} {n : τ} {u : FileTree τ}
    (h : t.find? (ns ++ [n]) = some u) : ∃ es, t.find? ns = some (.directory es) := by
  rw [find?_append, Option.bind_eq_some_iff] at h
  obtain ⟨v, hv, hfind⟩ := h
  cases v with
  | file content => cases hfind
  | directory es => exact ⟨es, hv⟩

/-- To come to something below an entry, the entry has to be entered. -/
theorem forall_entered_cons {u : FileTree τ} {ns : List τ} (h : t.find? ns = some u) (n : τ) :
    (∀ d ∈ entered (n :: ns) u, skip d = false) ↔
      (t.isDirectory && skip n) = false ∧ ∀ d ∈ entered ns u, skip d = false := by
  cases ns with
  | nil =>
      obtain rfl := Option.some.inj h
      cases t <;> simp [entered, isDirectory]
  | cons m ns =>
      cases t with
      | file content => cases h
      | directory es => cases u <;> simp [entered, isDirectory]

/-- A walk through a tree comes to the tree, and to what it comes to from its entries on. -/
theorem mem_visits_of_entries {u : FileTree τ} {ns : List τ}
    (h : (ns, u) ∈ entryVisits skip t.entries ↔
      ns ≠ [] ∧ (directory t.entries).find? ns = some u ∧ ∀ d ∈ entered ns u, skip d = false) :
    (ns, u) ∈ visits skip t ↔ t.find? ns = some u ∧ ∀ d ∈ entered ns u, skip d = false := by
  rw [visits_eq, List.mem_cons, h]
  cases ns with
  | nil =>
      have hentered : entered [] u = [] := by cases u <;> rfl
      simp [FileTree.find?, hentered, eq_comm (a := t)]
  | cons n ns => simp [FileTree.find?, FileTree.entries]

section
variable [Spelling τ α]

/-- A name before all those of the entries leads nowhere. -/
theorem find?_eq_none_of_lt {name : τ} {rest : List (τ × FileTree τ)}
    (h : ∀ e ∈ rest, Spelling.bytes name < Spelling.bytes e.1) (ns : List τ) :
    (directory rest).find? (name :: ns) = none := by
  induction rest with
  | nil => rfl
  | cons e rest ih =>
      obtain ⟨he, hrest⟩ := List.forall_mem_cons.mp h
      have hne : name ≠ e.1 := fun heq => absurd he (by rw [heq]; exact List.lt_irrefl _)
      rw [find?_cons_entry, if_neg hne, ih hrest]

/-- A walk from some entries on comes to these, and to what is below them outside of skipped
directories. -/
theorem mem_entryVisits {es : List (τ × FileTree τ)} (h : LawfulEntries es) {ns : List τ}
    {u : FileTree τ} :
    (ns, u) ∈ entryVisits skip es ↔
      ns ≠ [] ∧ (directory es).find? ns = some u ∧ ∀ d ∈ entered ns u, skip d = false := by
  induction es using induction_on_entries generalizing ns with
  | nil => cases ns <;> simp [entryVisits, FileTree.find?, FileTree.entries]
  | cons name t rest iht ihrest =>
      obtain ⟨-, ht, hlt, hrest⟩ := h
      have hvisits {ms : List τ} : (ms, u) ∈ visits skip t ↔
          t.find? ms = some u ∧ ∀ d ∈ entered ms u, skip d = false :=
        mem_visits_of_entries (iht ht.entries)
      rw [mem_entryVisits_cons, ihrest hrest]
      cases ns with
      | nil => simp
      | cons n ns =>
          rw [find?_cons_entry]
          by_cases hn : n = name
          · subst hn
            rw [find?_eq_none_of_lt hlt, if_pos rfl]
            constructor
            · rintro (⟨hskip, ms, hms, heq⟩ | ⟨-, hnone, -⟩)
              · obtain ⟨-, rfl⟩ := List.cons.inj heq
                obtain ⟨hfind, hentered⟩ := hvisits.mp hms
                exact ⟨by simp, hfind, (forall_entered_cons hfind n).mpr ⟨hskip, hentered⟩⟩
              · cases hnone
            · rintro ⟨-, hfind, hentered⟩
              obtain ⟨hskip, hentered⟩ := (forall_entered_cons hfind n).mp hentered
              exact .inl ⟨hskip, ns, hvisits.mpr ⟨hfind, hentered⟩, rfl⟩
          · simp [hn]

/-- **A walk comes to everything outside of skipped directories.** -/
theorem mem_visits (h : t.Lawful) {ns : List τ} {u : FileTree τ} :
    (ns, u) ∈ visits skip t ↔ t.find? ns = some u ∧ ∀ d ∈ entered ns u, skip d = false :=
  mem_visits_of_entries (mem_entryVisits h.entries)

theorem Lawful.lookup (h : t.Lawful) {n : τ} {u : FileTree τ} (hn : t.entries.lookup n = some u) :
    IsName n ∧ u.Lawful := by
  obtain ⟨before, after, hes, -⟩ := List.lookup_eq_some_iff.mp hn
  exact h.entries.of_mem (e := (n, u)) (by simp [hes])

/-- Names that lead somewhere in a lawful tree are names, and what they lead to is lawful. -/
theorem Lawful.find? (h : t.Lawful) {ns : List τ} {u : FileTree τ}
    (hfind : t.find? ns = some u) : (∀ n ∈ ns, IsName n) ∧ u.Lawful := by
  induction ns generalizing t with
  | nil =>
      obtain rfl := Option.some.inj hfind
      exact ⟨by simp, h⟩
  | cons n ns ih =>
      obtain ⟨v, hv, hfind⟩ := Option.bind_eq_some_iff.mp hfind
      obtain ⟨hn, hlawful⟩ := h.lookup hv
      obtain ⟨hns, hu⟩ := ih hlawful hfind
      exact ⟨List.forall_mem_cons.mpr ⟨hn, hns⟩, hu⟩

/-- The parts of a path lead, if they lead anywhere, to something lawful. -/
theorem Lawful.follow (h : t.Lawful) {above : List (FileTree τ)} (habove : ∀ v ∈ above, v.Lawful)
    {parts : List τ} {u : FileTree τ} (hfollow : follow above parts t = .ok u) : u.Lawful := by
  induction parts generalizing above t with
  | nil =>
      cases hfollow
      exact h
  | cons name rest ih =>
      cases t with
      | file content => cases hfollow
      | directory es =>
          rw [FileTree.follow.eq_def] at hfollow
          simp only at hfollow
          split_ifs at hfollow
          · exact ih h habove hfollow
          · cases above with
            | nil => exact ih h habove hfollow
            | cons v above =>
                obtain ⟨hv, habove⟩ := List.forall_mem_cons.mp habove
                exact ih hv habove hfollow
          · split at hfollow
            · next v hv =>
                exact ih (h.lookup hv).2 (List.forall_mem_cons.mpr ⟨h, habove⟩) hfollow
            · cases hfollow

end

end

/-! ## what is taken from a walk -/

section
variable [Spelling τ α] [DecidableEq τ] [DecidableEq α]

/-- A file that a walk comes to, with its path. -/
def fileAt (path : τ) : List τ × FileTree τ → Option (τ × String)
  | (ns, .file content) => some (descend path ns, content)
  | (_, .directory _) => none

/-- The path of a directory that a walk comes to. -/
def directoryAt (path : τ) : List τ × FileTree τ → Option τ
  | (_, .file _) => none
  | (ns, .directory _) => some (descend path ns)

omit [Spelling τ α] [DecidableEq τ] [DecidableEq α] in
theorem filterMap_entryVisits_cons {β : Type} (skip : τ → Bool)
    (f : List τ × FileTree τ → Option β) (name : τ) (t : FileTree τ)
    (rest : List (τ × FileTree τ)) :
    (entryVisits skip ((name, t) :: rest)).filterMap f =
      (if t.isDirectory && skip name then []
       else (visits skip t).filterMap fun v => f (name :: v.1, v.2)) ++
        (entryVisits skip rest).filterMap f := by
  rw [entryVisits, List.filterMap_append]
  split
  · rfl
  · rw [List.filterMap_map]
    rfl

theorem fileAt_cons (path name : τ) :
    (fun v => fileAt path (name :: v.1, v.2)) = fileAt (Path.join [path, name]) := by
  funext ⟨ns, t⟩
  cases t <;> rfl

theorem directoryAt_cons (path name : τ) :
    (fun v => directoryAt path (name :: v.1, v.2)) = directoryAt (Path.join [path, name]) := by
  funext ⟨ns, t⟩
  cases t <;> rfl

section
variable (skip : τ → Bool)

mutual

/-- A scan lists the files that a walk comes to. -/
theorem filesAt_eq (path : τ) :
    ∀ t : FileTree τ, filesAt skip path t = (visits skip t).filterMap (fileAt path)
  | .file _ => rfl
  | .directory es => entryFiles_eq path es

theorem entryFiles_eq (path : τ) : ∀ es : List (τ × FileTree τ),
    entryFiles skip path es = (entryVisits skip es).filterMap (fileAt path)
  | [] => rfl
  | (name, t) :: rest => by
    rw [entryFiles, filterMap_entryVisits_cons, fileAt_cons, filesAt_eq (Path.join [path, name]) t,
      entryFiles_eq path rest]

end

mutual

/-- The directories of a tree are those that a walk comes to. -/
theorem directoriesAt_eq (path : τ) :
    ∀ t : FileTree τ, directoriesAt skip path t = (visits skip t).filterMap (directoryAt path)
  | .file _ => rfl
  | .directory es => congrArg (path :: ·) (entryDirectories_eq path es)

theorem entryDirectories_eq (path : τ) : ∀ es : List (τ × FileTree τ),
    entryDirectories skip path es = (entryVisits skip es).filterMap (directoryAt path)
  | [] => rfl
  | (name, t) :: rest => by
    rw [entryDirectories, filterMap_entryVisits_cons, directoryAt_cons,
      directoriesAt_eq (Path.join [path, name]) t, entryDirectories_eq path rest]

end

mutual

/-- The search for one file finds one if the scan lists one. -/
theorem hasFileAt_eq (wanted : τ → Bool) (path : τ) :
    ∀ t : FileTree τ, hasFileAt skip wanted path t = (filesAt skip path t).any (wanted ·.1)
  | .file _ => by simp [hasFileAt, filesAt]
  | .directory es => entryHasFile_eq wanted path es

theorem entryHasFile_eq (wanted : τ → Bool) (path : τ) : ∀ es : List (τ × FileTree τ),
    entryHasFile skip wanted path es = (entryFiles skip path es).any (wanted ·.1)
  | [] => rfl
  | (name, t) :: rest => by
    rw [entryHasFile, entryFiles, List.any_append, hasFileAt_eq wanted (Path.join [path, name]) t,
      entryHasFile_eq wanted path rest]
    cases t.isDirectory && skip name <;> rfl

end

end

variable {t : FileTree τ} {root : τ}

/-- **A scan sees exactly the files outside of skipped directories.** -/
theorem mem_filesAt (h : t.Lawful) {p : τ} {content : String} :
    (p, content) ∈ filesAt skip root t ↔
      ∃ ns, t.find? ns = some (.file content) ∧ (∀ d ∈ ns.dropLast, skip d = false) ∧
        p = descend root ns := by
  rw [filesAt_eq, List.mem_filterMap]
  constructor
  · rintro ⟨⟨ns, u⟩, hv, hfile⟩
    cases u with
    | file content' =>
        obtain ⟨rfl, rfl⟩ := Prod.mk.inj (Option.some.inj hfile)
        obtain ⟨hfind, hentered⟩ := (mem_visits h).mp hv
        exact ⟨ns, hfind, hentered, rfl⟩
    | directory es => cases hfile
  · rintro ⟨ns, hfind, hentered, rfl⟩
    exact ⟨(ns, .file content), (mem_visits h).mpr ⟨hfind, hentered⟩, rfl⟩

theorem mem_directoriesAt (h : t.Lawful) {d : τ} :
    d ∈ directoriesAt skip root t ↔
      ∃ ns es, t.find? ns = some (.directory es) ∧ (∀ n ∈ ns, skip n = false) ∧
        d = descend root ns := by
  rw [directoriesAt_eq, List.mem_filterMap]
  constructor
  · rintro ⟨⟨ns, u⟩, hv, hdirectory⟩
    cases u with
    | file content => cases hdirectory
    | directory es =>
        obtain ⟨hfind, hentered⟩ := (mem_visits h).mp hv
        exact ⟨ns, es, hfind, hentered, (Option.some.inj hdirectory).symm⟩
  · rintro ⟨ns, es, hfind, hentered, rfl⟩
    exact ⟨(ns, .directory es), (mem_visits h).mpr ⟨hfind, hentered⟩, rfl⟩

/-- A scan lists files by comparing the bytes of their paths, name by name. -/
theorem arranged_filesAt (root : τ) (h : t.Lawful) :
    Arranged (fun f => (names f.1).map Spelling.bytes) (filesAt skip root t) := by
  rw [filesAt_eq]
  refine List.pairwise_filterMap.mpr ((arranged_visits h).imp_of_mem ?_)
  rintro ⟨ns, u⟩ ⟨ms, v⟩ hu hv hlt f hf f' hf'
  have hnames {ls : List τ} {w : FileTree τ} (hw : (ls, w) ∈ visits skip t) {g : τ × String}
      (hg : fileAt root (ls, w) = some g) : names g.1 = names root ++ ls := by
    cases w with
    | file content =>
        obtain rfl := Option.some.inj hg
        exact Path.names_descend root (h.find? ((mem_visits h).mp hw).1).1
    | directory es => cases hg
  simp only [hnames hu hf, hnames hv hf', List.map_append]
  exact List.append_left_lt hlt

/-- What stands at a path of a lawful tree is lawful. -/
theorem Lawful.walk (h : t.Lawful) {cwd path : τ} {u : FileTree τ}
    (hwalk : t.walk cwd path = .ok u) : u.Lawful := by
  rw [FileTree.walk] at hwalk
  split at hwalk
  · cases hwalk
  · split at hwalk
    · cases hwalk
    · split at hwalk
      · cases hwalk
      · exact h.follow (by simp) hwalk

end

end FileTree

/-! ## scans and watchers of a root -/

namespace Files

section
variable {τ α : Type} [Spelling τ α] [DecidableEq τ] [DecidableEq α]
variable {f : Files τ} {tree : FileTree τ} {root : τ} (h : f.tree.Lawful)
  (hwalk : f.walk root = .ok tree) (ext : τ)

include hwalk

theorem filesEnding_eq : f.filesEnding root ext =
    (tree.filesAt isSkipped root).filter fun p => (letters ext).isSuffixOf (letters p.1) := by
  rw [filesEnding, hwalk]

theorem hasFileEnding_iff :
    f.hasFileEnding root ext = true ↔ f.filesEnding root ext ≠ [] := by
  rw [filesEnding_eq hwalk, hasFileEnding, hwalk]
  simp [FileTree.hasFileAt_eq, List.filter_eq_nil_iff]

include h

theorem mem_filesEnding {p : τ} {content : String} :
    (p, content) ∈ f.filesEnding root ext ↔
      ∃ ns, tree.find? ns = some (.file content) ∧ (∀ d ∈ ns.dropLast, isSkipped d = false) ∧
        p = descend root ns ∧ letters ext <:+ letters p := by
  rw [filesEnding_eq hwalk, List.mem_filter, List.isSuffixOf_iff_suffix,
    FileTree.mem_filesAt (h.walk hwalk)]
  grind

theorem arranged_filesEnding :
    Arranged (fun p => (names p.1).map Spelling.bytes) (f.filesEnding root ext) := by
  rw [filesEnding_eq hwalk]
  exact (FileTree.arranged_filesAt root (h.walk hwalk)).filter _

end

/-- What a watcher watches are the scanned directories of its root. -/
theorem watched_new {f : Files} {root : String} {ds : List String}
    (h : f.scannedDirectories root = .ok ds) :
    ∃ w, Watch.Watcher.new f root = .ok w ∧ ∀ d, d ∈ w.watched ↔ d ∈ ds := by
  simp only [Watch.Watcher.new, Watch.Watcher.directories, h, Except.mapError]
  refine ⟨_, rfl, fun d => ?_⟩
  rw [Watch.mem_insertAll]
  simp

/-- **Scans and watchers agree**, whether names are texts or any bytes, and from wherever the root
is seen.  A scan of a root lists, each once and in the order of their names byte by byte, the files
that end in an extension and stand in no skipped directory below the root; the search for one file
succeeds if there is one to list; and the directories that the scan enters are the ones that a
watcher of the root watches.  So a file below the root stands in a watched directory if and only if
a scan for its ending lists it.  Of a root that is a file nothing is watched. -/
theorem scan_and_watch_agree {τ α : Type} [Spelling τ α] [DecidableEq τ] [DecidableEq α]
    {f : Files τ} {root : τ} {tree : FileTree τ} (h : f.tree.Lawful)
    (hwalk : f.walk root = .ok tree) (ext : τ) :
    (∀ p content, (p, content) ∈ f.filesEnding root ext ↔
      ∃ ns, tree.find? ns = some (.file content) ∧ (∀ d ∈ ns.dropLast, isSkipped d = false) ∧
        p = descend root ns ∧ letters ext <:+ letters p) ∧
    Arranged (fun p => (names p.1).map Spelling.bytes) (f.filesEnding root ext) ∧
    (f.hasFileEnding root ext = true ↔ f.filesEnding root ext ≠ []) ∧
    (∃ ds, f.scannedDirectories root = .ok ds ∧
      (∀ d, d ∈ ds ↔ ∃ ns es, tree.find? ns = some (.directory es) ∧
        (∀ n ∈ ns, isSkipped n = false) ∧ d = descend root ns) ∧
      (∀ ns n content, tree.find? (ns ++ [n]) = some (.file content) →
        letters ext <:+ letters (descend root (ns ++ [n])) →
        (descend root ns ∈ ds ↔
          (descend root (ns ++ [n]), content) ∈ f.filesEnding root ext)) ∧
      (tree.isDirectory = false → ds = [])) ∧
    ∀ (f : Files) (root : String) (ds : List String), f.scannedDirectories root = .ok ds →
      ∃ w, Watch.Watcher.new f root = .ok w ∧ ∀ d, d ∈ w.watched ↔ d ∈ ds := by
  have hlawful : tree.Lawful := h.walk hwalk
  have hdirectories (d : τ) : d ∈ tree.directoriesAt isSkipped root ↔ _ :=
    FileTree.mem_directoriesAt hlawful
  refine ⟨fun p content => mem_filesEnding h hwalk ext, arranged_filesEnding h hwalk ext,
    hasFileEnding_iff hwalk ext, ⟨tree.directoriesAt isSkipped root, ?_, hdirectories, ?_, ?_⟩,
    fun f root ds => watched_new⟩
  · rw [scannedDirectories, hwalk]
    rfl
  · intro ns n content hfile hext
    obtain ⟨es, hes⟩ := FileTree.directory_of_find? hfile
    rw [hdirectories, mem_filesEnding h hwalk ext]
    constructor
    · rintro ⟨ms, es', hms, hskip, heq⟩
      obtain rfl := Path.descend_injective (hlawful.find? hes).1 (hlawful.find? hms).1 heq
      exact ⟨ns ++ [n], hfile, by simpa using hskip, rfl, hext⟩
    · rintro ⟨ms, hms, hskip, heq, -⟩
      obtain rfl := Path.descend_injective (hlawful.find? hfile).1 (hlawful.find? hms).1 heq
      exact ⟨ns, es, hes, by simpa using hskip, rfl⟩
  · intro hfile
    cases tree with
    | file content => rfl
    | directory es => cases hfile

end Files

/-! ## trees of files -/

namespace FileTree

theorem name_of_mem_putEntry {name : String} {t : FileTree} {es : List (String × FileTree)}
    {e : String × FileTree} (he : e ∈ putEntry name t es) : e.1 = name ∨ ∃ e' ∈ es, e'.1 = e.1 := by
  induction es with
  | nil => simp_all [putEntry]
  | cons e' rest ih => grind [putEntry]

theorem LawfulEntries.putEntry {name : String} {t : FileTree} {es : List (String × FileTree)}
    (h : LawfulEntries es) (hname : IsName name) (ht : t.Lawful) :
    LawfulEntries (putEntry name t es) := by
  induction es with
  | nil => exact ⟨hname, ht, by simp, trivial⟩
  | cons e rest ih =>
      obtain ⟨n, u⟩ := e
      obtain ⟨hn, hu, hlt, hrest⟩ := h
      rw [FileTree.putEntry]
      split
      · exact ⟨hn, ht, hlt, hrest⟩
      · split
        · next hbefore =>
            refine ⟨hname, ht, List.forall_mem_cons.mpr ⟨hbefore, ?_⟩, hn, hu, hlt, hrest⟩
            exact fun e he => List.lt_trans hbefore (hlt e he)
        · next hne hbefore =>
            refine ⟨hn, hu, fun e he => ?_, ih hrest⟩
            obtain heq | ⟨e', he', heq⟩ := name_of_mem_putEntry he
            · have hlt : n < name :=
                lt_of_le_of_ne (not_lt.mp fun h => hbefore (Text.bytes_lt h)) (Ne.symm hne)
              exact heq ▸ Text.bytes_lt hlt
            · exact heq ▸ hlt e' he'

theorem Lawful.put {t tree : FileTree} (ht : t.Lawful) (htree : tree.Lawful) {ns : List String}
    (h : ∀ n ∈ ns, IsName n) : (put t ns tree).Lawful := by
  induction ns generalizing tree with
  | nil => exact ht
  | cons n ns ih =>
      obtain ⟨hn, hns⟩ := List.forall_mem_cons.mp h
      refine htree.entries.putEntry hn (ih ?_ hns)
      cases hlookup : tree.entries.lookup n with
      | none => trivial
      | some u =>
          have hfind : tree.find? [n] = some u := by simp [FileTree.find?, hlookup]
          exact (htree.find? hfind).2

theorem Lawful.addFile {t : FileTree} (h : t.Lawful) {path : String}
    (hpath : ∀ n ∈ parts path, IsName n) (content : String) : (t.addFile path content).Lawful := by
  have hempty : (empty : FileTree).Lawful := trivial
  have hfile : (file content : FileTree).Lawful := trivial
  simp only [FileTree.addFile]
  split
  · split
    · exact h
    · exact hempty.put h hpath
  · exact hfile.put h hpath

/-- The tree of some files is lawful. -/
theorem lawful_ofFiles {directory : String} (hdirectory : ∀ n ∈ parts directory, IsName n)
    {files : List (String × String)}
    (hfiles : ∀ f ∈ files, ∀ n ∈ parts (directory ++ "/" ++ f.1), IsName n) :
    (ofFiles directory files).Lawful := by
  have hrun {t : FileTree} (ht : t.Lawful) :
      (files.foldl (fun t f => t.addFile (directory ++ "/" ++ f.1) f.2) t).Lawful := by
    induction files generalizing t with
    | nil => exact ht
    | cons f files ih =>
        obtain ⟨hf, hfiles⟩ := List.forall_mem_cons.mp hfiles
        exact ih hfiles (ht.addFile hf f.2)
  have hempty : (empty : FileTree).Lawful := trivial
  exact hrun (hempty.put hempty hdirectory)

/-- A project in which a directory and a file begin with the same name, and one directory is
skipped. -/
def sampleTree : FileTree :=
  ofFiles "/work" [("a-b.go", "1"), ("a/x.go", "2"), ("vendor/y.go", "3"), ("a/n.txt", "4")]

theorem lawful_sampleTree : sampleTree.Lawful := by
  unfold sampleTree
  refine lawful_ofFiles ?_ ?_
  · decide +kernel
  · decide +kernel

end FileTree

namespace Files

/-- The project, seen from its directory. -/
def sampleFiles : Files := ⟨FileTree.sampleTree, "/work"⟩

/-- What stands in the directory of the project. -/
def sampleRoot : FileTree :=
  .directory [("a", .directory [("n.txt", .file "4"), ("x.go", .file "2")]),
    ("a-b.go", .file "1"), ("vendor", .directory [("y.go", .file "3")])]

/-- The files of the project are seen and watched but for the skipped directory. -/
theorem sampleFiles_agrees :
    sampleFiles.tree.Lawful ∧ sampleFiles.walk "." = .ok sampleRoot ∧
    sampleFiles.filesEnding "." ".go" = [("a/x.go", "2"), ("a-b.go", "1")] ∧
    ∃ w, Watch.Watcher.new sampleFiles "." = .ok w ∧ "a" ∈ w.watched ∧ "vendor" ∉ w.watched := by
  have hwalk : sampleFiles.walk "." = .ok sampleRoot := by rfl
  have hfiles : sampleFiles.filesEnding "." ".go" = [("a/x.go", "2"), ("a-b.go", "1")] := by
    decide +kernel
  have ha : descend "." ["a"] = "a" := by decide +kernel
  have hx : descend "." (["a"] ++ ["x.go"]) = "a/x.go" := by decide +kernel
  have hvendor : descend "." ["vendor"] = "vendor" := by decide +kernel
  have hy : descend "." (["vendor"] ++ ["y.go"]) = "vendor/y.go" := by decide +kernel
  obtain ⟨-, -, -, ⟨ds, hds, -, hagree, -⟩, hwatcher⟩ :=
    scan_and_watch_agree FileTree.lawful_sampleTree hwalk ".go"
  obtain ⟨w, hw, hwatched⟩ := hwatcher sampleFiles "." ds hds
  have hseen := hagree ["a"] "x.go" "2" rfl (by decide +kernel)
  have hunseen := hagree ["vendor"] "y.go" "3" rfl (by decide +kernel)
  rw [hfiles, ha, hx, ← hwatched] at hseen
  rw [hfiles, hvendor, hy, ← hwatched] at hunseen
  refine ⟨FileTree.lawful_sampleTree, hwalk, hfiles, w, hw, hseen.mpr (by decide), fun h => ?_⟩
  exact absurd (hunseen.mp h) (by decide)

/-- A root that is a file is seen, although it stands in no watched directory. -/
theorem fileRoot_unwatched :
    sampleFiles.filesEnding "/work/a-b.go" ".go" = [("/work/a-b.go", "1")] ∧
      (Watch.Watcher.new sampleFiles "/work/a-b.go").toOption.map (·.watched) = some [] := by
  constructor
  · decide +kernel
  · decide +kernel

end Files

end Ripple.Source
