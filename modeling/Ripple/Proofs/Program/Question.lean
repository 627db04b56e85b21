import Ripple.Program.Execute
import Ripple.Proofs.Impact.Agreement
import Ripple.Proofs.Impact.Answer

/-!
# Ripple.Proofs.Program.Question

A question on the command line.

Arguments without a dash at the front are taken as they are, and a flag that is given by its letter
takes the argument after it (`parseAfter_append`, `parseAfter_letter`).  So the command of a kind of
question reads the texts of the question, and a database that a graph was saved to gives the answers
of that graph (`run_question`).
-/

namespace Ripple.CommandLine

variable {flags : List Flag}

theorem readLetters_singleton {c : Char} {f : Flag} (hf : lettered? flags c = some f)
    (hkind : f.kind ≠ .switch) : readLetters flags [c] = .ok ⟨[], some ⟨f, true⟩⟩ := by
  have htest : Text.hasPrefix (String.ofList [c]) "test." = false := by
    simp [Text.hasPrefix, Text.startsWithChars]
  simp only [readLetters, htest, hf]
  simp [hkind]
  rfl

/-- A flag that is given by its letter takes the next argument, whatever it is. -/
theorem parseAfter_letter {c : Char} {f : Flag} (hc : c ≠ '-') (hf : lettered? flags c = some f)
    (hkind : f.kind = .text) {s : String} (hs : s.toList = ['-', c]) (v : String)
    (rest : List String) :
    parseAfter flags none (s :: v :: rest) =
      (fun p => { p with values := (f.name, .text v) :: p.values }) <$>
        parseAfter flags none rest := by
  have hread := readLetters_singleton hf (by rw [hkind]; decide)
  have hassign : assign f v = .ok (f.name, .text v) := by simp [assign, hkind, FlagKind.read]
  have hnext : parseAfter flags (some ⟨f, true⟩) (v :: rest) =
      (fun p => { p with values := (f.name, .text v) :: p.values }) <$>
        parseAfter flags none rest := by
    rw [parseAfter, hassign]
    rfl
  rw [parseAfter, hs]
  split
  · next heq => simp [hc] at heq
  · next heq => simp [hc] at heq
  · next heq =>
      obtain ⟨rfl, rfl⟩ : c = _ ∧ [] = _ := by simpa using heq
      rw [hread]
      change parseAfter.flagsThen flags _ _ = _
      rw [parseAfter.flagsThen, hnext]
      cases parseAfter flags none rest <;> rfl
  · next h => exact absurd rfl (h _ _)

/-- Arguments without a dash at the front are no flags. -/
theorem parseAfter_append {arguments : List String}
    (h : ∀ s ∈ arguments, s.toList.head? ≠ some '-') (rest : List String) :
    parseAfter flags none (arguments ++ rest) =
      (fun p => { p with arguments := arguments ++ p.arguments }) <$>
        parseAfter flags none rest := by
  induction arguments with
  | nil =>
      rw [List.nil_append]
      cases parseAfter flags none rest <;> rfl
  | cons s arguments ih =>
      obtain ⟨hs, harguments⟩ := List.forall_mem_cons.mp h
      rw [List.cons_append, parseAfter, ih harguments]
      split
      · next heq => simp [heq] at hs
      · next heq => simp [heq] at hs
      · next heq => simp [heq] at hs
      · cases parseAfter flags none rest <;> rfl

end Ripple.CommandLine

namespace Ripple.Program

open CommandLine

/-! ## reading the arguments -/

/-- The command that asks a kind of question. -/
def commandOf : QuestionKind → String
  | .field => "field"
  | .method => "method"
  | .class => "class"
  | .writers => "writers"
  | .readers => "readers"
  | .upstream => "upstream"
  | .downstream => "downstream"

/-- The arguments that ask for an answer in JSON, from the database at a path if one is given. -/
def questionArguments (kind : QuestionKind) (texts : List String) (database : Option String) :
    List String :=
  commandOf kind ::
    (texts ++ "-f" :: "json" :: (database.elim [] fun path => ["-d", path]))

/-- What these arguments are read as. -/
def questionParsed (texts : List String) (database : Option String) : Parsed :=
  ⟨("format", .text "json") :: (database.elim [] fun path => [("db", .text path)]), texts⟩

theorem parse_questionArguments {texts : List String}
    (htexts : ∀ s ∈ texts, s.toList.head? ≠ some '-') (database : Option String) :
    parse ([formatFlag] ++ suite.shared ++ [helpFlag])
        (texts ++ "-f" :: "json" :: (database.elim [] fun path => ["-d", path])) =
      .ok (questionParsed texts database) := by
  rw [parse, parseAfter_append htexts,
    parseAfter_letter (c := 'f') (f := formatFlag) (by decide) (by decide) rfl (by decide)]
  cases database with
  | none => simp [parseAfter, questionParsed]; rfl
  | some path =>
      rw [Option.elim, parseAfter_letter (c := 'd') (f := ⟨"db", some 'd', .text⟩) (by decide)
        (by decide) rfl (by decide)]
      simp [parseAfter, questionParsed]
      rfl

/-- The arguments are read as the texts of the question. -/
theorem read_questionArguments (kind : QuestionKind) {texts : List String}
    (htexts : ∀ s ∈ texts, s.toList.head? ≠ some '-')
    (hlength : texts.length = kind.parameters.length) (database : Option String) :
    suite.read (questionArguments kind texts database) =
      .ok (.run (.query kind) (questionParsed texts database)) := by
  have hparse := parse_questionArguments htexts database
  have hread : ∀ path, (queryCommand (commandOf kind) kind).read path suite.shared
      (texts ++ "-f" :: "json" :: (database.elim [] fun path => ["-d", path])) =
        .ok (.run (.query kind) (questionParsed texts database)) := by
    intro path
    have hhelp : (questionParsed texts database).isOn helpFlag.name = false := by
      cases database <;> rfl
    have hcount : (Arity.exactly kind.parameters.length).check path texts = .ok () := if_pos hlength
    rw [Command.read]
    change (parse ([formatFlag] ++ suite.shared ++ [helpFlag]) _).mapError UsageError.flag >>= _ = _
    rw [hparse]
    change (if (questionParsed texts database).isOn helpFlag.name = true then _ else _) = _
    rw [hhelp]
    change (Arity.exactly kind.parameters.length).check path texts >>= _ = _
    rw [hcount]
    rfl
  cases kind <;> exact hread _

/-! ## the stored graph -/

/-- A graph was saved to the database that the commands use, and they bound closures by a cap. -/
def World.Holds (w : World) (database : Option String) (g : Graph) (cap : Nat) : Prop :=
  ∃ settings languages db now saved,
    Session.settingsFor w ⟨database, "", none⟩ = .ok settings ∧
    Language.ofNames (settings.languages.getD []) = .ok languages ∧
    Closure.capOf settings.maxNodes = cap ∧
    World.isVolatile settings.databasePath = false ∧
    Snapshot.Database.save db false g now = .ok saved ∧
    w.databases.lookup (Path.absolute w.surroundings.cwd settings.databasePath) = some saved

theorem tables_of_save {db saved : Snapshot.Database} {g : Graph} {now : Timestamp}
    (h : db.save false g now = .ok saved) : saved.tables = .ofGraph g now := by
  cases hopen : db.isOpen with
  | false => simp [Snapshot.Database.save, Snapshot.Database.access, hopen] at h
  | true =>
      rw [Snapshot.Database.save_of_open hopen] at h
      cases h
      rfl

/-- A command publishes the graph that was saved, up to what can be seen of it. -/
theorem start_of_holds {w : World} {database : Option String} {g : Graph} {cap : Nat}
    (hg : g.Built) (hs : Snapshot.Storable g) (h : w.Holds database g cap) :
    ∃ settings session, Session.settingsFor w ⟨database, "", none⟩ = .ok settings ∧
      Session.start w settings = .ok session ∧
      session.service.indexer.store.snapshot.Agrees g ∧ session.service.cap = cap := by
  obtain ⟨settings, languages, db, now, saved, hsettings, hlanguages, hcap, hpath, hsave,
    hlookup⟩ := h
  obtain ⟨b, hload, -, hagrees⟩ := Snapshot.load_ofGraph hg.wellFormed hg.tidy hs now
  have hfind : w.findDatabase settings.databasePath = .ok saved.reopen := by
    simp [World.findDatabase, hpath, hlookup]
  have hstored : saved.reopen.load false = .ok b := by
    rw [Snapshot.Database.load, Snapshot.Database.access_of_open rfl]
    change (saved.tables.load).mapError _ = _
    rw [tables_of_save hsave, hload]
    rfl
  refine ⟨settings, ⟨settings, languages, saved.reopen, ⟨.new ⟨b.graph⟩ true, cap⟩⟩, hsettings, ?_,
    hagrees, rfl⟩
  rw [Session.start, hfind]
  change (saved.reopen.load false).mapError _ >>= _ = _
  rw [hstored]
  change Language.ofNames _ >>= _ = _
  rw [hlanguages, hcap]
  rfl

/-! ## the run -/

theorem get_run (p : Progress) : (get : Action Progress).run p = (.ok p, p) := rfl

theorem need_run (r : Except Failure α) (p : Progress) : (need r).run p = (r, p) := by
  cases r <;> rfl

theorem begin_run {settings : Settings} {session : Session} {p : Progress}
    (h : Session.start p.world settings = .ok session) :
    (begin settings).run p =
      (.ok session, { p with
        world := p.world.keepDatabase settings.databasePath session.database }) := by
  change (need (Session.start p.world settings) >>= _ : Action Session).run p = _
  rw [run_bind, need_run, h]
  rfl

/-- A command never cancels its question. -/
theorem scope_occasion (s : Service) (w : World) :
    s.scope (Session.occasion w) = .capped s.indexer.store.snapshot s.cap := rfl

theorem query_run (s : Session) (q : Question) (p : Progress) :
    (query s q "json").run p =
      match ask (.capped s.service.indexer.store.snapshot s.service.cap) q with
      | .ok a => (.ok (), { p with output := p.output ++ (a.toJson.pretty ++ "\n") })
      | .error f => (.error f, p) := by
  change (need (ask (s.service.scope (Session.occasion p.world)) q) >>= _ : Action Unit).run p = _
  rw [run_bind, need_run, scope_occasion]
  cases ask (.capped s.service.indexer.store.snapshot s.service.cap) q <;> rfl

theorem perform_query {given : Globals} {settings : Settings} {session : Session} {w : World}
    (hsettings : Session.settingsFor w given = .ok settings)
    (hstart : Session.start w settings = .ok session) (q : Question) :
    ∃ w', (perform given (.query q "json")).run ⟨w, ""⟩ =
      match ask (.capped session.service.indexer.store.snapshot session.service.cap) q with
      | .ok a => (.ok none, ⟨w', a.toJson.pretty ++ "\n"⟩)
      | .error f => (.error f, ⟨w', ""⟩) := by
  refine ⟨w.keepDatabase settings.databasePath session.database, ?_⟩
  have hquery := query_run session q ⟨w.keepDatabase settings.databasePath session.database, ""⟩
  simp only [String.empty_append] at hquery
  rw [perform, run_bind, get_run]
  dsimp only
  rw [run_bind, need_run, hsettings]
  dsimp only
  rw [run_bind, begin_run (p := ⟨w, ""⟩) hstart]
  dsimp only
  rw [run_bind, hquery]
  cases ask (.capped session.service.indexer.store.snapshot session.service.cap) q <;> rfl

/-- **A question on the command line** has the answer of the graph that was saved: it is printed, or
the failure is the failure of the question and nothing is printed. -/
theorem run_question {w : World} {database : Option String} {g : Graph} {cap : Nat}
    (hg : g.Built) (hs : Snapshot.Storable g) (h : w.Holds database g cap) (kind : QuestionKind)
    {texts : List String} (htexts : ∀ s ∈ texts, s.toList.head? ≠ some '-')
    (hlength : texts.length = kind.parameters.length) :
    let r := run w (questionArguments kind texts database)
    (r.failure, r.output) =
      match ask (.capped g cap) (questionOf kind texts) with
      | .ok a => (none, a.toJson.pretty ++ "\n")
      | .error f => (some f, "") := by
  obtain ⟨settings, session, hsettings, hstart, hagrees, hcap⟩ := start_of_holds hg hs h
  have hglobals : globals (questionParsed texts database) = ⟨database, "", none⟩ := by
    cases database <;> rfl
  have hinvocation : invocation (questionParsed texts database) (.query kind) =
      .query (questionOf kind texts) "json" := by
    cases database <;> rfl
  obtain ⟨w', hperform⟩ := perform_query hsettings hstart (questionOf kind texts)
  have hask : ask (.capped session.service.indexer.store.snapshot cap) (questionOf kind texts) =
      ask (.capped g cap) (questionOf kind texts) := hagrees.ask_eq cap _ _
  rw [hcap, hask] at hperform
  simp only [run, read_questionArguments kind htexts hlength, hglobals, hinvocation, hperform]
  cases ask (.capped g cap) (questionOf kind texts) <;> rfl

end Ripple.Program
