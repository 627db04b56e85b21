import Ripple.Proofs.Impact.Refusal
import Ripple.Proofs.Json.Document
import Ripple.Proofs.Lists
import Ripple.Proofs.Program.Question
import Ripple.Proofs.Web.Target
import Ripple.Tool.Call
import Ripple.Web.Handler

/-!
# Ripple.Proofs.Surfaces

The web, the tools and the command line give the same answers.

A kind of question has a path, a tool and a command, and its texts have a place in each of them.
What each surface makes of the answer to the question is one equation (`Web.handle_question`,
`Tool.call_question`, `Program.run_question`), and all their documents read back as one value.
-/

namespace Ripple

/-! ## documents of answers -/

theorem FieldRef.toJson_readable (f : FieldRef) : f.toJson.Readable := by
  simp [FieldRef.toJson, Json.readable_object, Json.Readable]

theorem Json.readable_list {f : α → Json} (hf : ∀ x, (f x).Readable) (xs : List α) :
    (Json.list f (some xs)).Readable := by
  rw [Json.list, Json.readable_array]
  simp [hf]

theorem MemberEntry.toJson_readable (m : MemberEntry) : m.toJson.Readable := by
  have hcall (c : CallRef) : c.toJson.Readable := by
    simp [CallRef.toJson, Json.readable_object, Json.Readable]
  simp [MemberEntry.toJson, Json.readable_object, Json.Readable, Json.readable_list hcall,
    Json.readable_list FieldRef.toJson_readable]

theorem FileEntry.toJson_readable (f : FileEntry) : f.toJson.Readable := by
  have htype (t : TypeEntry) : t.toJson.Readable := by
    simp [TypeEntry.toJson, Json.readable_object, Json.Readable,
      Json.readable_list FieldRef.toJson_readable, Json.readable_list MemberEntry.toJson_readable]
  simp [FileEntry.toJson, Json.readable_object, Json.Readable, Json.readable_list htype]

theorem Answer.toJson_readable (a : Answer) : a.toJson.Readable := by
  have hflag (b : Bool) : ∀ m ∈ Json.flag "truncated" b, m.2.Readable := by
    cases b <;> simp [Json.flag, Json.Readable]
  have hnonempty (name text : String) : ∀ m ∈ Json.nonempty name text, m.2.Readable := by
    unfold Json.nonempty
    split <;> simp [Json.Readable]
  cases a with
  | report r =>
      have htarget : r.target.toJson.Readable := by
        rw [Target.toJson, Json.readable_object]
        simp only [List.mem_append]
        rintro m (hm | hm)
        · simp only [List.mem_cons, List.not_mem_nil, or_false] at hm
          obtain rfl | rfl | rfl := hm <;> simp [Json.Readable]
        · exact hnonempty _ _ m hm
      rw [Answer.toJson, Report.toJson, Report.document, Json.readable_object]
      simp only [List.mem_append, List.mem_cons, List.not_mem_nil, or_false]
      rintro m ((rfl | rfl) | hm)
      · exact htarget
      · exact Json.readable_list FileEntry.toJson_readable _
      · exact hflag _ m hm
  | methods l =>
      have hmethod (m : MethodEntry) : m.toJson.Readable := by
        simp [MethodEntry.toJson, Json.readable_object, Json.Readable]
      rw [Answer.toJson, MethodList.toJson, MethodList.document, Json.readable_object]
      simp only [List.mem_append, List.mem_singleton]
      rintro m (rfl | hm)
      · exact Json.readable_list hmethod _
      · exact hflag _ m hm

/-! ## texts of questions -/

/-- A question depends on the texts under its names only. -/
theorem QuestionKind.question_congr {kind : QuestionKind} {text text' : String → String}
    (h : ∀ n ∈ kind.parameters, text n = text' n) : kind.question text = kind.question text' := by
  cases kind <;> simp_all [QuestionKind.parameters, QuestionKind.question]

/-- Raw texts without stray bytes are served as the texts that they are. -/
theorem Service.serveRaw_query {kind : QuestionKind} {text : String → String}
    {raw : String → RawText} (h : ∀ n ∈ kind.parameters, raw n = .ofText (text n)) (s : Service)
    (o : Occasion) :
    s.serveRaw o (.query kind) raw = (.answer <$> ask (s.scope o) (kind.question text), s) := by
  have hlegible : ((Form.query kind).parameters.all fun n => (raw n).text?.isSome) = true := by
    refine List.all_eq_true.mpr fun n hn => ?_
    rw [h n hn, RawText.text?_ofText]
    rfl
  have hshown : ∀ n ∈ kind.parameters, (raw n).shown = text n := fun n hn => by
    rw [h n hn, RawText.shown_ofText]
  rw [serveRaw, if_pos hlegible, Form.request, QuestionKind.question_congr hshown, serve]

/-! ## the web -/

namespace Web

/-- The path that answers a kind of question. -/
def pathOf : QuestionKind → String
  | .field => "/api/v1/impact/field/full"
  | .method => "/api/v1/impact/method/full"
  | .class => "/api/v1/impact/class/full"
  | .writers => "/api/v1/impact/field/writers"
  | .readers => "/api/v1/impact/field/readers"
  | .upstream => "/api/v1/impact/method/upstream"
  | .downstream => "/api/v1/impact/method/downstream"

/-- A target carries the texts of a kind of question. -/
def Carries (kind : QuestionKind) (text : String → String) (target : String) : Prop :=
  (Target.ofString target).path = .ofText (pathOf kind) ∧
    ∀ n ∈ kind.parameters, (Target.ofString target).text n = .ofText (text n)

instance (kind : QuestionKind) (text : String → String) (target : String) :
    Decidable (Carries kind text target) :=
  inferInstanceAs (Decidable
    (_ ∧ ∀ n ∈ kind.parameters, (Target.ofString target).text n = .ofText (text n)))

/-- The target with the texts of a kind of question. -/
def questionTarget (kind : QuestionKind) (text : String → String) : String :=
  targetOf (pathOf kind) (kind.parameters.map fun n => (n, text n))

/-- Any texts can be carried. -/
theorem carries_questionTarget (kind : QuestionKind) (text : String → String) :
    Carries kind text (questionTarget kind text) := by
  have hpath : Plain (pathOf kind) := by cases kind <;> decide
  have hroot : Text.hasPrefix (pathOf kind) "/" = true := by cases kind <;> decide +kernel
  have hne : kind.parameters ≠ [] := by cases kind <;> decide
  have hnames : ∀ n ∈ kind.parameters, Plain n := by cases kind <;> decide +kernel
  refine ⟨Target.path_ofString_targetOf hpath hroot _, fun n hn => ?_⟩
  rw [Target.text, questionTarget, Target.pairs_ofString_targetOf hpath (by simpa using hne)
    (by simpa using hnames), lookup_map_rawPair, lookup_map hn]
  rfl

theorem direct_pathOf (kind : QuestionKind) :
    direct get (.ofText (pathOf kind)) = .endpoint (.service (.query kind)) := by
  cases kind <;> decide +kernel

/-- **A question over the web**: the answer of the published graph, or its failure. -/
theorem handle_question {kind : QuestionKind} {text : String → String} {target : String}
    (h : Carries kind text target) (setting : Setting) (s : Service) :
    (handle setting s get target).1 =
      match ask (s.scope setting.occasion) (kind.question text) with
      | .ok a => .json 200 a.toJson
      | .error f => .failed f := by
  obtain ⟨hpath, htext⟩ := h
  simp only [handle, hpath, direct_pathOf, respond, Service.serveRaw_query htext]
  cases ask (s.scope setting.occasion) (kind.question text) <;> rfl

/-- A question that is refused is answered with the code of the failure. -/
theorem failed_of_refused {f : Failure} (hf : Query.Refused f) :
    (Response.failed f).status = statusFor f.code ∧
      ∃ body, Json.parse? (Response.failed f).body = some body ∧
        body.get? "code" = some (.string f.code) := by
  obtain ⟨code, text, rfl⟩ : ∃ code text, f = .coded code text := by
    obtain ⟨text, rfl | rfl⟩ := hf
    · exact ⟨_, text, rfl⟩
    · exact ⟨_, text, rfl⟩
  have hreadable : (Failure.codedJson code text).Readable := by
    simp [Failure.codedJson, Json.readable_object, Json.Readable]
  exact ⟨rfl, _, Json.parse?_compact hreadable, rfl⟩

end Web

/-! ## tools -/

namespace Tool

/-- The tool that answers a kind of question. -/
def nameOf : QuestionKind → String
  | .field => "getFieldReferences"
  | .method => "getMethodReferences"
  | .class => "getClassReferences"
  | .writers => "getFieldWriters"
  | .readers => "getFieldReaders"
  | .upstream => "getUpstreamCallers"
  | .downstream => "getDownstreamCallees"

/-- The arguments of a call with the texts of a kind of question. -/
def argumentsOf (kind : QuestionKind) (text : String → String) : Json :=
  .object (kind.parameters.map fun n => (n, .string (text n)))

theorem find?_nameOf (kind : QuestionKind) :
    ∃ tool, find? (nameOf kind) = some tool ∧ tool.form = .query kind := by
  cases kind <;> exact ⟨_, rfl, rfl⟩

theorem arguments?_argumentsOf (kind : QuestionKind) (text : String → String) :
    arguments? kind.parameters (argumentsOf kind text) =
      some (kind.parameters.map fun n => (n, text n)) := by
  cases kind <;> rfl

/-- **A question through a tool**: the answer of the published graph, or the text of its failure. -/
theorem call_question (kind : QuestionKind) (text : String → String)
    (renderTime : Timestamp → String) (o : Occasion) (s : Service) :
    (call renderTime o s (nameOf kind) (argumentsOf kind text)).1 =
      match ask (s.scope o) (kind.question text) with
      | .ok a => .ok ⟨false, a.toJson.pretty⟩
      | .error f => .ok ⟨true, f.message⟩ := by
  obtain ⟨tool, hfind, hform⟩ := find?_nameOf kind
  have hquestion :
      kind.question (fun n => ((kind.parameters.map fun n => (n, text n)).lookup n).getD "") =
        kind.question text :=
    QuestionKind.question_congr fun n hn => by rw [lookup_map hn, Option.getD_some]
  simp only [call, hfind, hform, Form.parameters, arguments?_argumentsOf, Form.request,
    Service.serve, hquestion]
  cases ask (s.scope o) (kind.question text) <;> rfl

end Tool

/-! ## the command line -/

namespace Program

/-- The texts of a kind of question as arguments: a class comes before its member. -/
def textsOf (kind : QuestionKind) (text : String → String) : List String :=
  (kind.parameters.map text).reverse

theorem questionOf_textsOf (kind : QuestionKind) (text : String → String) :
    questionOf kind (textsOf kind text) = kind.question text := by
  cases kind <;> rfl

end Program

/-! ## all three -/

/-- The three surfaces give the same JSON value. -/
structure AllAnswer (v : Json) (response : Web.Response) (result : Except Tool.Refusal Tool.Result)
    (run : Program.Run) : Prop where
  status : response.status = 200
  body : Json.parse? response.body = some v
  content : ∃ text, result = .ok ⟨false, text⟩ ∧ Json.parse? text = some v
  completed : run.failure = none
  output : Json.parse? run.output = some v

/-- The three surfaces give the same failure: its code over the web, its text elsewhere. -/
structure AllFail (f : Failure) (response : Web.Response) (result : Except Tool.Refusal Tool.Result)
    (run : Program.Run) : Prop where
  status : response.status = Web.statusFor f.code
  code : ∃ body, Json.parse? response.body = some body ∧ body.get? "code" = some (.string f.code)
  content : result = .ok ⟨true, f.message⟩
  failed : run.failure = some f
  output : run.output = ""

/-- **One answer**: a graph that a builder holds is published by a service and was saved to the
database of a world, with the same cap on both sides.  Then the web, the tools and the command line
answer any question that nobody cancels alike: if the graph has an answer, all three give it as the
same JSON value, and otherwise all three fail as the question does.  Any texts can be put into a
target; only on the command line they must not begin with a dash. -/
theorem surfaces_agree {g : Graph} (hg : g.Built) (hs : Snapshot.Storable g) (s : Service)
    (hpublished : s.indexer.store.snapshot = g) {w : Program.World} {database : Option String}
    (hsaved : w.Holds database g s.cap) (setting : Web.Setting)
    (hweb : setting.occasion.cancelled = fun _ => false) (o : Occasion)
    (htool : o.cancelled = fun _ => false)
    (renderTime : Timestamp → String) (kind : QuestionKind) (text : String → String)
    (htext : ∀ n ∈ kind.parameters, (text n).toList.head? ≠ some '-') :
    Web.Carries kind text (Web.questionTarget kind text) ∧
      ∀ target, Web.Carries kind text target →
        let response := (Web.handle setting s Web.get target).1
        let result := (Tool.call renderTime o s (Tool.nameOf kind) (Tool.argumentsOf kind text)).1
        let run := Program.run w
          (Program.questionArguments kind (Program.textsOf kind text) database)
        match ask (.capped g s.cap) (kind.question text) with
        | .ok a => AllAnswer a.toJson response result run
        | .error f => AllFail f response result run := by
  refine ⟨Web.carries_questionTarget kind text, fun target htarget => ?_⟩
  have hscope (o : Occasion) (ho : o.cancelled = fun _ => false) : s.scope o = .capped g s.cap := by
    rw [Service.scope, hpublished, ho]
    rfl
  have hresponse := Web.handle_question htarget setting s
  have hresult := Tool.call_question kind text renderTime o s
  have htexts : ∀ t ∈ Program.textsOf kind text, t.toList.head? ≠ some '-' := by
    simpa [Program.textsOf] using htext
  have hrun := Program.run_question hg hs hsaved kind htexts (by simp [Program.textsOf])
  rw [hscope _ hweb] at hresponse
  rw [hscope _ htool] at hresult
  rw [Program.questionOf_textsOf] at hrun
  cases hask : ask (.capped g s.cap) (kind.question text) with
  | ok a =>
      rw [hask] at hresponse hresult hrun
      obtain ⟨hfailure, houtput⟩ := Prod.mk.inj hrun
      refine ⟨?_, ?_, ⟨_, hresult, Json.parse?_pretty a.toJson_readable⟩, hfailure, ?_⟩
      · rw [hresponse]
        rfl
      · rw [hresponse]
        exact Json.parse?_compact a.toJson_readable
      · rw [houtput]
        exact Json.parse?_pretty_line a.toJson_readable
  | error f =>
      rw [hask] at hresponse hresult hrun
      obtain ⟨hfailure, houtput⟩ := Prod.mk.inj hrun
      obtain ⟨hstatus, hcode⟩ := Web.failed_of_refused (Query.ask_refused hg hask)
      refine ⟨?_, ?_, hresult, hfailure, houtput⟩
      · rw [hresponse]
        exact hstatus
      · rw [hresponse]
        exact hcode

/-! ## a question to all three -/

/-- A service that publishes a class with a field that one of its methods writes. -/
def boxService : Service := ⟨.new ⟨Snapshot.boxGraph⟩ true, 0⟩

/-- A world without files, and with a database that the graph was saved to. -/
def boxWorld : Program.World :=
  ⟨⟨[], .empty, "/", "/"⟩, [("/box.db", ⟨.ofGraph Snapshot.boxGraph 0, true⟩)], 0, "run"⟩

theorem boxWorld_settings : Program.Session.settingsFor boxWorld ⟨some "/box.db", "", none⟩ =
    .ok { databasePath := "/box.db" } := by
  have hread (path : String) : Source.FileTree.empty.read? path = none := by
    rw [Source.FileTree.read?, Source.FileTree.at?]
    cases Source.FileTree.parts (Path.clean path) <;> rfl
  have hnone : boxWorld.surroundings.defaultFile? = none := by
    refine List.find?_eq_none.mpr fun path _ => ?_
    simp [boxWorld, hread]
  have hentries : Settings.readFile boxWorld.surroundings "" = .ok [] := by
    rw [Settings.readFile, if_pos rfl, hnone]
  rw [Program.Session.settingsFor, Settings.load, hentries]
  decide +kernel

theorem boxWorld_holds : boxWorld.Holds (some "/box.db") Snapshot.boxGraph boxService.cap :=
  ⟨_, [.go, .java], .new, 0, _, boxWorld_settings, by decide +kernel, rfl, by decide,
    Snapshot.Database.save_of_open rfl Snapshot.boxGraph 0, rfl⟩

theorem boxGraph_writers : ∃ a, ask (.capped Snapshot.boxGraph 0) (.writers "items") = .ok a := by
  have hwell : Snapshot.boxGraph.WellFormed :=
    Graph.Built.wellFormed ⟨_, Snapshot.boxFacts, rfl⟩
  have hnode : Snapshot.boxGraph.node? 3 = some ⟨3, .field "items" ["Map<K, \"V\">", "int[]"]⟩ := by
    rw [Graph.node?, ← Array.getElem?_toList, Snapshot.boxGraph_nodes]
    rfl
  have hfield : Snapshot.boxGraph.find? .field "items" = some 3 :=
    (hwell.find?_iff _ _ _).mpr ⟨_, hnode, rfl, rfl⟩
  have hwrites : Snapshot.boxGraph.Linked .writes 4 3 := by
    refine ⟨4, Graph.linkedAt_iff_key.mpr ?_⟩
    rw [Snapshot.boxGraph_eq]
    simp [Edge.key]
  have hne : Snapshot.boxGraph.predecessors 3 .writes ≠ [] :=
    List.ne_nil_of_mem (hwell.mem_predecessors.mpr hwrites)
  have hanswer :
      (Query.fieldAccess (.capped Snapshot.boxGraph 0) .writes "writers" "items").answer = _ :=
    Query.fieldAccess_answer ⟨by decide, hfield⟩
  rw [Query.listing, if_neg (by simpa [Scope.capped] using hne)] at hanswer
  exact ⟨_, congrArg (Answer.methods <$> ·) hanswer⟩

/-- The circumstances of the requests to the service. -/
def boxSetting : Web.Setting := ⟨Program.Session.occasion boxWorld, {}, fun _ => ""⟩

/-- The writers of the field are the same everywhere, and a blank name is refused everywhere. -/
theorem boxService_agrees : boxWorld.Holds (some "/box.db") Snapshot.boxGraph boxService.cap ∧
    (∃ a, ask (.capped Snapshot.boxGraph 0) (.writers "items") = .ok a ∧
      AllAnswer a.toJson
        (Web.handle boxSetting boxService "GET" "/api/v1/impact/field/writers?fieldName=items").1
        (Tool.call boxSetting.renderTime boxSetting.occasion boxService "getFieldWriters"
          (.object [("fieldName", .string "items")])).1
        (Program.run boxWorld ["writers", "items", "-f", "json", "-d", "/box.db"])) ∧
    AllFail (.coded Code.invalidParameter "fieldName must not be blank")
      (Web.handle boxSetting boxService "GET" "/api/v1/impact/field/writers?fieldName=+").1
      (Tool.call boxSetting.renderTime boxSetting.occasion boxService "getFieldWriters"
        (.object [("fieldName", .string " ")])).1
      (Program.run boxWorld ["writers", " ", "-f", "json", "-d", "/box.db"]) := by
  have hbuilt : Snapshot.boxGraph.Built := ⟨_, Snapshot.boxFacts, rfl⟩
  have hagree (text : String → String) (htext : (text "fieldName").toList.head? ≠ some '-') :=
    (surfaces_agree hbuilt Snapshot.boxGraph_storable boxService rfl boxWorld_holds boxSetting rfl
      boxSetting.occasion rfl boxSetting.renderTime .writers text
      (by simpa [QuestionKind.parameters] using htext)).2
  have hcarries : Web.Carries .writers (fun _ => "items")
      "/api/v1/impact/field/writers?fieldName=items" := by decide +kernel
  have hcarries' : Web.Carries .writers (fun _ => " ")
      "/api/v1/impact/field/writers?fieldName=+" := by decide +kernel
  obtain ⟨a, ha⟩ := boxGraph_writers
  refine ⟨boxWorld_holds, ⟨a, ha, ?_⟩, ?_⟩
  · have h := hagree (fun _ => "items") (by decide) _ hcarries
    change match ask (.capped Snapshot.boxGraph 0) (.writers "items") with
      | .ok a => _
      | .error f => _ at h
    rw [ha] at h
    exact h
  · exact hagree (fun _ => " ") (by decide) _ hcarries'

end Ripple
