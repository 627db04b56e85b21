import Ripple.CommandLine.Suite
import Ripple.Export.Document
import Ripple.Impact.Form

/-!
# Ripple.Program.Invocation

What can be asked of the program on the command line.
-/

namespace Ripple.Program

open CommandLine

/-- What a command is for. -/
inductive Purpose where
  | analyze
  | query (kind : QuestionKind)
  | serve
  | tools
  | watch
  | export
  | risk
  deriving DecidableEq, Repr

/-- A request to the program. -/
inductive Invocation where
  | analyze (project : String)
  | query (question : Question) (format : String)
  | serve (project : Option String) (watch : Bool) (address : String)
  | tools (project : Option String)
  | watch (project : String) (debounce : Option Int)
  | export (target : String) (options : Export.Options)
  /-- The risk of a method, or of the methods with most callers. -/
  | risk (signature : Option String) (limit : Int) (format : String)
  deriving DecidableEq, Repr

/-- What is said for all commands. -/
structure Globals where
  database : Option String
  settingsFile : String
  logLevel : Option String
  deriving DecidableEq, Repr

/-- The flag for the form of the output. -/
def formatFlag : Flag := ⟨"format", some 'f', .text⟩

/-- A command that asks a question. -/
def queryCommand (name : String) (kind : QuestionKind) : Command Purpose :=
  ⟨name, .query kind, [formatFlag], .exactly kind.parameters.length⟩

/-- The commands of the program. -/
def suite : Suite Purpose :=
  { name := "beyondsight"
    shared := [⟨"db", some 'd', .text⟩, ⟨"config", some 'c', .text⟩, ⟨"log-level", none, .text⟩]
    commands :=
      [⟨"analyze", .analyze, [], .atMost 1⟩,
       queryCommand "field" .field, queryCommand "method" .method, queryCommand "class" .class,
       queryCommand "writers" .writers, queryCommand "readers" .readers,
       queryCommand "upstream" .upstream, queryCommand "downstream" .downstream,
       ⟨"serve", .serve, [⟨"addr", none, .text⟩, ⟨"watch", some 'w', .switch⟩], .atMost 1⟩,
       ⟨"mcp", .tools, [], .atMost 1⟩,
       ⟨"watch", .watch, [⟨"debounce", none, .span⟩], .atMost 1⟩,
       ⟨"export", .export,
         [⟨"output", some 'o', .text⟩, ⟨"name", none, .text⟩, ⟨"no-mermaid", none, .switch⟩,
          ⟨"no-chains", none, .switch⟩, ⟨"rows", none, .integer⟩], .none⟩,
       ⟨"risk", .risk,
         [⟨"top", none, .switch⟩, ⟨"limit", some 'n', .integer⟩, formatFlag], .atMost 1⟩] }

/-- The question with the arguments of its command, in which a class comes before its member. -/
def questionOf (kind : QuestionKind) (arguments : List String) : Question :=
  let first := arguments.headD ""
  let second := (arguments.drop 1).headD ""
  match kind with
  | .field => .field second first
  | .method => .method second first
  | .class => .class first
  | .writers => .writers first
  | .readers => .readers first
  | .upstream => .upstream first
  | .downstream => .downstream first

/-- What the export is made with. -/
def exportOptions (p : Parsed) : Export.Options :=
  let base : Export.Options := {}
  { diagram := !p.isOn "no-mermaid"
    callChains := !p.isOn "no-chains"
    projectName := ((p.text? "name").filter (· ≠ "")).getD base.projectName
    impactRows := (p.integer? "rows").getD 20 }

/-- The request behind the arguments of a command. -/
def invocation (p : Parsed) : Purpose → Invocation
  | .analyze => .analyze (p.arguments.headD ".")
  | .query kind => .query (questionOf kind p.arguments) ((p.text? "format").getD "text")
  | .serve => .serve p.arguments.head? (p.isOn "watch") ((p.text? "addr").getD "")
  | .tools => .tools p.arguments.head?
  | .watch => .watch (p.arguments.headD ".") (p.span? "debounce")
  | .export => .export ((p.text? "output").getD "") (exportOptions p)
  | .risk => .risk (if p.isOn "top" then none else p.arguments.head?)
      ((p.integer? "limit").getD 10) ((p.text? "format").getD "text")

/-- What is said for all commands. -/
def globals (p : Parsed) : Globals :=
  ⟨p.text? "db", (p.text? "config").getD "", p.text? "log-level"⟩

end Ripple.Program
