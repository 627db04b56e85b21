import Ripple.Failure
import Ripple.Go.Ingest
import Ripple.Java.Ingest
import Ripple.Source.FileTree

/-!
# Ripple.Analysis

The analysis of a project: every enabled language that finds sources below the root feeds its facts
into a builder, in the order in which the languages are enabled.
-/

namespace Ripple

open Source

/-- A language whose sources can be analysed. -/
inductive Language where
  | go
  | java
  deriving DecidableEq, Repr

namespace Language

/-- The name of a language. -/
def name : Language → String
  | .go => "go"
  | .java => "java"

/-- The language with a name; case and blanks around it do not matter. -/
def ofName? (s : String) : Option Language :=
  match (Text.trim s).toLower with
  | "go" => some .go
  | "java" => some .java
  | _ => none

/-- The languages with some names, all of which must be known. -/
def ofNames (names : List String) : Except Failure (List Language) :=
  names.mapM fun n =>
    match ofName? n with
    | some l => .ok l
    | none => .error (.ofText ("unsupported language: " ++ n))

/-- Whether there are sources of a language below a root. -/
def detect (f : Files) (root : String) : Language → Bool
  | .go =>
    match f.walk (Path.join [root, "go.mod"]) with
    | .ok (.file _) => true
    | _ => false
  | .java => f.hasFileEnding root ".java"

end Language

/-- A computation that feeds a builder and can fail. -/
abbrev Analysis := ExceptT Failure (StateM Builder)

/-- An ingest as a part of an analysis. -/
def Analysis.ofIngest (i : Ingest α) : Analysis α := fun b =>
  let (r, b) := i.run b
  (r.mapError GraphError.toFailure, b)

/-- Analyses the Java sources below a root. -/
def analyseJava (f : Files) (root : String) (cancelled : Bool) : Analysis Unit := do
  if cancelled then throw (.within ("scan " ++ root) (.root .cancelled))
  let files := (f.filesEnding root ".java").map fun (p, s) => Java.FileFacts.ofSource p s
  .ofIngest (Java.ingestFiles files)

/-- Analyses the Go module at a root. -/
def analyseGo (f : Files) (root : String) (cancelled : Bool) : Analysis Unit := do
  if cancelled then throw (.within "failed to load packages" (.root .cancelled))
  .ofIngest (Go.ingestModule f.cwd (.at f.tree root))

/-- Analyses the sources of a language below a root. -/
def Language.analyse (f : Files) (root : String) (cancelled : Bool) (l : Language) :
    Analysis Unit :=
  let run := match l with
    | .go => analyseGo f root cancelled
    | .java => analyseJava f root cancelled
  ExceptT.adapt (Failure.within (l.name ++ " analysis")) run

/-- Analyses a project in some languages; it must have sources of one of them. -/
def analyse (f : Files) (root : String) (cancelled : Bool) (languages : List Language) :
    Analysis Unit :=
  match languages.filter (Language.detect f root) with
  | [] => throw (.within root (.root .noSources))
  | ls => ls.forM (Language.analyse f root cancelled)

end Ripple
