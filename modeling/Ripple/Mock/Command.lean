import Ripple.CommandLine.Suite
import Ripple.Mock.Project
import Ripple.Path
import Ripple.Word

/-!
# Ripple.Mock.Command

The command that writes a synthetic project.
-/

namespace Ripple.Mock

open CommandLine

/-- The command with its flags. -/
def command : Command Unit :=
  ⟨"mockgen", (),
    [⟨"output", some 'o', .text⟩, ⟨"classes", none, .integer⟩, ⟨"fields", none, .integer⟩,
     ⟨"methods", none, .integer⟩, ⟨"depth", none, .integer⟩, ⟨"density", none, .decimal⟩,
     ⟨"seed", none, .natural⟩],
    .none⟩

/-- The plan that arguments ask for. -/
def planOf (a : Parsed) : Plan :=
  ⟨(a.integer? "classes").getD 50, (a.integer? "fields").getD 5, (a.integer? "methods").getD 20,
    (a.integer? "depth").getD 8, (a.decimal? "density").getD 3,
    UInt64.ofNat ((a.natural? "seed").getD 1)⟩

/-- What a run of the command comes to. -/
structure Run where
  /-- What is printed when all goes well. -/
  output : String
  /-- The first line of what is printed otherwise. -/
  problem : Option String
  /-- The files that are written, by absolute path. -/
  files : List (String × String)

/-- What is printed before and after the files are written. -/
def report (p : Plan) (directory : String) : String :=
  "Generating mock project...\n" ++
    s!"  classes:          {p.classes}\n  fields per class: {p.fields}\n" ++
    s!"  methods:          {Int.bmod (p.classes * p.methods) Word.count}\n" ++
    s!"  max depth:        {p.depth}\n  call density:     {Decimal.tenths p.density}\n" ++
    s!"\n✓ project written to {directory}\n\nNext:\n  beyondsight analyze {directory}\n"

/-- What is printed about a trouble. -/
def Trouble.message : Trouble → String
  | notPositive => "Error: classes, methods and depth must be positive"
  | tooManyLayers => "panic: runtime error: makeslice: len out of range"
  | draw .emptyRange => "panic: invalid argument to IntN"
  | draw (.outOfRange place size) =>
    s!"panic: runtime error: index out of range [{place}] with length {size}"

/-- Runs the command in a directory. -/
def run (cwd : String) (arguments : List String) : Run :=
  match command.read command.name [] arguments with
  | .error e => ⟨"", some (Text.upTo '\n' ("Error: " ++ e.message)), []⟩
  | .ok .help => ⟨"", none, []⟩
  | .ok (.run _ a) =>
    let p := planOf a
    let directory := (a.text? "output").getD "./mock-project"
    match generate p with
    | .error t => ⟨"", some t.message, []⟩
    | .ok files =>
      ⟨report p directory, none,
        files.map fun (path, content) =>
          (Path.absolute cwd (Path.join (directory :: path)), content)⟩

end Ripple.Mock
