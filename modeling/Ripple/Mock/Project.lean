import Ripple.Mock.Permuted
import Ripple.Mock.Plan
import Ripple.Text.Padding
import Ripple.Text.Search

/-!
# Ripple.Mock.Project

The sources of a synthetic project, one Java file for each class.
-/

namespace Ripple.Mock

/-- A number with zeros in front. -/
def numbered (word : String) (width n : Nat) : String := word ++ Text.padLeft width (toString n) '0'

/-- The name of a class. -/
def className (c : Nat) : String := numbered "Entity" 4 c

/-- The name of a field. -/
def fieldName (f : Nat) : String := numbered "value" 2 f

/-- How the names of the accessors of a field end. -/
def accessorSuffix (f : Nat) : String := numbered "Value" 2 f

/-- The name of a service method in its class. -/
def serviceName (m : Nat) : String := numbered "process" 3 m

/-- The package of all classes. -/
def package : List String := ["com", "example", "mock"]

/-- The statement at a place in its method. -/
def Statement.source (place : Nat) : Statement → String
  | call t =>
    s!"        result += {className t.classNumber}.{serviceName t.number}(result + {place});\n"
  | write c f => s!"        new {className c}().set{accessorSuffix f}(result);\n"
  | read c f => s!"        result += new {className c}().get{accessorSuffix f}();\n"

/-- The text between braces that belongs to a heading. -/
def block (heading body : String) : String :=
  "    " ++ heading ++ " \x7b\n" ++ body ++ "    \x7d\n\n"

/-- The accessors of a field. -/
def accessors (f : Nat) : String :=
  block s!"public int get{accessorSuffix f}()" s!"        return this.{fieldName f};\n" ++
    block s!"public void set{accessorSuffix f}(int v)" s!"        this.{fieldName f} = v;\n"

/-- A service method with its statements. -/
def serviceSource (m : Service) (body : List Statement) : String :=
  s!"    // depth {m.layer}\n" ++
    block s!"public static int {serviceName m.number}(int input)"
      ("        int result = input;\n" ++
        Text.join "" (body.zipIdx.map fun (a, place) => a.source place) ++
        "        return result;\n")

/-- The source of a class. -/
def classSource (c fields : Nat) (services : List (Service × List Statement)) : String :=
  let fs := List.range fields
  "package " ++ Text.join "." package ++ ";\n\n" ++ "public class " ++ className c ++ " \x7b\n" ++
    Text.join "" (fs.map fun f => s!"    private int {fieldName f};\n") ++ "\n" ++
    Text.join "" (fs.map accessors) ++
    Text.join "" (services.map fun (m, body) => serviceSource m body) ++ "\x7d\n"

/-- Where the source of a class is kept, below the directory of the project. -/
def classPath (c : Nat) : List String :=
  ["src", "main", "java"] ++ package ++ [className c ++ ".java"]

/-- Why a project cannot be generated. -/
inductive Trouble where
  | notPositive
  | tooManyLayers
  | draw (e : DrawError)
  deriving DecidableEq, Repr

/-- A file of a project: its path, in parts, and its content. -/
abbrev ProjectFile := List String × String

/-- The classes of a project with the numbers from `c`, as far as they can be drawn. -/
def drawFiles (p : Plan) (s : Source σ) : List Nat → Draw σ (List ProjectFile)
  | [] => return []
  | c :: rest => do
    let services ← p.drawClass s c
    return (classPath c, classSource c p.fields.toNat services) :: (← drawFiles p s rest)

/-- The largest number of layers that can be kept in memory. -/
def layerLimit : Nat := 0x1000000000000 / 24

/-- The files of a project, drawn from a source. -/
def generateFrom (s : Source σ) (start : σ) (p : Plan) : Except Trouble (List ProjectFile) :=
  if !p.isValid then .error .notPositive
  else if layerLimit < p.layers then .error .tooManyLayers
  else ((drawFiles p s (List.range p.classes.toNat)).run start).1.mapError .draw

/-- The files of a project.  The same seed gives the same files. -/
def generate (p : Plan) : Except Trouble (List ProjectFile) :=
  generateFrom Permuted.source (.ofSeed p.seed) p

end Ripple.Mock
