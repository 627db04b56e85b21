import Ripple.Display.Tree
import Ripple.Json.Basic
import Ripple.Risk
import Ripple.Text.Padding

/-!
# Ripple.Display.Risk

Risk scores as texts and as JSON.
-/

namespace Ripple.Display

/-- A row of the table of scores. -/
def riskRow (width : Nat) (s : RiskScore) : String :=
  let file := shortPath s.filePath
  let file := if file = "" then "-" else file
  let callers := Text.padLeft 7 (toString s.directCallers) ' '
  s!"{Text.padRight width s.signature}  {callers}  {RiskLevel.icon s.level} " ++
    s!"{Text.padRight 8 s.level}  {file}\n"

/-- Scores as a table.  The first column is as wide as the longest signature has bytes. -/
def riskTable (scores : List RiskScore) : String :=
  if scores.isEmpty then "No methods found\n"
  else
    let width := scores.foldl (fun w s => max w s.signature.utf8ByteSize) 6
    Text.padRight width "Method" ++ "  Callers  Risk        File\n" ++
      String.ofList (List.replicate (width + 27) '─') ++ "\n" ++
      concat (riskRow width) scores

/-- The score of one method. -/
def riskScore (s : RiskScore) : String :=
  s!"Method:         {s.signature}\n" ++
    (if s.filePath = "" then "" else s!"File:           {s.filePath}\n") ++
    s!"Direct callers: {s.directCallers}\n" ++
    s!"Total callers:  {s.totalCallers}\n" ++
    s!"Risk level:     {RiskLevel.icon s.level} {s.level}\n"

end Ripple.Display

namespace Ripple

/-- A score as JSON. -/
def RiskScore.toJson (s : RiskScore) : Json :=
  .object [("id", .int s.id), ("signature", .string s.signature), ("filePath", .string s.filePath),
    ("directCallers", .int s.directCallers), ("totalCallers", .int s.totalCallers),
    ("riskLevel", .string s.level)]

end Ripple
