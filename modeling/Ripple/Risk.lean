/-!
# Ripple.Risk

How risky it is to change a method.  The level goes by the number of its callers: direct callers
count most, all transitive ones count less.
-/

namespace Ripple

/-- How risky a change is. -/
inductive RiskLevel where
  | low | medium | high | critical
  deriving DecidableEq, Repr

namespace RiskLevel

/-- The word for a level. -/
def word : RiskLevel → String
  | low => "low"
  | medium => "medium"
  | high => "high"
  | critical => "critical"

/-- The level that a method has by its direct callers and by all of them. -/
def ofCallers (direct total : Int) : RiskLevel :=
  if direct ≥ 50 ∨ total ≥ 200 then critical
  else if direct ≥ 20 ∨ total ≥ 100 then high
  else if direct ≥ 5 ∨ total ≥ 30 then medium
  else low

/-- The level by the direct callers alone. -/
def ofDirectCallers (direct : Int) : RiskLevel := ofCallers direct 0

/-- The mark in front of a level; a word that is no level gets that of `low`. -/
def icon (word : String) : String :=
  if word = critical.word then "🔴"
  else if word = high.word then "🟠"
  else if word = medium.word then "🟡"
  else "🟢"

end RiskLevel

/-- The assessment of a method. -/
structure RiskScore where
  id : Int
  signature : String
  filePath : String
  directCallers : Int
  totalCallers : Int
  /-- The word for the level. -/
  level : String
  deriving DecidableEq, Repr

end Ripple
