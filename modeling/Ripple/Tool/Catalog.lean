import Ripple.Service

/-!
# Ripple.Tool.Catalog

The service as tools for assistants: each form has a name and a description.
-/

namespace Ripple

/-- A tool: a form under a name. -/
structure Tool where
  name : String
  description : String
  form : Form
  deriving DecidableEq, Repr

namespace Tool

/-- The tools, in the order of their names. -/
def all : List Tool :=
  [⟨"getClassReferences",
     "Full change impact of a class: callers of its methods, overrides, and members whose types " ++
       "reference it", .query .class⟩,
   ⟨"getDownstreamCallees",
     "Every method transitively called by the method with the given signature", .query .downstream⟩,
   ⟨"getFieldReaders", "Methods that directly read a field", .query .readers⟩,
   ⟨"getFieldReferences",
     "Full change impact of a field: every file, type and member affected by changing it, with " ++
       "the calls, reads and writes that connect them", .query .field⟩,
   ⟨"getFieldWriters", "Methods that directly write a field", .query .writers⟩,
   ⟨"getMethodReferences",
     "Full change impact of a method: transitive callers and callees, co-accessors of the " ++
       "fields it touches and same-name overloads", .query .method⟩,
   ⟨"getParseStatus", "Returns the state of the latest rebuild", .status⟩,
   ⟨"getUpstreamCallers",
     "Every method that transitively calls a method with the given name", .query .upstream⟩,
   ⟨"rescanProject",
     "Rebuilds the reference graph for a project in the background; fails while a rebuild is " ++
       "running", .rescan⟩]

/-- The tool with a name. -/
def find? (name : String) : Option Tool := all.find? (·.name = name)

end Tool

end Ripple
