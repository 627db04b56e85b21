import Ripple.Text.Search

/-!
# Ripple.Watch.SourceFile

Which files the watcher cares about: sources of a supported language that are no tests.
-/

namespace Ripple.Watch

/-- The endings of source files. -/
def sourceEndings : List String := [".go", ".java"]

/-- Whether a change of a file can change the graph. -/
def isSourceFile (name : String) : Bool :=
  !Text.hasSuffix name "_test.go" && sourceEndings.any (Text.hasSuffix name)

end Ripple.Watch
