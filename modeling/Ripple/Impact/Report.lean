/-!
# Ripple.Impact.Report

What an impact query answers.  A full query gives a `Report`: files, their types, and of each type
the affected fields and methods.  A flat query gives a `MethodList`.
-/

namespace Ripple

/-- A call of an affected method. -/
structure CallRef where
  name : String
  signature : String
  line : Int
  deriving DecidableEq, Repr

/-- A declaration of a field, or an access to it. -/
structure FieldRef where
  name : String
  line : Int
  deriving DecidableEq, Repr

/-- An affected method of a type. -/
structure MemberEntry where
  name : String
  signature : String
  line : Int
  calls : List CallRef
  reads : List FieldRef
  writes : List FieldRef
  deriving DecidableEq, Repr

/-- A type with its affected fields and methods. -/
structure TypeEntry where
  name : String
  line : Int
  fields : List FieldRef
  members : List MemberEntry
  deriving DecidableEq, Repr

/-- A file with its affected types. -/
structure FileEntry where
  name : String
  path : String
  types : List TypeEntry
  deriving DecidableEq, Repr

/-- What a full query was asked about; `kind` is `field`, `method` or `class`. -/
structure Target where
  kind : String
  name : String
  className : String
  /-- Of a method; empty otherwise. -/
  signature : String
  deriving DecidableEq, Repr

/-- The answer to a full query. -/
structure Report where
  target : Target
  files : List FileEntry
  /-- A cap on the size of closures was hit. -/
  truncated : Bool
  deriving DecidableEq, Repr

/-- A method with a file that declares it. -/
structure MethodEntry where
  name : String
  signature : String
  filePath : String
  deriving DecidableEq, Repr

/-- The answer to a flat query. -/
structure MethodList where
  methods : List MethodEntry
  /-- A cap on the size of closures was hit. -/
  truncated : Bool
  deriving DecidableEq, Repr

end Ripple
