import Ripple.Settings.Decode
import Ripple.Settings.Yaml.Document
import Ripple.Source.FileTree

/-!
# Ripple.Settings.Load

Where settings come from.  A variable of the environment wins over the settings file, and the file
over the default; an empty variable counts as absent.  Keys are compared without regard to case.

A file that is named has to be there.  Otherwise one is looked for in the working directory and in
the home directory, and there need not be any.
-/

namespace Ripple.Settings

/-- Why there are no settings. -/
inductive LoadError where
  /-- The file cannot be read. -/
  | read (problem : String)
  /-- A value cannot be converted. -/
  | decode
  | invalid (f : Failure)
  deriving DecidableEq, Repr

/-- The failure that an error of loading is reported as. -/
def LoadError.toFailure : LoadError → Failure
  | read problem => .within "read config" (.ofText problem)
  | decode => .ofText "decode config"
  | invalid f => f

/-- What surrounds the program: the variables, the files, and two directories. -/
structure Surroundings where
  env : List (String × String)
  files : Source.FileTree
  cwd : String
  home : String

/-- The files as they are seen from the working directory. -/
def Surroundings.visible (s : Surroundings) : Source.Files := ⟨s.files, s.cwd⟩

/-- The value of a variable, unless it is empty. -/
def Surroundings.variable? (s : Surroundings) (name : String) : Option String :=
  (s.env.lookup name).filter (· ≠ "")

/-! ## files -/

/-- The endings of settings files. -/
def knownEndings : List String :=
  ["json", "toml", "yaml", "yml", "properties", "props", "prop", "hcl", "tfvars", "dotenv", "env",
    "ini"]

/-- The file that is used when none is named. -/
def Surroundings.defaultFile? (s : Surroundings) : Option String :=
  let names := knownEndings.map (".beyondsight." ++ ·) ++ [".beyondsight"]
  let paths := [s.cwd, s.home].flatMap fun dir => names.map fun n => Path.join [dir, n]
  paths.find? fun p => (s.files.read? p).isSome

/-- The entries of a document that is a map or empty. -/
def entriesOf? : Value → Option (List (String × Value))
  | .map entries => some entries
  | .null => some []
  | _ => none

/-- The entries of a settings file of a type. -/
def parseFile (type text : String) : Option (List (String × Value)) :=
  if type = "yaml" ∨ type = "yml" then (Yaml.parse? text).bind entriesOf?
  else if type = "json" then ((Json.parse? text).bind Value.ofJson?).bind entriesOf?
  else none

/-- The content of a file that is named. -/
def content (s : Surroundings) (file : String) : Except LoadError String :=
  match s.visible.walk file with
  | .ok (.file text) => .ok text
  | .ok (.directory _) => .error (.read ("read " ++ file ++ ": is a directory"))
  | .error p => .error (.read ("open " ++ file ++ ": " ++ p.message))

/-- The entries of a text of a type. -/
def parseText (type text : String) : Except LoadError (List (String × Value)) :=
  match parseFile type text with
  | some entries => .ok entries
  | none => .error (.read "malformed file")

/-- The entries of the settings file.  `file` is the one that is named, or empty. -/
def readFile (s : Surroundings) (file : String) : Except LoadError (List (String × Value)) :=
  if file = "" then
    match s.defaultFile? with
    | none => .ok []
    | some path => parseText "yaml" ((s.files.read? path).getD "")
  else
    let type := String.ofList ((Path.extension file).toList.drop 1)
    if knownEndings.contains type then content s file >>= parseText type
    else .error (.read ("Unsupported Config Type " ++ Text.quote type))

/-! ## values -/

/-- The value of a key; of several that differ only in case the last counts. -/
def get? (entries : List (String × Value)) (key : String) : Option Value :=
  (entries.reverse.find? (·.1.toLower == key)).map (·.2)

/-- The entries of a section. -/
def Value.entries : Value → List (String × Value)
  | .map es => es
  | _ => []

/-- What is set for a key of a section: nothing at all, the default, or a value. -/
inductive Choice where
  | absent | default | value (v : Value)

/-- The name of a variable. -/
def variableName (parts : List String) : String :=
  Text.join "_" ("BEYONDSIGHT" :: parts.map String.toUpper)

/-- The keys of the settings, by section. -/
def keys : List (String × String) :=
  [("database", "path"), ("logging", "level"), ("logging", "format"), ("server", "addr"),
   ("watch", "debounce"), ("query", "maxnodes"), ("analyzer", "languages")]

/-- The names of all variables that matter. -/
def variableNames : List String :=
  keys.flatMap fun (sect, key) => [variableName [sect], variableName [sect, key]]

/-- A value that is there and not null. -/
def present (v : Option Value) : Option Value := v.filter (!·.isNull)

/-- What is set for a key of a section.  A section that is null in the file keeps all its defaults,
and one that is set as a whole by a variable has none of its keys set. -/
def choose (s : Surroundings) (entries : List (String × Value)) (sect key : String) :
    Except LoadError Choice :=
  let whole := s.variable? (variableName [sect])
  match get? entries sect with
  | some .null => if whole.isSome then .error .decode else .ok .default
  | some (.map es) => .ok (lookup whole es)
  | some _ => .error .decode
  | none => .ok (lookup whole [])
where
  /-- The variable, then the file, then the default. -/
  lookup (whole : Option String) (es : List (String × Value)) : Choice :=
    match s.variable? (variableName [sect, key]), whole with
    | some text, _ => .value (.text text)
    | none, some _ => .absent
    | none, none =>
      match present (get? entries (sect ++ "." ++ key)) <|> present (get? es key) with
      | some v => .value v
      | none => .default

/-- The setting for a key of a section. -/
def setting (s : Surroundings) (entries : List (String × Value)) (sect key : String)
    (convert : Value → Option α) (zero default : α) : Except LoadError α := do
  match ← choose s entries sect key with
  | .absent => return zero
  | .default => return default
  | .value v =>
    match convert v with
    | some a => return a
    | none => throw .decode

/-- All settings from the entries of a file. -/
def ofEntries (s : Surroundings) (entries : List (String × Value)) : Except LoadError Settings := do
  let base : Settings := {}
  return {
    databasePath := ← setting s entries "database" "path" Value.asText? "" base.databasePath
    logLevel := ← setting s entries "logging" "level" Value.asText? "" base.logLevel
    logFormat := ← setting s entries "logging" "format" Value.asText? "" base.logFormat
    serverAddr := ← setting s entries "server" "addr" Value.asText? "" base.serverAddr
    debounce := ← setting s entries "watch" "debounce" Value.asDuration? 0 base.debounce
    maxNodes := ← setting s entries "query" "maxnodes" Value.asInt? 0 base.maxNodes
    languages := ← setting s entries "analyzer" "languages" (fun v => v.asTexts?.map some) none
      base.languages }

/-- The settings, which are sound. -/
def load (s : Surroundings) (file : String) : Except LoadError Settings := do
  let settings ← ofEntries s (← readFile s file)
  settings.validate.mapError .invalid

end Ripple.Settings
