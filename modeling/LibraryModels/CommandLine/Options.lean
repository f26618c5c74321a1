import LibraryModels.Generator
import LibraryModels.Text.Split

/-!
# Command-line options

Arguments are read from the left. A setting takes the rest of its argument, or else the next
argument unless that looks like an option. All settings but the workspace folders may be given
once, and a path must not be empty. The first request for help or mistake decides; missing
settings are a mistake at the end.
-/

namespace LibraryModels.CommandLine

/-- A setting that takes a value. -/
inductive Setting where
  | database
  | language
  | name
  | config
  | qlDir
  | workspace
  | codeql
  | queryStorageDir
deriving DecidableEq, Repr

instance : Vocabulary Setting where
  all := [.database, .language, .name, .config, .qlDir, .workspace, .codeql, .queryStorageDir]
  name
    | .database => "database"
    | .language => "language"
    | .name => "name"
    | .config => "config"
    | .qlDir => "ql-dir"
    | .workspace => "workspace"
    | .codeql => "codeql"
    | .queryStorageDir => "query-storage-dir"

namespace Setting

/-- The setting of a letter. -/
def ofLetter? : Char → Option Setting
  | 'd' => some .database
  | 'l' => some .language
  | 'n' => some .name
  | 'c' => some .config
  | 'w' => some .workspace
  | _ => none

/-- Whether the value is a path. -/
def isPath : Setting → Bool
  | .language => false
  | .name => false
  | _ => true

/-- Whether a setting may be given more than once. -/
def isRepeatable (s : Setting) : Bool :=
  s == .workspace

end Setting

/-- What an argument is. -/
inductive Argument where
  | setting (s : Setting) (value : Option String)
  | fresh
  | help
  /-- No options follow. -/
  | last
  | unknown
deriving DecidableEq, Repr

namespace Argument

/-- A name and the value after an equals sign. -/
def splitValue (cs : List Char) : String × Option String :=
  match Text.splitFirst '=' cs with
  | some (name, value) => (String.ofList name, some (String.ofList value))
  | none => (String.ofList cs, none)

/-- The value that follows a letter in its argument. -/
def attached : List Char → Option String
  | [] => none
  | '=' :: value => some (String.ofList value)
  | value => some (String.ofList value)

/-- What a name and a value after two dashes are. -/
def ofName (name : String) (value : Option String) : Argument :=
  match Vocabulary.ofName? name, name, value with
  | some s, _, value => .setting s value
  | none, "fresh", none => .fresh
  | none, "help", none => .help
  | none, _, _ => .unknown

/-- What an argument is. -/
def ofText (s : String) : Argument :=
  match s.toList with
  | ['-', '-'] => .last
  | '-' :: '-' :: cs =>
    let (name, value) := splitValue cs
    ofName name value
  | '-' :: letter :: cs =>
    if letter = 'h' then .help
    else
      match Setting.ofLetter? letter with
      | some s => .setting s (attached cs)
      | none => .unknown
  | _ => .unknown

/-- Whether an argument cannot be the value of the setting before it. -/
def looksLikeOption (s : String) : Bool :=
  match s.toList with
  | '-' :: _ :: _ => true
  | _ => false

end Argument

/-- Why arguments are not options of a run. -/
inductive Refusal where
  | help
  | mistake
deriving DecidableEq, Repr

/-- The settings that have been read so far, in order. -/
structure Draft where
  values : List (Setting × String) := []
  fresh : Bool := false
deriving DecidableEq, Repr

namespace Draft

/-- The values of a setting. -/
def valuesOf (d : Draft) (s : Setting) : List String :=
  d.values.filterMap fun (t, value) => if t = s then some value else none

/-- The value of a setting that is given once. -/
def value? (d : Draft) (s : Setting) : Option String :=
  (d.valuesOf s).head?

/-- The path of a setting that is given once. -/
def path? (d : Draft) (s : Setting) : Option FilePath :=
  (d.value? s).map FilePath.mk

/-- Takes a value. -/
def add (d : Draft) (s : Setting) (value : String) : Except Refusal Draft :=
  if (s.isPath && value = "") || (! s.isRepeatable && ! (d.valuesOf s).isEmpty) then .error .mistake
  else .ok { d with values := d.values ++ [(s, value)] }

/-- Takes all arguments. -/
def read (d : Draft) : List String → Except Refusal Draft
  | [] => .ok d
  | argument :: rest =>
    match Argument.ofText argument with
    | .setting s (some value) => do read (← d.add s value) rest
    | .setting s none =>
      match rest with
      | value :: rest =>
        if Argument.looksLikeOption value then .error .mistake
        else do read (← d.add s value) rest
      | [] => .error .mistake
    | .fresh => if d.fresh then .error .mistake else read { d with fresh := true } rest
    | .help => .error .help
    | .last => if rest.isEmpty then .ok d else .error .mistake
    | .unknown => .error .mistake

end Draft

/-- The options of a run. -/
structure Options where
  database : FilePath
  language : String
  name : Option String := none
  config : Option FilePath := none
  qlDir : Option FilePath := none
  workspaceFolders : List FilePath := []
  codeql : Option FilePath := none
  queryStorageDir : Option FilePath := none
  /-- The models that are stored already are not looked at. -/
  fresh : Bool := false
deriving DecidableEq, Repr, Inhabited

namespace Options

/-- The options that arguments give. -/
def ofArguments (arguments : List String) : Except Refusal Options := do
  let d ← ({} : Draft).read arguments
  match d.path? .database, d.value? .language with
  | some database, some language =>
    return {
      database, language
      name := d.value? .name
      config := d.path? .config
      qlDir := d.path? .qlDir
      workspaceFolders := (d.valuesOf .workspace).map FilePath.mk
      codeql := d.path? .codeql
      queryStorageDir := d.path? .queryStorageDir
      fresh := d.fresh }
  | _, _ => throw .mistake

/-- The name of the database: the given one, or else that of its directory. -/
def databaseName (o : Options) : String :=
  (o.name <|> o.database.fileName?).getD "database"

/-- The database of a run. -/
def toDatabase (o : Options) : Database :=
  ⟨o.databaseName, o.language, o.database⟩

end Options

end LibraryModels.CommandLine
