import LibraryModels.Json.Decode
import LibraryModels.Signature
import LibraryModels.Text.Utf8
import LibraryModels.Yaml.Decode

/-!
# Failures

What can go wrong outside of a document: with files, with stored models, with a configuration and
in a run. A failure names its cause, and a failure that passes on another one keeps it. The
wording of what is wrong with the form of a document is not fixed, so a failure of that kind has
no text.
-/

namespace LibraryModels

/-- A failure of the file system. -/
inductive FileError where
  | notFound
  | permissionDenied
  | exists
  | notDirectory
  | isDirectory
  | nameTooLong
  /-- A path that holds a null character. -/
  | nulInPath
  /-- An argument that holds a null character. -/
  | nulInArgument
  /-- A file that is not UTF-8. -/
  | notText
  /-- A line that is not UTF-8. -/
  | brokenLine (fault : Text.Utf8Fault)
  | other (message : String)
deriving DecidableEq, Repr

namespace FileError

/-- A failure of the operating system by its number. -/
def numbered (message : String) (number : Nat) : String :=
  message ++ " (os error " ++ Number.integerText number ++ ")"

/-- The words for a failure. -/
def text : FileError → String
  | .notFound => numbered "No such file or directory" 2
  | .permissionDenied => numbered "Permission denied" 13
  | .exists => numbered "File exists" 17
  | .notDirectory => numbered "Not a directory" 20
  | .isDirectory => numbered "Is a directory" 21
  | .nameTooLong => numbered "File name too long" 36
  | .nulInPath => "file name contained an unexpected NUL byte"
  | .nulInArgument => "nul byte found in provided data"
  | .notText => "stream did not contain valid UTF-8"
  | .brokenLine fault => fault.text
  | .other message => message

end FileError

/-- The kinds of failures of stored models. -/
inductive StorageError.Kind where
  | serialization
  | invalidSignature
  | locationNotFound
  | io
deriving DecidableEq, Repr

/-- A failure of stored models. -/
inductive StorageError where
  | serialization (message : String)
  | invalidSignature (signature : String)
  | locationNotFound (message : String)
  | io (message : String)
  /-- A document that does not decode. -/
  | yaml (cause : Yaml.Error)
  /-- A file that cannot be read or written. -/
  | file (cause : FileError)
deriving DecidableEq, Repr

namespace StorageError

instance : Vocabulary Kind where
  all := [.serialization, .invalidSignature, .locationNotFound, .io]
  name
    | .serialization => "serialization"
    | .invalidSignature => "invalid_signature"
    | .locationNotFound => "location_not_found"
    | .io => "io"

/-- The kind of a failure. -/
def kind : StorageError → Kind
  | .serialization _ => .serialization
  | .invalidSignature _ => .invalidSignature
  | .locationNotFound _ => .locationNotFound
  | .io _ => .io
  | .yaml _ => .serialization
  | .file _ => .io

/-- What went wrong, without the kind. -/
def message? : StorageError → Option String
  | .serialization message => some message
  | .invalidSignature signature => some (invalidSignatureText signature)
  | .locationNotFound message => some message
  | .io message => some message
  | .yaml cause => cause.message?.map ("YAML error: " ++ ·)
  | .file cause => some ("I/O error: " ++ cause.text)

/-- The words for a failure. -/
def text? (e : StorageError) : Option String :=
  e.message?.map fun message => "[" ++ Vocabulary.name e.kind ++ "] " ++ message

/-- The words for a failure and for its causes. -/
def chain (e : StorageError) : List (Option String) :=
  e.text? ::
    match e with
    | .yaml cause => [cause.message?]
    | .file cause => [some cause.text]
    | _ => []

end StorageError

/-- A failure of a configuration. -/
inductive ConfigError where
  | missingVersion
  | unsupportedVersion (found : Nat) (supported : List Nat)
  | missingSetting (name : String)
  | file (cause : FileError)
  | yaml (cause : Yaml.Error)
deriving DecidableEq, Repr

namespace ConfigError

/-- The words for a failure. -/
def text? : ConfigError → Option String
  | .missingVersion =>
    some ("Missing 'version' field in configuration file. " ++
      "Add 'version: 1' to the top of your YAML file.")
  | .unsupportedVersion found supported =>
    some ("Unsupported configuration version " ++ Number.integerText found ++
      ". Supported versions: " ++
      ", ".intercalate (supported.map fun n : Nat => Number.integerText n))
  | .missingSetting name => some ("Missing required setting '" ++ name ++ "'")
  | .file cause => some ("IO error: " ++ cause.text)
  | .yaml cause => cause.message?.map ("YAML parsing error: " ++ ·)

/-- The words for a failure and for its causes. -/
def chain (e : ConfigError) : List (Option String) :=
  e.text? ::
    match e with
    | .file cause => [some cause.text]
    | .yaml cause => [cause.message?]
    | _ => []

end ConfigError

/-- A failure of a run. -/
inductive RunError where
  | queryCompilation (message : String)
  | queryEngine (message : String)
  | decode (message : String)
  | cancelled
  | sink (message : String)
  | config (cause : ConfigError)
  | storage (cause : StorageError)
  | file (cause : FileError)
  | json (cause : Json.Error)
deriving DecidableEq, Repr

namespace RunError

/-- Whether a run was stopped on request. -/
def isCancelled : RunError → Bool
  | .cancelled => true
  | _ => false

/-- The words for a failure. -/
def text? : RunError → Option String
  | .queryCompilation message => some ("Query compilation failed: " ++ message)
  | .queryEngine message => some ("Query engine error: " ++ message)
  | .decode message => some ("Result decoding failed: " ++ message)
  | .cancelled => some "Model generation cancelled"
  | .sink message => some ("Result sink failed: " ++ message)
  | .config cause => cause.text?.map ("Configuration error: " ++ ·)
  | .storage cause => cause.text?.map ("Storage error: " ++ ·)
  | .file cause => some ("IO error: " ++ cause.text)
  | .json cause => cause.message?.map ("JSON error: " ++ ·)

/-- The words for a failure and for its causes. -/
def chain (e : RunError) : List (Option String) :=
  e.text? ::
    match e with
    | .config cause => cause.chain
    | .storage cause => cause.chain
    | .file cause => [some cause.text]
    | .json cause => [cause.message?]
    | _ => []

end RunError

end LibraryModels
