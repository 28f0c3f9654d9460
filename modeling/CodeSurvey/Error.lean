import CodeSurvey.Fault
import CodeSurvey.Files.Tree

/-!
# What can go wrong

The causes of failure of the components, and their messages.  A failure of the file
system and a fault of a document carry the text that describes them.
-/

namespace CodeSurvey

structure FileError where
  cause : Files.PathError
  text : String
deriving DecidableEq, Repr

namespace FileError

def describe : Files.PathError -> String
  | .invalidInput => "file name contained an unexpected NUL byte"
  | .tooLong => "file name too long"
  | .notFound => "no such file or directory"
  | .isADirectory => "is a directory"
  | .notADirectory => "not a directory"
  | .alreadyExists => "file exists"
  | .invalidData => "stream did not contain valid UTF-8"

def ofCause (cause : Files.PathError) : FileError :=
  { cause, text := describe cause }

end FileError

structure DocumentError where
  fault : Fault
  text : String
deriving DecidableEq, Repr

namespace DocumentError

def describe : Fault -> String
  | .malformed => "malformed document"
  | .mismatch => "unexpected value"

def ofFault (fault : Fault) : DocumentError :=
  { fault, text := describe fault }

end DocumentError

namespace Config

inductive Error where
  | notFound (path : String)
  | unreadable (text : String)
  | invalidValue (field message : String)
  | yaml (error : DocumentError)
  | toml (error : DocumentError)
  | file (error : FileError)
deriving DecidableEq, Repr

namespace Error

def message : Error -> String
  | .notFound path => "Configuration file not found at " ++ path
  | .unreadable text => "Failed to parse configuration: " ++ text
  | .invalidValue field message => "Invalid configuration: " ++ field ++ " - " ++ message
  | .yaml error => "YAML parsing error: " ++ error.text
  | .toml error => "TOML parsing error: " ++ error.text
  | .file error => "IO error reading config: " ++ error.text

end Error
end Config

namespace Cache

/-- The version written to cache documents and accepted in them. -/
def documentVersion : String := "1.0.0"

inductive Error where
  | noPersistPath
  /-- The file is no cache document. -/
  | invalidFormat (text : String)
  | unsupportedVersion (found : String)
  | file (error : FileError)
  | json (error : DocumentError)
deriving DecidableEq, Repr

namespace Error

def message : Error -> String
  | .noPersistPath => "No cache persist path configured"
  | .invalidFormat text => "Invalid cache file: " ++ text
  | .unsupportedVersion found =>
      "Unsupported cache version: " ++ found ++ " (expected " ++ documentVersion ++ ")"
  | .file error => "Cache IO error: " ++ error.text
  | .json error => "Cache serialization error: " ++ error.text

end Error
end Cache

inductive Error where
  | config (error : Config.Error)
  | file (error : FileError)
  | json (error : DocumentError)
  | yaml (error : DocumentError)
  | toml (error : DocumentError)
  | logging (text : String)
  | other (text : String)
deriving DecidableEq, Repr

namespace Error

def message : Error -> String
  | .config error => error.message
  | .file error => "IO error: " ++ error.text
  | .json error => "JSON parsing error: " ++ error.text
  | .yaml error => "YAML parsing error: " ++ error.text
  | .toml error => "TOML parsing error: " ++ error.text
  | .logging text => "Failed to initialize logging: " ++ text
  | .other text => text

end Error
end CodeSurvey
