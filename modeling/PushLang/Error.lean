namespace PushLang

/-- Why a file could not be read as text. -/
inductive FileError where
  | missing
  | directory
  /-- A path goes on after a file. -/
  | notDirectory
  | nameTooLong
  | nulInName
  | denied
  | notText
deriving Repr, DecidableEq

def FileError.message : FileError → String
  | .missing => "No such file or directory (os error 2)"
  | .directory => "Is a directory (os error 21)"
  | .notDirectory => "Not a directory (os error 20)"
  | .nameTooLong => "File name too long (os error 36)"
  | .nulInName => "file name contained an unexpected NUL byte"
  | .denied => "Permission denied (os error 13)"
  | .notText => "stream did not contain valid UTF-8"

/-- Errors that callers can report. -/
inductive Error where
  | file (cause : FileError)
  /-- A configuration text is not a valid configuration. -/
  | malformedConfig
  | parse (detail : String)
  | config (detail : String)
  | invalid (detail : String)
  | underflow (stack : String)
  | state (detail : String)
deriving Repr, DecidableEq

def Error.message : Error → String
  | .file cause => "IO error: " ++ cause.message
  | .malformedConfig => "Serialization error: malformed configuration"
  | .parse detail => "Parse error: " ++ detail
  | .config detail => "Configuration error: " ++ detail
  | .invalid detail => "Validation error: " ++ detail
  | .underflow stack => "Stack underflow: " ++ stack ++ " stack is empty"
  | .state detail => "Invalid state: " ++ detail

/-- A request that nothing can answer. -/
inductive Fault where
  /-- A position outside of the sequence it addresses. -/
  | outOfRange
  /-- A draw from an empty range. -/
  | emptyRange
  /-- A size beyond the 64-bit words that hold sizes. -/
  | overflow
deriving Repr, DecidableEq

end PushLang
