/-!
Why an operation fails. Each cause is a constructor; `message` is the sentence that is shown for it,
and `chain` adds what lies behind it.
-/

namespace SpecAtlas

inductive FileError where
  | notFound
  | notDirectory
  | isDirectory
  | exists
  | notEmpty
  | tooManyLinks
  | nameTooLong
  | invalid
  | nulByte
  | notText
deriving DecidableEq, Repr

def FileError.message : FileError → String
  | .notFound => "No such file or directory (os error 2)"
  | .notDirectory => "Not a directory (os error 20)"
  | .isDirectory => "Is a directory (os error 21)"
  | .exists => "File exists (os error 17)"
  | .notEmpty => "Directory not empty (os error 39)"
  | .tooManyLinks => "Too many levels of symbolic links (os error 40)"
  | .nameTooLong => "File name too long (os error 36)"
  | .invalid => "Invalid argument (os error 22)"
  | .nulByte => "file name contained an unexpected NUL byte"
  | .notText => "stream did not contain valid UTF-8"

inductive Failure where
  | noPaths
  | missingPath (path : String)
  | badGlob (message : String)
  | unsupported (path : String)
  | unreadable (path : String) (cause : FileError)
  | unstatable (path : String) (cause : FileError)
  | noSpecAt (path : String) (line column : Nat)
  | noSpecIn (path : String)
  | nothingToLaunch
  | positionBase
  | indexMissing (path : String)
  | indexNotFile (path : String)
  | indexDirectory (dir : String) (cause : FileError)
  | indexUnopened (path : String)
  | notDatabase
  | companion
  | disk
  | malformed
  | readOnlyIndex
  | schemaVersion (found : String) (expected : String)
  | rootMismatch (stored requested : String)
  | corruptEntry (path : String)
  | pathNotText
  | configUnreadable (path : String) (cause : FileError)
  | configInvalid (path : String)
  | badAddress
  | unsent (url : String)
  | refused (url : String)
  | undecodedResponse
deriving DecidableEq, Repr

namespace Failure

def message : Failure → String
  | noPaths => "at least one path is required"
  | missingPath path => "path does not exist: " ++ path
  | badGlob message => message
  | unsupported path => "unsupported file type: " ++ path
  | unreadable path _ => "failed to read " ++ path
  | unstatable path _ => "failed to stat " ++ path
  | noSpecAt path line column =>
    "no spec at " ++ path ++ ":" ++ toString line ++ ":" ++ toString column
  | noSpecIn path => "no spec found in " ++ path
  | nothingToLaunch => "either a spec file or a package is required"
  | positionBase => "--line and --column are 1-based"
  | indexMissing path => "index not found at " ++ path
  | indexNotFile path => "index_path must be a file; got " ++ path
  | indexDirectory dir _ => "failed to create index directory " ++ dir
  | indexUnopened path => "failed to open index " ++ path
  | notDatabase => "file is not a database"
  | companion => "unable to open database file"
  | disk => "disk I/O error"
  | malformed => "database disk image is malformed"
  | readOnlyIndex => "attempt to write a readonly database"
  | schemaVersion found expected =>
    "unsupported index schema version " ++ found ++ "; expected " ++ expected
  | rootMismatch stored requested =>
    "index root_path mismatch: index was created with root " ++ stored ++ ", but " ++ requested
      ++ " was requested"
  | corruptEntry path => "corrupt index entry for " ++ path
  | pathNotText => "path contains invalid UTF-8 characters"
  | configUnreadable path _ => "failed to read config file at " ++ path
  | configInvalid path => "failed to parse TOML config at " ++ path
  | badAddress => "invalid socket address syntax"
  | unsent url => "failed to send request to " ++ url
  | refused url => "server returned error for " ++ url
  | undecodedResponse => "failed to decode JSON response from server"

def cause? : Failure → Option FileError
  | unreadable _ c | unstatable _ c | indexDirectory _ c | configUnreadable _ c => some c
  | _ => none

def chain (e : Failure) : String :=
  match e.cause? with
  | some c => e.message ++ ": " ++ c.message
  | none => e.message

end Failure

end SpecAtlas
