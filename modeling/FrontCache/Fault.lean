import FrontCache.Path
/-!
Why an operation on the cached tree failed. Each failure names its cause and
the path it concerns; failures reported by the store below carry a kind and a
message of their own. Every failure falls into one category, and each category
has the error number a mount front end reports for it.
-/
namespace FrontCache

/-- Kinds of failure a store can report. -/
inductive IoKind where
  | notFound
  | permissionDenied
  | alreadyExists
  | invalidInput
  | invalidData
  | unsupported
  | other
  | interrupted
  | timedOut
  | unexpectedEof
  | connectionReset
  | wouldBlock
  | brokenPipe
  | outOfMemory
  | writeZero
  | isADirectory
  | notADirectory
  | directoryNotEmpty
  | readOnlyFilesystem
  deriving DecidableEq, Repr

namespace IoKind

def all : List IoKind :=
  [notFound, permissionDenied, alreadyExists, invalidInput, invalidData, unsupported, other,
    interrupted, timedOut, unexpectedEof, connectionReset, wouldBlock, brokenPipe, outOfMemory,
    writeZero, isADirectory, notADirectory, directoryNotEmpty, readOnlyFilesystem]

def name : IoKind → String
  | notFound => "NotFound"
  | permissionDenied => "PermissionDenied"
  | alreadyExists => "AlreadyExists"
  | invalidInput => "InvalidInput"
  | invalidData => "InvalidData"
  | unsupported => "Unsupported"
  | other => "Other"
  | interrupted => "Interrupted"
  | timedOut => "TimedOut"
  | unexpectedEof => "UnexpectedEof"
  | connectionReset => "ConnectionReset"
  | wouldBlock => "WouldBlock"
  | brokenPipe => "BrokenPipe"
  | outOfMemory => "OutOfMemory"
  | writeZero => "WriteZero"
  | isADirectory => "IsADirectory"
  | notADirectory => "NotADirectory"
  | directoryNotEmpty => "DirectoryNotEmpty"
  | readOnlyFilesystem => "ReadOnlyFilesystem"

def ofName? (s : String) : Option IoKind := all.find? (·.name == s)

end IoKind

/-- Classes of failure, each with one error number. -/
inductive Category where
  | notFound
  | alreadyExists
  | notEmpty
  | isDirectory
  | notDirectory
  | invalidArgument
  | ioError
  | permissionDenied
  | notSupported
  | readOnly
  deriving DecidableEq, Repr

namespace Category

def name : Category → String
  | notFound => "NotFound"
  | alreadyExists => "AlreadyExists"
  | notEmpty => "NotEmpty"
  | isDirectory => "IsDirectory"
  | notDirectory => "NotDirectory"
  | invalidArgument => "InvalidArgument"
  | ioError => "IoError"
  | permissionDenied => "PermissionDenied"
  | notSupported => "NotSupported"
  | readOnly => "ReadOnly"

/-- The error number of a category. -/
def errno : Category → Nat
  | notFound => 2
  | alreadyExists => 17
  | notEmpty => 39
  | isDirectory => 21
  | notDirectory => 20
  | invalidArgument => 22
  | ioError => 5
  | permissionDenied => 13
  | notSupported => 95
  | readOnly => 30

/-- The store failure kind that stands for a category. -/
def ioKind : Category → IoKind
  | notFound => .notFound
  | alreadyExists => .alreadyExists
  | permissionDenied => .permissionDenied
  | notSupported => .unsupported
  | isDirectory => .isADirectory
  | notDirectory => .notADirectory
  | notEmpty => .directoryNotEmpty
  | readOnly => .readOnlyFilesystem
  | invalidArgument => .invalidInput
  | ioError => .other

end Category

/-- The category of a store failure kind. -/
def IoKind.category : IoKind → Category
  | .notFound => .notFound
  | .permissionDenied => .permissionDenied
  | .alreadyExists => .alreadyExists
  | .invalidInput | .invalidData => .invalidArgument
  | .unsupported => .notSupported
  | _ => .ioError

/-- Why an operation failed. -/
inductive Error where
  | notFound (p : Path)
  | alreadyExists (p : Path)
  | notADirectory (p : Path)
  | directoryNotEmpty (p : Path)
  | isADirectory (p : Path)
  | unsupported (p : Path) (reason : String)
  | accessDenied (p : Path)
  | readOnly (p : Path)
  | io (kind : IoKind) (message : String)
  deriving DecidableEq

namespace Error

/-- A file cannot be made from a folder. -/
def folderSource : String := "source can not be a folder"

/-- The root stays. -/
def rootStays : String := "the root cannot be deleted"

/-- A folder cannot go below itself. -/
def intoItself : String := "cannot move a folder into itself"

/-- The name of the cause. -/
def kindName : Error → String
  | notFound _ => "NotFound"
  | alreadyExists _ => "AlreadyExists"
  | notADirectory _ => "NotADirectory"
  | directoryNotEmpty _ => "DirectoryNotEmpty"
  | isADirectory _ => "IsADirectory"
  | unsupported _ _ => "Unsupported"
  | accessDenied _ => "AccessDenied"
  | readOnly _ => "ReadOnly"
  | io _ _ => "Io"

/-- The path in quotes. -/
def quoted (p : Path) : String := "'" ++ p.display ++ "'"

def message : Error → String
  | notFound p => "Path not found: " ++ quoted p
  | alreadyExists p => "Path already exists: " ++ quoted p
  | notADirectory p => "Expected directory but found file: " ++ quoted p
  | directoryNotEmpty p => "Directory not empty: " ++ quoted p
  | isADirectory p => "Expected file but found directory: " ++ quoted p
  | unsupported p reason => "Unsupported operation on " ++ quoted p ++ ": " ++ reason
  | accessDenied p => "Access denied: " ++ quoted p
  | readOnly p => "Read-only filesystem: cannot modify " ++ quoted p
  | io _ m => "IO error: " ++ m

def category : Error → Category
  | notFound _ => .notFound
  | alreadyExists _ => .alreadyExists
  | notADirectory _ => .notDirectory
  | directoryNotEmpty _ => .notEmpty
  | isADirectory _ => .isDirectory
  | unsupported _ _ => .notSupported
  | accessDenied _ => .permissionDenied
  | readOnly _ => .readOnly
  | io k _ => k.category

/-- Absence: a missing path, or a store failure of kind not-found. -/
def isNotFound : Error → Bool
  | notFound _ => true
  | io k _ => k == .notFound
  | _ => false

/-- The failure as a store failure: its kind and message. A store failure is
itself; any other becomes the kind of its category, with its own text. -/
def asIo : Error → IoKind × String
  | io k m => (k, m)
  | e => (e.category.ioKind, e.message)

end Error

end FrontCache
