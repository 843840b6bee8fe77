import DecisionCycle.Document
import DecisionCycle.Path

/-!
Files as the program meets them, and why one cannot be read. A path is a text of
the system: it has no null character, and neither a path nor a name in it can be
of any length. What lies at a path may be closed to the program: a file that it may
not read, or a directory in which it may not look for anything.
-/

namespace DecisionCycle

/-- What lies at a path. -/
inductive FileState where
  | missing
  /-- A directory, whether it may be read, and whether it may be searched. -/
  | directory (readable searchable : Bool)
  | locked
  | bytes (data : ByteArray)

inductive FileFault where
  | missing
  | directory
  | forbidden
  /-- A directory on the way there may not be searched. -/
  | barred
  | belowFile
  | unnameable
  | tooLong
  | document (cause : DocumentFault)

def FileFault.label : FileFault → String
  | missing => "FileNotFoundError"
  | directory => "IsADirectoryError"
  | forbidden => "PermissionError"
  | barred => "PermissionError"
  | belowFile => "NotADirectoryError"
  | unnameable => "ValueError"
  | tooLong => "OSError"
  | document cause => cause.label

abbrev Files := Path → FileState

namespace Files

/-- The longest name of a file, in bytes. -/
def nameLimit : Nat := 255

/-- The longest path, in bytes. -/
def pathLimit : Nat := 4095

/-- What the file has in it that some names lead to from a path on. A name is only
looked for in a directory that may be searched, so elsewhere it may be too long. -/
def follow (files : Files) (path : Path) : List String → Except FileFault ByteArray
  | [] =>
    match files path with
    | .missing => .error .missing
    | .directory readable _ => .error (if readable then .directory else .forbidden)
    | .locked => .error .forbidden
    | .bytes data => .ok data
  | name :: rest =>
    match files path with
    | .missing => .error .missing
    | .directory _ false => .error .barred
    | .directory _ true =>
        if nameLimit < name.utf8ByteSize then .error .tooLong
        else follow files (path.child name) rest
    | .locked => .error .belowFile
    | .bytes _ => .error .belowFile

def contents (files : Files) (s : String) : Except FileFault ByteArray :=
  let path := Path.ofString s
  if s.toList.contains '\x00' then .error .unnameable
  else if pathLimit < path.text.utf8ByteSize then .error .tooLong
  else files.follow path.start path.names

end Files

end DecisionCycle
