import AwkStartup.Text.Utf8

/-!
# Files and the errors of reading them

A tree of named files and directories, read by paths. Reading a path walks its components, each
of which must start from a directory.
-/

namespace AwkStartup

/-- Why a file cannot be read or written. -/
inductive SystemError where
  | notFound
  | permissionDenied
  | notADirectory
  | isADirectory
  | noSpace
  | nameTooLong
  | nulInName
  | notUtf8
  deriving DecidableEq, Repr

namespace SystemError

def message : SystemError → String
  | notFound => "No such file or directory (os error 2)"
  | permissionDenied => "Permission denied (os error 13)"
  | notADirectory => "Not a directory (os error 20)"
  | isADirectory => "Is a directory (os error 21)"
  | noSpace => "No space left on device (os error 28)"
  | nameTooLong => "File name too long (os error 36)"
  | nulInName => "file name contained an unexpected NUL byte"
  | notUtf8 => "stream did not contain valid UTF-8"

end SystemError

/-- What stands under a name: a file with its content, a file whose reading fails, or a directory. -/
inductive Node where
  | file (content : List UInt8)
  | unreadable (cause : SystemError)
  | directory
  deriving DecidableEq, Repr

def pathComponents (path : String) : List String :=
  (path.toList.splitOn '/').map String.ofList

def joinPath (directory name : String) : String :=
  if directory = "" ∨ directory.toList.getLast? = some '/' then directory ++ name
  else directory ++ "/" ++ name

/-- Files and directories by their components from the root, and the working directory. -/
structure Files where
  nodes : List (List String × Node)
  working : List String
  deriving Repr

namespace Files

/-- The files of every system. -/
def devices : List (List String × Node) :=
  [(["dev", "null"], .file [])]

/-- Where a path starts from: the root or the working directory. -/
def origin (working : List String) (path : String) : List String :=
  if path.toList.head? = some '/' then [] else working

/-- The components from the root that a path leads to when it crosses no link. -/
def locate (working : List String) (path : String) : List String :=
  (pathComponents path).foldl
    (fun location name =>
      if name = "" ∨ name = "." then location
      else if name = ".." then location.dropLast
      else location ++ [name])
    (origin working path)

/-- A tree from a working directory and what paths lead to. -/
def ofPaths (working : List String) (entries : List (String × Node)) : Files :=
  ⟨entries.map (fun (path, node) => (locate working path, node)) ++ devices, working⟩

/-- What the tree holds under components. The parents of a node and of the working directory are
directories. -/
def node? (files : Files) (path : List String) : Option Node :=
  match files.nodes.lookup path with
  | some node => some node
  | none =>
    if path.isPrefixOf files.working ∨ files.nodes.any fun n => path.isPrefixOf n.1 then
      some .directory
    else none

def walk (files : Files) : List String → List String → Except SystemError Node
  | path, [] =>
    match files.node? path with
    | some node => .ok node
    | none => .error .notFound
  | path, name :: names =>
    match files.node? path with
    | none => .error .notFound
    | some (.file _) | some (.unreadable _) => .error .notADirectory
    | some .directory =>
      if name = "" ∨ name = "." then walk files path names
      else if name = ".." then walk files path.dropLast names
      else if 255 < (Text.bytes name).length then .error .nameTooLong
      else walk files (path ++ [name]) names

/-- What a path leads to. -/
def resolve (files : Files) (path : String) : Except SystemError Node :=
  if '\x00' ∈ path.toList then .error .nulInName
  else if path = "" then .error .notFound
  else if 4096 ≤ (Text.bytes path).length then .error .nameTooLong
  else walk files (origin files.working path) (pathComponents path)

def contains (files : Files) (path : String) : Bool :=
  match files.resolve path with
  | .ok _ => true
  | .error _ => false

def readText (files : Files) (path : String) : Except SystemError String :=
  match files.resolve path with
  | .error e => .error e
  | .ok .directory => .error .isADirectory
  | .ok (.unreadable cause) => .error cause
  | .ok (.file content) =>
    match Text.ofBytes? content with
    | some text => .ok text
    | none => .error .notUtf8

end Files
end AwkStartup
