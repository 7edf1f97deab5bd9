import CnfAudit.Path
import CnfAudit.Text.Quoted

/-!
# Files and directories

The part of a file system that a run can see. A path is walked component by component, and the
first one that cannot be passed decides the error.
-/

namespace CnfAudit

inductive Node
  | file (bytes : List UInt8)
  | directory
deriving DecidableEq, Repr

/-- A name lists the components from the root. -/
abbrev NodeName := List String

structure FileTree where
  nodes : List (NodeName × Node) := []
  workingDirectory : NodeName := []
deriving Repr

inductive FileErrorKind
  | notFound
  | isDirectory
  | notDirectory
  | alreadyExists
  | nameTooLong
deriving DecidableEq, Repr

/-- The name of a kind of error as reports give it. -/
def FileErrorKind.name : FileErrorKind → String
  | .notFound => "FileNotFoundError"
  | .isDirectory => "IsADirectoryError"
  | .notDirectory => "NotADirectoryError"
  | .alreadyExists => "FileExistsError"
  | .nameTooLong => "OSError"

def FileErrorKind.text : FileErrorKind → String
  | .notFound => "[Errno 2] No such file or directory"
  | .isDirectory => "[Errno 21] Is a directory"
  | .notDirectory => "[Errno 20] Not a directory"
  | .alreadyExists => "[Errno 17] File exists"
  | .nameTooLong => "[Errno 36] File name too long"

structure FileError where
  kind : FileErrorKind
  path : Path
deriving DecidableEq, Repr

def FileError.message (e : FileError) : String :=
  e.kind.text ++ ": " ++ Text.quoted e.path.render

/-- Why a file operation did not happen. A path that holds a null character is refused before the
file system is asked. -/
inductive FileFailure
  | nullInPath
  | error (e : FileError)
deriving DecidableEq, Repr

namespace FileTree

/-- A component may have at most so many octets. -/
def maxComponent : Nat := 255

/-- A whole path must have fewer octets than this. -/
def maxPath : Nat := 4096

/-- The root is always there. -/
def node? (t : FileTree) (name : NodeName) : Option Node :=
  if name.isEmpty then some .directory else t.nodes.lookup name

/-- Puts a node in place of what the name stood for. -/
def put (t : FileTree) (name : NodeName) (node : Node) : FileTree :=
  { t with nodes := (name, node) :: t.nodes.filter fun entry => entry.1 ≠ name }

/-- Goes from a node down the components of a path. The parent of the root is the root. -/
def walk (t : FileTree) (start : NodeName) : List String → Except FileErrorKind NodeName
  | [] => .ok start
  | part :: rest =>
      match t.node? start with
      | some .directory =>
          if part = ".." then walk t start.dropLast rest
          else if maxComponent < part.utf8ByteSize then .error .nameTooLong
          else
            match t.node? (start ++ [part]) with
            | none => .error .notFound
            | some _ => walk t (start ++ [part]) rest
      | some (.file _) => .error .notDirectory
      | none => .error .notFound

def startOf (t : FileTree) (p : Path) : NodeName :=
  if p.isAbsolute then [] else t.workingDirectory

/-- Where a new entry goes: the directory that is to hold it and its own name there, or nothing if
the path ends in a directory by its form. -/
def place (t : FileTree) (p : Path) : Except FileErrorKind (Option NodeName) :=
  match p.parts.getLast? with
  | none => .ok none
  | some last =>
      match t.walk (t.startOf p) p.parts.dropLast with
      | .error kind => .error kind
      | .ok dir =>
          match t.node? dir with
          | some .directory =>
              if last = ".." then .ok none
              else if maxComponent < last.utf8ByteSize then .error .nameTooLong
              else .ok (some (dir ++ [last]))
          | some (.file _) => .error .notDirectory
          | none => .error .notFound

/-- Refuses a path before it is walked, or attaches the path to the error of the walk. -/
def guarded {α : Type} (p : Path) (outcome : Except FileErrorKind α) : Except FileFailure α :=
  if p.render.toList.contains '\x00' then .error .nullInPath
  else if maxPath ≤ p.render.utf8ByteSize then .error (.error ⟨.nameTooLong, p⟩)
  else outcome.mapError fun kind => .error ⟨kind, p⟩

def readNode (t : FileTree) (p : Path) : Except FileErrorKind (List UInt8) :=
  match t.walk (t.startOf p) p.parts with
  | .error kind => .error kind
  | .ok name =>
      match t.node? name with
      | some (.file bytes) => .ok bytes
      | some .directory => .error .isDirectory
      | none => .error .notFound

def read (t : FileTree) (p : Path) : Except FileFailure (List UInt8) := guarded p (t.readNode p)

def isDirectory (t : FileTree) (p : Path) : Bool :=
  match guarded p (t.walk (t.startOf p) p.parts) with
  | .error _ => false
  | .ok name => t.node? name == some .directory

def writeNode (t : FileTree) (p : Path) (bytes : List UInt8) : Except FileErrorKind FileTree :=
  match t.place p with
  | .error kind => .error kind
  | .ok none => .error .isDirectory
  | .ok (some name) =>
      match t.node? name with
      | some .directory => .error .isDirectory
      | _ => .ok (t.put name (.file bytes))

/-- Creates a file or replaces what is in it. -/
def write (t : FileTree) (p : Path) (bytes : List UInt8) : Except FileFailure FileTree :=
  guarded p (t.writeNode p bytes)

def makeNode (t : FileTree) (p : Path) : Except FileErrorKind FileTree :=
  match t.place p with
  | .error kind => .error kind
  | .ok none => .error .alreadyExists
  | .ok (some name) =>
      match t.node? name with
      | some _ => .error .alreadyExists
      | none => .ok (t.put name .directory)

/-- Makes one directory in a directory that is there. -/
def makeDirectory (t : FileTree) (p : Path) : Except FileFailure FileTree :=
  guarded p (t.makeNode p)

/-- An error is no error if the directory is there all the same. -/
def unlessDirectory (t : FileTree) (p : Path) (failure : FileFailure) :
    Except FileFailure Unit :=
  match failure with
  | .error _ => if t.isDirectory p then .ok () else .error failure
  | .nullInPath => .error failure

/-- Makes a directory after those above it; `above` are the components, last first. Directories that
were made before an error stay. -/
def makeDirectoriesFrom (t : FileTree) (root : String) :
    List String → Except FileFailure Unit × FileTree
  | [] => (.ok (), t)
  | last :: above =>
      let p : Path := ⟨root, (last :: above).reverse⟩
      match t.makeDirectory p with
      | .ok made => (.ok (), made)
      | .error (.error ⟨.notFound, _⟩) =>
          match makeDirectoriesFrom t root above with
          | (.error failure, made) => (.error failure, made)
          | (.ok (), made) =>
              match made.makeDirectory p with
              | .ok made => (.ok (), made)
              | .error failure => (made.unlessDirectory p failure, made)
      | .error failure => (t.unlessDirectory p failure, t)

/-- Makes a directory and all that are missing above it. -/
def makeDirectories (t : FileTree) (p : Path) : Except FileFailure Unit × FileTree :=
  makeDirectoriesFrom t p.root p.parts.reverse

/-- Nothing but a working directory and the directories above it. -/
def emptyAt (workingDirectory : NodeName) : FileTree :=
  (List.range' 1 workingDirectory.length).foldl
    (fun t n => t.put (workingDirectory.take n) .directory) ⟨[], workingDirectory⟩

/-- Puts a node below the working directory and makes the directories above it. -/
def install (t : FileTree) (parts : List String) (node : Node) : FileTree :=
  let withParents := (List.range' 1 (parts.length - 1)).foldl
    (fun t n => t.put (t.workingDirectory ++ parts.take n) .directory) t
  withParents.put (t.workingDirectory ++ parts) node

/-- The files that `after` has and `before` has not, or not with the same octets. -/
def changes (before after : FileTree) : List (NodeName × List UInt8) :=
  after.nodes.filterMap fun (name, node) =>
    match node with
    | .directory => none
    | .file bytes => if before.node? name = some (.file bytes) then none else some (name, bytes)

/-- The directories that `after` has and `before` has not. -/
def newDirectories (before after : FileTree) : List NodeName :=
  after.nodes.filterMap fun (name, node) =>
    if node = .directory ∧ before.node? name = none then some name else none

end FileTree

end CnfAudit
