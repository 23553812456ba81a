import WalletSession.Store.FilePath

/-! A tree of files and directories. A path is walked step by step from the root, so that every
directory on its way must be there, also one that the way leaves again. What fails changes nothing,
except that directories which were made or emptied before a failure stay so. -/
namespace WalletSession

inductive FileNode
  | file (bytes : ByteArray)
  | directory (entries : List (String × FileNode))
  deriving Inhabited

/-- The nodes of a directory by their names. -/
abbrev Directory := List (String × FileNode)

namespace Directory

def erase (d : Directory) (name : String) : Directory := d.filter (·.1 != name)

def put (d : Directory) (name : String) (node : FileNode) : Directory :=
  (name, node) :: d.erase name

end Directory

/-- Why an operation on a path cannot be done. -/
inductive FileFault
  | notFound
  | notDirectory
  | isDirectory
  | exists
  | nameTooLong
  | invalidPath
  deriving DecidableEq, Repr

namespace FileFault

def message : FileFault → String
  | .notFound => "no such file or directory"
  | .notDirectory => "not a directory"
  | .isDirectory => "is a directory"
  | .exists => "file exists"
  | .nameTooLong => "file name too long"
  | .invalidPath => "invalid path"

end FileFault

structure FileTree where
  root : Directory := []
  deriving Inhabited

/-- A directory in its tree: the names that lead to it, the last one first, each with the directory
in which it stands. -/
structure FileCursor where
  here : Directory
  above : List (String × Directory) := []

namespace FileCursor

/-- One directory up; there is nothing above the root. -/
def up (c : FileCursor) : FileCursor :=
  match c.above with
  | [] => c
  | (name, outer) :: above => ⟨outer.put name (.directory c.here), above⟩

/-- The whole tree. -/
def tree (c : FileCursor) : FileTree :=
  ⟨c.above.foldl (fun inner a => a.2.put a.1 (.directory inner)) c.here⟩

/-- A name has at most 255 bytes. -/
def nameFits (name : String) : Bool := name.utf8ByteSize ≤ 255

def enter (c : FileCursor) (step : String) : Except FileFault FileCursor :=
  if step = "." then .ok c
  else if step = ".." then .ok c.up
  else if !nameFits step then .error .nameTooLong
  else
    match c.here.lookup step with
    | none => .error .notFound
    | some (.file _) => .error .notDirectory
    | some (.directory inner) => .ok ⟨inner, (step, c.here) :: c.above⟩

end FileCursor

/-- What a path leads to: a directory by a way that does not end in its name, or a place for a node
in a directory. -/
inductive FilePlace
  | directory (c : FileCursor)
  | entry (c : FileCursor) (name : String)

namespace FileTree

def walk (t : FileTree) (steps : List String) : Except FileFault FileCursor :=
  steps.foldlM FileCursor.enter ⟨t.root, []⟩

/-- The place of a path with these steps, the last one first. -/
def place (t : FileTree) : List String → Except FileFault FilePlace
  | [] => .ok (.directory ⟨t.root, []⟩)
  | last :: before => do
    let c ← t.walk before.reverse
    if last = "." then return .directory c
    else if last = ".." then return .directory c.up
    else if FileCursor.nameFits last then return .entry c last
    else throw .nameTooLong

def locate (t : FileTree) (p : FilePath) : Except FileFault FilePlace :=
  if !p.isClean then .error .invalidPath
  else if !p.isShort then .error .nameTooLong
  else t.place p.steps.reverse

def find (t : FileTree) (p : FilePath) : Except FileFault FileNode := do
  match ← t.locate p with
  | .directory c => return .directory c.here
  | .entry c name =>
    match c.here.lookup name with
    | none => throw .notFound
    | some (.file bytes) => if p.endsInSlash then throw .notDirectory else return .file bytes
    | some node => return node

def read (t : FileTree) (p : FilePath) : Except FileFault ByteArray := do
  match ← t.find p with
  | .file bytes => return bytes
  | .directory _ => throw .isDirectory

/-- Writes a file into a directory that is there. -/
def write (t : FileTree) (p : FilePath) (bytes : ByteArray) : Except FileFault FileTree := do
  match ← t.locate p with
  | .directory _ => throw .isDirectory
  | .entry c name =>
    if p.endsInSlash then throw .isDirectory
    else
      match c.here.lookup name with
      | some (.directory _) => throw .isDirectory
      | _ => return { c with here := c.here.put name (.file bytes) }.tree

def removeFile (t : FileTree) (p : FilePath) : Except FileFault FileTree := do
  match ← t.locate p with
  | .directory _ => throw .isDirectory
  | .entry c name =>
    match c.here.lookup name with
    | none => throw .notFound
    | some (.directory _) => throw .isDirectory
    | some (.file _) =>
      if p.endsInSlash then throw .notDirectory
      else return { c with here := c.here.erase name }.tree

/-- Makes one directory, to which the steps lead, the last one first. -/
def makeDirectory (t : FileTree) (steps : List String) : Except FileFault FileTree := do
  match ← t.place steps with
  | .directory _ => throw .exists
  | .entry c name =>
    match c.here.lookup name with
    | some _ => throw .exists
    | none => return { c with here := c.here.put name (.directory []) }.tree

/-- A directory may be there already. -/
def isMade (t : FileTree) (steps : List String) : FileFault → Bool
  | .exists => (t.walk steps.reverse).isOk
  | _ => false

/-- Makes a directory that lacks nothing above it. -/
def makeLast (t : FileTree) (steps : List String) : Except FileFault Unit × FileTree :=
  match t.makeDirectory steps with
  | .ok t => (.ok (), t)
  | .error e => (if t.isMade steps e then .ok () else .error e, t)

/-- Makes the directory to which the steps lead, the last one first, and before it those above it
that it lacks. -/
def makeSteps (t : FileTree) : List String → Except FileFault Unit × FileTree
  | [] => (.ok (), t)
  | [last] => t.makeLast [last]
  | last :: above :: rest =>
    match t.makeDirectory (last :: above :: rest) with
    | .error .notFound =>
      match if last = "." then t.makeSteps rest else t.makeSteps (above :: rest) with
      | (.ok (), t) => t.makeLast (last :: above :: rest)
      | failed => failed
    | _ => t.makeLast (last :: above :: rest)

/-- Makes the directories along a path that are not there yet. -/
def makeDirectories (t : FileTree) (p : FilePath) : Except FileFault Unit × FileTree :=
  if !p.isClean then (.error .invalidPath, t)
  else if !p.isShort then (.error .nameTooLong, t)
  else t.makeSteps p.steps.reverse

/-- Removes a file, or a directory with all that it holds. A directory that the path does not end in
the name of is only emptied, which is enough if the way to it is then gone. -/
def removeAll (t : FileTree) (p : FilePath) : Except FileFault Unit × FileTree :=
  match t.find p, t.locate p with
  | .ok _, .ok (.entry c name) => (.ok (), { c with here := c.here.erase name }.tree)
  | .ok _, .ok (.directory c) =>
    let emptied := { c with here := [] }.tree
    match emptied.find p with
    | .error .notFound => (.ok (), emptied)
    | _ => (.error .invalidPath, emptied)
  | .error e, _ | _, .error e => (.error e, t)

end FileTree

end WalletSession
