import Jayvee.Foundation.Loop
import Mathlib.Data.List.Basic

/-! # The file system in memory -/

namespace Jayvee

open Foundation

/-! ## Nodes -/

inductive FileExtension where
  | ZIP
  | TXT
  | CSV
  | NONE
  deriving DecidableEq, Repr

inductive MimeType where
  | APPLICATION_ZIP
  | APPLICATION_OCTET_STREAM
  | TEXT_CSV
  | TEXT_PLAIN
  deriving DecidableEq, Repr

/-- A file with content of type `T`. -/
structure FileSystemFile (T : Type) where
  name : String
  extension : FileExtension
  mimeType : MimeType
  content : T
  deriving DecidableEq, Repr

inductive FileSystemNode (T : Type) where
  | file (file : FileSystemFile T)
  | directory (name : String) (children : List (FileSystemNode T))

namespace FileSystemNode

variable {T : Type}

/-- `FileSystemFile.getNode` and `FileSystemDirectory.getNode`. -/
def getNode : (pathParts : List String) → (this : FileSystemNode T) → Option (FileSystemNode T)
  | [], _ => none
  | firstPart :: rest, file this =>
      if firstPart = this.name ∧ rest = [] then some (file this) else none
  | firstPart :: rest, directory name children =>
      if firstPart ≠ name then
        none
      else if rest = [] then
        some (directory name children)
      else
        children.findSome? (getNode rest)

def addChild (children : List (FileSystemNode T)) (fileSystemNode : FileSystemNode T) :
    List (FileSystemNode T) :=
  children ++ [fileSystemNode]

def isDirectoryNamed (name : Option String) : FileSystemNode T → Bool
  | file _ => false
  | directory name' _ => some name' = name

def isFileNamed (name : Option String) : FileSystemNode T → Bool
  | file this => some this.name = name
  | directory _ _ => false

def nodeHasAlreadyChildDirectoryWithSameName (children : List (FileSystemNode T))
    (rest : List String) : Bool :=
  children.filter (isDirectoryNamed rest.head?) ≠ []

def nodeHasAlreadyChildFileWithSameName (children : List (FileSystemNode T))
    (rest : List String) : Bool :=
  children.filter (isFileNamed rest.head?) ≠ []

/-- `FileSystemFile.putNode` and `FileSystemDirectory.putNode` for a node that is a file: what
they return, and the node that they are called on afterwards. -/
def putNode (node : FileSystemFile T) : (pathParts : List String) → (this : FileSystemNode T) →
    Option (FileSystemNode T) × FileSystemNode T
  | _, file this => (none, file this)
  | [], directory name children => (none, directory name children)
  | firstPart :: rest, directory name children =>
      if firstPart ≠ name then
        (none, directory name children)
      else if rest.length = 1 then
        if ¬ nodeHasAlreadyChildFileWithSameName children rest ∧ some node.name = rest.head? then
          (some (file node), directory name (addChild children (file node)))
        else
          (none, directory name children)
      else
        match nodeHasAlreadyChildDirectoryWithSameName children rest, rest.head? with
        | false, some newName =>
            let newdir := putNode node rest (directory newName [])
            (newdir.1, directory name (addChild children newdir.2))
        | _, _ =>
            let visited := firstResult (putNode node rest) children
            (visited.1, directory name visited.2)

end FileSystemNode

/-! ## Paths -/

/-- `path.split(separator)`. -/
def splitPath (path : String) (separator : Char) : List String :=
  (path.toList.splitOn separator).map String.ofList

namespace InMemoryFileSystem

def PATH_SEPARATOR : Char := '/'

def CURRENT_DIR : String := "."

def PARENT_DIR : String := ".."

/-- The loop of `processPath` over the parts. -/
def processParts : (parts processedParts : List String) → Option (List String)
  | [], processedParts => some processedParts
  | part :: parts, processedParts =>
      if part = CURRENT_DIR then
        processParts parts processedParts
      else if part = PARENT_DIR then
        -- Popping from the empty array yields `undefined`: the path ascends beyond the root.
        if processedParts = [] then none else processParts parts processedParts.dropLast
      else
        processParts parts (processedParts ++ [part])

def processPath (path : String) : Option (List String) :=
  match splitPath path PATH_SEPARATOR with
  | [] => none
  | head :: tail =>
      if ¬ (head = "" ∨ head = CURRENT_DIR) then
        none
      else
        let parts := tail.filter fun p => p ≠ ""
        (processParts parts []).map fun processedParts => "" :: processedParts

end InMemoryFileSystem

/-! ## File systems -/

structure InMemoryFileSystem (T : Type) where
  rootDirectory : FileSystemNode T

namespace InMemoryFileSystem

variable {T : Type}

/-- `new InMemoryFileSystem()`. -/
def construct : InMemoryFileSystem T where
  rootDirectory := .directory "" []

/-- The file that a node is. -/
def asFile : FileSystemNode T → Option (FileSystemFile T)
  | .file file => some file
  | .directory _ _ => none

def getFile (this : InMemoryFileSystem T) (path : String) : Option (FileSystemFile T) :=
  match processPath path with
  | some processedParts => (this.rootDirectory.getNode processedParts).bind asFile
  | none => none

/-- Whether the file system is returned, and not `null`, and the file system afterwards. -/
def putFile (this : InMemoryFileSystem T) (path : String) (file : FileSystemFile T) :
    Bool × InMemoryFileSystem T :=
  match processPath path with
  | some processedParts =>
      let put := this.rootDirectory.putNode file processedParts
      ((put.1.bind asFile).isSome, ⟨put.2⟩)
  | none => (false, this)

/-- Calls of `putFile`, one after the other. -/
def putFiles (this : InMemoryFileSystem T) (calls : List (String × FileSystemFile T)) :
    InMemoryFileSystem T :=
  calls.foldl (fun fileSystem call => (fileSystem.putFile call.1 call.2).2) this

end InMemoryFileSystem

end Jayvee
