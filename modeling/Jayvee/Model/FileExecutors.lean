import Jayvee.Model.DatabaseLoaders
import Jayvee.Model.FileSystem

/-! # Executors for archives and their files -/

namespace Jayvee

open Foundation ExecutionContext

abbrev ArrayBuffer : Type :=
  List UInt8

abbrev BinaryFile : Type :=
  FileSystemFile ArrayBuffer

/-! ## Names of files -/

namespace FileExtension

def text : FileExtension → String
  | ZIP => "zip"
  | TXT => "txt"
  | CSV => "csv"
  | NONE => ""

/-- `Object.values(FileExtension)`. -/
def values : List FileExtension :=
  [ZIP, TXT, CSV, NONE]

end FileExtension

namespace MimeType

def text : MimeType → String
  | APPLICATION_ZIP => "application/zip"
  | APPLICATION_OCTET_STREAM => "application/octet-stream"
  | TEXT_CSV => "text/csv"
  | TEXT_PLAIN => "text/plain"

/-- `Object.values(MimeType)`. -/
def values : List MimeType :=
  [APPLICATION_ZIP, APPLICATION_OCTET_STREAM, TEXT_CSV, TEXT_PLAIN]

end MimeType

/-- `path.basename`: the last part of a path, without the suffix unless it is the suffix. -/
def basename (path : String) (suffix : Option String) : String :=
  let base := ((path.toList.reverse.dropWhile (· = '/')).takeWhile (· ≠ '/')).reverse
  let end' := (suffix.getD "").toList
  if end' <:+ base ∧ end' ≠ base then
    String.ofList (base.take (base.length - end'.length))
  else
    String.ofList base

/-- `path.extname`: from the last dot on, unless the name starts with it. -/
def extname (path : String) : String :=
  let base := (basename path none).toList
  let afterDot := (base.reverse.takeWhile (· ≠ '.')).reverse
  let beforeDot := base.take (base.length - afterDot.length - 1)
  if '.' ∉ base ∨ beforeDot = [] ∨ base = ['.', '.'] then
    ""
  else
    String.ofList ('.' :: afterDot)

/-- What is used of the package `mime-types`. -/
structure MimeServices where
  lookup : (fileExtension : String) → Option String
  extension : (contentType : String) → Option String

def inferMimeTypeFromFileExtensionString (mime : MimeServices) (fileExtension : String) :
    Option MimeType := do
  let inferredMimeType ← mime.lookup fileExtension
  MimeType.values.find? fun mimeType => mimeType.text == inferredMimeType

/-- Only the first dot is replaced. -/
def inferFileExtensionFromFileExtensionString (fileExtension : String) : Option FileExtension :=
  FileExtension.values.find? fun extension =>
    extension.text == String.ofList (fileExtension.toList.erase '.')

def inferFileExtensionFromContentTypeString (mime : MimeServices) (contentType : String) :
    Option FileExtension := do
  let inferredFileExtension ← mime.extension contentType
  FileExtension.values.find? fun extension => extension.text == inferredFileExtension

/-! ## Archives -/

/-- An entry of a zip archive. Its content may turn out to be damaged when it is read. -/
structure JSZipObject where
  relPath : String
  name : String
  dir : Bool
  async : Except JsError ArrayBuffer

/-- What the executor uses of the packages `jszip` and `zlib`. -/
structure ArchiveServices where
  mime : MimeServices
  loadAsync : ArrayBuffer → Except JsError (List JSZipObject)
  gunzipSync : ArrayBuffer → Except JsError ArrayBuffer

namespace ArchiveInterpreterExecutor

variable {δ : Type} (services : ExecutionServices) (archives : ArchiveServices)

def createFileFromArchive (archiveFileName : String) (content : ArrayBuffer)
    (extNameArchive : Option String) : BinaryFile :=
  let fileName := basename archiveFileName extNameArchive
  let extName := extname fileName
  { name := fileName
    extension := (inferFileExtensionFromFileExtensionString extName).getD .NONE
    mimeType :=
      (inferMimeTypeFromFileExtensionString archives.mime extName).getD .APPLICATION_OCTET_STREAM
    content := content }

/-- `putFile` with the assertion that it has added the file. -/
def addFile (fs : InMemoryFileSystem ArrayBuffer) (path : String) (file : BinaryFile) :
    Except JsError (InMemoryFileSystem ArrayBuffer) :=
  let addedFile := fs.putFile (String.ofList [InMemoryFileSystem.PATH_SEPARATOR] ++ path) file
  if addedFile.1 then
    .ok addedFile.2
  else
    .error (.assertionError "The expression evaluated to a falsy value")

/-- The part of `loadGzFileToInMemoryFileSystem` that may throw. -/
def loadGzFile (archiveFile : BinaryFile) : Except JsError (InMemoryFileSystem ArrayBuffer) := do
  let archivedObject ← archives.gunzipSync archiveFile.content
  let extNameArchive := extname archiveFile.name
  let file := createFileFromArchive archives archiveFile.name archivedObject (some extNameArchive)
  addFile InMemoryFileSystem.construct file.name file

/-- The loop of `loadZipFileToInMemoryFileSystem` over the entries of the archive. -/
def loadZipObject (fs : InMemoryFileSystem ArrayBuffer) (archivedObject : JSZipObject) :
    Except JsError (InMemoryFileSystem ArrayBuffer) :=
  if archivedObject.dir then
    .ok fs
  else do
    let content ← archivedObject.async
    let file := createFileFromArchive archives archivedObject.name content none
    addFile fs archivedObject.relPath file

/-- The part of `loadZipFileToInMemoryFileSystem` that may throw. -/
def loadZipFile (archiveFile : BinaryFile) : Except JsError (InMemoryFileSystem ArrayBuffer) := do
  let archivedObjects ← archives.loadAsync archiveFile.content
  archivedObjects.foldlM (loadZipObject archives) InMemoryFileSystem.construct

def generateErrorObject {α : Type} (currentNode : AstNode) (error : JsError) : Result α :=
  errorDetails s!"Unexpected Error {error.message} occured during processing"
    { node := currentNode, property := some "name" }

def doExecute (pipeline : PipelineDefinition) (archiveFile : BinaryFile) :
    ExecM δ (Result (InMemoryFileSystem ArrayBuffer)) := do
  let archiveType ← getTypedPropertyValue services Value.stringTypeguard "archiveType" .Text
  let currentNode ← getCurrentNode
  let currentNode := currentAstNode pipeline currentNode
  let caught (fs : Except JsError (InMemoryFileSystem ArrayBuffer)) :
      Result (InMemoryFileSystem ArrayBuffer) :=
    match fs with
    | .ok fs => .ok fs
    | .error error => generateErrorObject currentNode error
  if archiveType = "zip" then
    return caught (loadZipFile archives archiveFile)
  if archiveType = "gz" then
    return caught (loadGzFile archives archiveFile)
  return errorDetails "Archive type is not supported"
    { node := currentNode, property := some "name" }

end ArchiveInterpreterExecutor

/-! ## File picker -/

namespace FilePickerExecutor

variable {δ : Type} (services : ExecutionServices)

def doExecute (pipeline : PipelineDefinition) (fileSystem : InMemoryFileSystem ArrayBuffer) :
    ExecM δ (Result BinaryFile) := do
  let path ← getTypedPropertyValue services Value.stringTypeguard "path" .Text
  match fileSystem.getFile path with
  | none => do
      let currentNode ← getCurrentNode
      return errorDetails s!"File '{path}' not found"
        { node := currentAstNode pipeline currentNode }
  | some file => return .ok file

end FilePickerExecutor

end Jayvee
