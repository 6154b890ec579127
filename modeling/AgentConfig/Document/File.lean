import AgentConfig.Disk
import AgentConfig.Document.Text

namespace AgentConfig

/-- Files whose names end in `.yaml` or `.yml`, in capitals or not, hold YAML, and all others JSON. -/
def Format.ofPath (path : String) : Format :=
  let name := Text.lower path.toList
  if ".yaml".toList.isSuffixOf name || ".yml".toList.isSuffixOf name then .yaml else .json

/-- Why a file gives no document. -/
inductive FileError where
  | read (e : ReadError)
  | parse (e : ParseError)
  deriving DecidableEq

/-- Why a document cannot be put into a file. -/
inductive StoreError where
  | disk (e : DiskError)
  | write (e : WriteError)
  deriving DecidableEq

def StoreError.message : StoreError → String
  | disk e => e.message
  | write e => e.message

namespace Document

/-- The document in a file. Where there is no file nothing has been deployed yet, so the document is empty. -/
def load [Runtime] (disk : Disk) (path : String) : Except FileError Document :=
  if disk.holds path then
    match disk.readText path with
    | .error e => .error (.read e)
    | .ok text =>
      match parse (.ofPath path) (some path) text with
      | .error e => .error (.parse e)
      | .ok d => .ok d
  else .ok .empty

/-- Puts a document into a file. The file is emptied first, so it is left empty if the document has no text,
and it is cut off where a file ends at the latest. -/
def store (d : Document) (disk : Disk) (path : String) : Disk × Except StoreError Unit :=
  match disk.target path with
  | .error fault => (disk, .error (.disk { fault, path }))
  | .ok place =>
    match d.render (.ofPath path) with
    | .error e => (disk.put place (.file []), .error (.write e))
    | .ok text =>
      let bytes := Text.utf8 text.toList
      if Disk.sizeLimit < bytes.length then
        (disk.put place (.file (bytes.take Disk.sizeLimit)), .error (.disk { fault := .tooLarge, path }))
      else (disk.put place (.file bytes), .ok ())

end Document
end AgentConfig
