import AgentConfig.Text.Pieces
import AgentConfig.Text.Utf8

namespace AgentConfig

/-- A place in the tree of folders: the names on the way to it from the root. -/
abbrev Place := List String

inductive Entry where
  | folder
  | file (bytes : List UInt8)
  deriving DecidableEq

/-- Why a path cannot be used. -/
inductive DiskFault where
  | missing
  | folder
  | notFolder
  | occupied
  | longName
  | nulName
  | tooLarge
  deriving DecidableEq

structure DiskError where
  fault : DiskFault
  path : String
  deriving DecidableEq

def DiskError.message (e : DiskError) : String :=
  match e.fault with
  | .missing => s!"[Errno 2] No such file or directory: {Text.quoted e.path}"
  | .occupied => s!"[Errno 17] File exists: {Text.quoted e.path}"
  | .notFolder => s!"[Errno 20] Not a directory: {Text.quoted e.path}"
  | .folder => s!"[Errno 21] Is a directory: {Text.quoted e.path}"
  | .tooLarge => "[Errno 27] File too large"
  | .longName => s!"[Errno 36] File name too long: {Text.quoted e.path}"
  | .nulName => "embedded null byte"

/-- What stands at each place, and the folder in which relative paths begin. -/
structure Disk where
  entryAt : Place → Option Entry
  home : Place

namespace Disk

/-- A disk with no files, only the folders on the way to its home. -/
def blank (home : Place) : Disk where
  entryAt place := if place.isPrefixOf home then some .folder else none
  home := home

/-- The disk after an entry is put in a place. All other places stay as they are. -/
def put (d : Disk) (place : Place) (entry : Entry) : Disk :=
  { d with entryAt := fun other => if other = place then some entry else d.entryAt other }

@[simp] theorem put_entryAt_self (d : Disk) (place : Place) (entry : Entry) :
    (d.put place entry).entryAt place = some entry := by
  simp [put]

theorem put_entryAt_ne {d : Disk} {place other : Place} (entry : Entry) (apart : other ≠ place) :
    (d.put place entry).entryAt other = d.entryAt other := by
  simp [put, apart]

/-- The most bytes that a name has. -/
def nameLimit : Nat := 255

/-- Paths have fewer bytes than this. -/
def pathLimit : Nat := 4096

/-- The most bytes that a file has. -/
def sizeLimit : Nat := 0x7fffffffffffffff

/-- Goes on from a folder by names: an empty name and `.` stay, `..` goes up. Only the last name may
lead to a place where nothing stands. -/
def walk (d : Disk) : Place → List String → Except DiskFault Place
  | place, [] => .ok place
  | place, name :: rest =>
    match d.entryAt place with
    | none => .error .missing
    | some (.file _) => .error .notFolder
    | some .folder =>
      if name = "" ∨ name = "." then d.walk place rest
      else if name = ".." then d.walk place.dropLast rest
      else if nameLimit < name.utf8ByteSize then .error .longName
      else d.walk (place ++ [name]) rest

def pathNames (path : String) : List String :=
  (Text.pieces '/' path.toList).map String.ofList

/-- Paths that begin with a slash begin at the root. -/
def start (d : Disk) (path : String) : Place :=
  if path.toList.head? = some '/' then [] else d.home

/-- What is wrong with a path whatever stands on the disk. -/
def pathFault? (path : String) : Option DiskFault :=
  if path.toList.contains '\x00' then some .nulName
  else if path = "" then some .missing
  else if pathLimit ≤ path.utf8ByteSize then some .longName
  else none

/-- The place that a path leads to. -/
def find (d : Disk) (path : String) : Except DiskFault Place :=
  match pathFault? path with
  | some fault => .error fault
  | none => d.walk (d.start path) (pathNames path)

/-- The names of a path without the slashes at its end. -/
def bareNames (path : String) : List String :=
  ((pathNames path).reverse.dropWhile (· = "")).reverse

/-- The place where a path lets a file be written. A path with a slash at its end means a folder. -/
def target (d : Disk) (path : String) : Except DiskFault Place :=
  match pathFault? path with
  | some fault => .error fault
  | none =>
    if bareNames path = pathNames path then
      match d.walk (d.start path) (pathNames path) with
      | .error fault => .error fault
      | .ok place => if d.entryAt place = some .folder then .error .folder else .ok place
    else
      match d.walk (d.start path) ((bareNames path).dropLast ++ [""]) with
      | .error fault => .error fault
      | .ok _ => .error .folder

/-- Whether anything stands where a path leads. -/
def holds (d : Disk) (path : String) : Bool :=
  match d.find path with
  | .error _ => false
  | .ok place => (d.entryAt place).isSome

def read (d : Disk) (path : String) : Except DiskError (List UInt8) :=
  match d.find path with
  | .error fault => .error { fault, path }
  | .ok place =>
    match d.entryAt place with
    | none => .error { fault := .missing, path }
    | some .folder => .error { fault := .folder, path }
    | some (.file bytes) => .ok bytes

/-- The disk with a file of these bytes, in place of the file that was there. Folders are never made. -/
def write (d : Disk) (path : String) (bytes : List UInt8) : Except DiskError Disk :=
  match d.target path with
  | .error fault => .error { fault, path }
  | .ok place =>
    if sizeLimit < bytes.length then .error { fault := .tooLarge, path } else .ok (d.put place (.file bytes))

/-- The disk with a new folder. -/
def makeFolder (d : Disk) (path : String) : Except DiskError Disk :=
  match pathFault? path with
  | some fault => .error { fault, path }
  | none =>
    match d.walk (d.start path) (bareNames path) with
    | .error fault => .error { fault, path }
    | .ok place =>
      if (d.entryAt place).isSome then .error { fault := .occupied, path }
      else .ok (d.put place .folder)

end Disk

/-- Why the text of a file cannot be read. -/
inductive ReadError where
  | disk (e : DiskError)
  | encoding (e : Text.Utf8Error)
  deriving DecidableEq

def ReadError.message : ReadError → String
  | disk e => e.message
  | encoding e => e.message

/-- The text of a file, with every line end as `\n`. -/
def Disk.readText (d : Disk) (path : String) : Except ReadError String :=
  match d.read path with
  | .error e => .error (.disk e)
  | .ok bytes =>
    match Text.readUtf8 bytes with
    | .error e => .error (.encoding e)
    | .ok s => .ok (String.ofList (Text.unifyLineEnds s))

end AgentConfig
