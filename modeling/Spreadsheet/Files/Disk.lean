import Spreadsheet.Files

/-!
# Disks in memory

A disk is a tree of named files, directories and devices, kept as a list of places. A place is the list of
the names that lead to it from the top directory. A path is looked up name by name, from the top directory if
it starts with a slash and from the working directory if not, and the first obstacle on the way is the fault
that is answered. Above the top directory is the top directory itself.
-/

namespace Spreadsheet

inductive Disk.Entry where
  | file (bytes : ByteArray)
  | directory
  /-- A device that is always empty and takes everything that is written to it. -/
  | sink
  /-- A device without an end that has no room for anything. -/
  | full

structure Disk where
  entries : List (List String × Disk.Entry)
  /-- The place of the working directory. -/
  working : List String

namespace Disk

/-- What is at a place; the top directory is always there. -/
def entry? (disk : Disk) : List String → Option Entry
  | [] => some .directory
  | place => (disk.entries.find? (·.1 = place)).map Prod.snd

def isDirectory (disk : Disk) (place : List String) : Bool := disk.entry? place matches some .directory

/-- Names longer than this many bytes are refused. -/
def nameLimit : Nat := 255

/-- Paths longer than this many bytes are refused. -/
def pathLimit : Nat := 4095

/-- The pieces between the slashes of a path. -/
def split : List Char → List (List Char)
  | [] => [[]]
  | c :: cs =>
    if c = '/' then [] :: split cs
    else
      match split cs with
      | [] => [[c]]
      | piece :: pieces => (c :: piece) :: pieces

/-- The names that a path consists of. A name may be empty. -/
def names (path : String) : List String := (split path.toList).map String.ofList

/-- The place from which a path is looked up. -/
def start (disk : Disk) (path : String) : List String :=
  if path.toList.head? = some '/' then [] else disk.working

/-- The fault of a path that is not looked up at all. -/
def refusal? (path : String) : Option FileFault :=
  if path.contains '\x00' then some (.other "file name contained an unexpected NUL byte")
  else if path = "" then some .notFound
  else if pathLimit < path.utf8ByteSize then some .nameTooLong
  else none

/-- The place that some names lead to from another one. -/
def walk (disk : Disk) : (place : List String) → (names : List String) → Except FileFault (List String)
  | place, [] => .ok place
  | place, name :: names =>
    if !disk.isDirectory place then .error .notDirectory
    else if name = "" ∨ name = "." then disk.walk place names
    else if name = ".." then disk.walk place.dropLast names
    else if nameLimit < name.utf8ByteSize then .error .nameTooLong
    else if (disk.entry? (place ++ [name])).isNone then .error .notFound
    else disk.walk (place ++ [name]) names

/-- What a path leads to. -/
def find (disk : Disk) (path : String) : Except FileFault Entry :=
  match refusal? path with
  | some fault => .error fault
  | none => do
    let place ← disk.walk (disk.start path) (names path)
    match disk.entry? place with
    | some entry => .ok entry
    | none => .error .notFound

def read (disk : Disk) (path : String) : Except FileFault ByteArray := do
  match ← disk.find path with
  | .file bytes => .ok bytes
  | .directory => .error .isDirectory
  | .sink => .ok .empty
  | .full => .error (.other "out of memory")

/-- Puts something at a place. -/
def put (disk : Disk) (place : List String) (entry : Entry) : Disk :=
  { disk with entries := (place, entry) :: disk.entries.filter (·.1 ≠ place) }

/-- Writes to the place of a name in a directory. -/
def writeIn (disk : Disk) (directory : List String) (name : String) (bytes : ByteArray) :
    Except FileFault Disk :=
  match disk.entry? (directory ++ [name]) with
  | some .directory => .error .isDirectory
  | some .sink => .ok disk
  | some .full => if bytes.isEmpty then .ok disk else .error .noSpace
  | _ =>
    if nameLimit < name.utf8ByteSize then .error .nameTooLong
    else .ok (disk.put (directory ++ [name]) (.file bytes))

/-- Writes a file into an existing directory. A path that ends with a slash, or with a name of dots, can only
be a directory. -/
def write (disk : Disk) (path : String) (bytes : ByteArray) : Except FileFault Disk :=
  match refusal? path with
  | some fault => .error fault
  | none => do
    let named := ((names path).reverse.dropWhile (· = "")).reverse
    let directory ← disk.walk (disk.start path) named.dropLast
    let name := named.getLastD "."
    if !disk.isDirectory directory then .error .notDirectory
    else if named ≠ names path ∨ name = "." ∨ name = ".." then .error .isDirectory
    else disk.writeIn directory name bytes

/-- The size of a directory as systems report it. -/
def directorySize : Nat := 4096

def size? (disk : Disk) (path : String) : Option Nat :=
  match disk.find path with
  | .ok (.file bytes) => some bytes.size
  | .ok .directory => some directorySize
  | .ok .sink | .ok .full => some 0
  | .error _ => none

/-- Follows some names from a place and makes a directory wherever they lead on from nothing. -/
def makeWay (disk : Disk) : (place : List String) → (names : List String) → Disk × List String
  | place, [] => (disk, place)
  | place, name :: names =>
    let disk := if disk.isDirectory place then disk else disk.put place .directory
    if name = "" ∨ name = "." then disk.makeWay place names
    else if name = ".." then disk.makeWay place.dropLast names
    else disk.makeWay (place ++ [name]) names

/-- Puts something on the disk together with the directories on the way to it. -/
def provide (disk : Disk) (path : String) (entry : Entry) : Disk :=
  let (disk, place) := disk.makeWay (disk.start path) (names path)
  disk.put place entry

/-- The directories that a system comes with. -/
def systemDirectories : List String :=
  ["/bin", "/boot", "/dev", "/etc", "/home", "/lib", "/media", "/mnt", "/opt", "/proc", "/root", "/run", "/sbin",
    "/srv", "/sys", "/tmp", "/usr", "/var"]

/-- A disk that holds the usual directories, two devices and an empty working directory. -/
def fresh : Disk :=
  let empty : Disk := ⟨[], ["tmp", "work"]⟩
  let disk := systemDirectories.foldl (fun disk path => disk.provide path .directory) empty
  ((disk.provide "/dev/null" .sink).provide "/dev/full" .full).provide "/tmp/work" .directory

instance : Files (StateM Disk) where
  read path := return (← get).read path
  write path bytes := do
    match (← get).write path bytes with
    | .ok disk =>
      set disk
      return .ok ()
    | .error fault => return .error fault
  size? path := return (← get).size? path

end Disk

end Spreadsheet
