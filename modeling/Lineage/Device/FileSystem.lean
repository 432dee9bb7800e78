/-
  File systems: files and directories, as far as programs that read, write and copy whole files
  can tell.

  A place is the list of names on the way from the root.  The root is a directory; every other
  place has an entry or has not.  Going along a route needs a directory at each step: a missing
  place stops it, and so does a file.  Where a route ends there need not be anything yet.

  Writing a file can fail in two ways.  If there is no place for it, nothing changes.  If there is
  one, the file is emptied first, and the device may then stop part-way (`Limit`): what it has
  taken by then is what the file holds.
-/
import Lineage.Device.Fault
import Lineage.Device.Path
import Lineage.OrderedMap
import Lineage.Text.Utf8

namespace Lineage.Device

/-- The names on the way from the root. -/
abbrev Place : Type := List String

/-- What can be at a place. -/
inductive Entry where
  | directory
  | file (bytes : List UInt8)
  deriving DecidableEq, Repr

/-- How many bytes of a file a device takes, and the fault it reports when there are more. -/
structure Limit where
  room : Nat
  fault : Fault
  deriving DecidableEq, Repr

/-- What is at each place, and how much of a file the device takes. -/
structure FileSystem where
  entries : OrderedMap Place Entry := .empty
  /-- What stops a write part-way; if `none`, every file fits. -/
  limit : Option Limit := none

namespace FileSystem

/-- A file system in which there is nothing but the root. -/
def empty : FileSystem := {}

instance : Inhabited FileSystem := ⟨empty⟩

/-- What is at a place. -/
def entry? (fs : FileSystem) (place : Place) : Option Entry :=
  if place = [] then some .directory else fs.entries.get? place

/-- Put an entry at a place. -/
def put (fs : FileSystem) (place : Place) (entry : Entry) : FileSystem :=
  { fs with entries := fs.entries.insert place entry }

/-! ## Finding places -/

/-- The greatest number of bytes in a name. -/
def nameLimit : Nat := 255

/-- The greatest number of bytes in a path. -/
def pathLimit : Nat := 4095

/-- The place that `steps` lead to from `place`. -/
def walk (fs : FileSystem) (place : Place) : List Step → Except Fault Place
  | [] => .ok place
  | step :: rest =>
    match fs.entry? place with
    | none => .error .notFound
    | some (.file _) => .error .notADirectory
    | some .directory =>
      match step with
      | .stay => walk fs place rest
      | .up => walk fs place.dropLast rest
      | .into name =>
        if Utf8.size name ≤ nameLimit then walk fs (place ++ [name]) rest
        else .error .invalidFilename

/-- The place of a route; one that is not absolute starts at the root as well. -/
def placeOf (fs : FileSystem) (route : Route) : Except Fault Place := fs.walk [] route.steps

/-- Can this path be asked for at all? -/
def wellFormed (path : String) : Except Fault Unit :=
  if path.toList.contains '\x00' then .error .invalidInput
  else if pathLimit < Utf8.size path then .error .invalidFilename
  else if path.isEmpty then .error .notFound
  else .ok ()

/-- The route of a path. -/
def routeOf (path : String) : Except Fault Route := do
  wellFormed path
  return Route.ofText path

/-- Is there a directory at the end of the route? -/
def isDirectory (fs : FileSystem) (route : Route) : Bool :=
  match fs.placeOf route with
  | .ok place => fs.entry? place = some .directory
  | .error _ => false

/-! ## Files -/

/-- What is at the end of a path that is there. -/
def find (fs : FileSystem) (path : String) : Except Fault Entry := do
  let route ← routeOf path
  let place ← fs.placeOf route
  match fs.entry? place with
  | none => .error .notFound
  | some .directory => .ok .directory
  | some (.file bytes) => if route.slash then .error .notADirectory else .ok (.file bytes)

/-- Is there anything at the end of the path? -/
def exists? (fs : FileSystem) (path : String) : Bool := (fs.find path).isOk

/-- The bytes of a file. -/
def read (fs : FileSystem) (path : String) : Except Fault (List UInt8) := do
  match ← fs.find path with
  | .directory => .error .isADirectory
  | .file bytes => .ok bytes

/-- The text of a file. -/
def readText (fs : FileSystem) (path : String) : Except Fault String := do
  match Utf8.decode? (← fs.read path) with
  | some text => .ok text
  | none => .error .invalidData

/-- The place to write a file at: anywhere in a directory where no directory is. -/
def fileTarget (fs : FileSystem) (path : String) : Except Fault Place := do
  let route ← routeOf path
  let place ← fs.placeOf route
  if route.slash then .error .isADirectory
  else if fs.entry? place = some .directory then .error .isADirectory
  else .ok place

/-- What the device takes of a file's bytes, and what it reports. -/
def accept (fs : FileSystem) (bytes : List UInt8) : Except Fault Unit × List UInt8 :=
  match fs.limit with
  | none => (.ok (), bytes)
  | some limit =>
    (if bytes.length ≤ limit.room then .ok () else .error limit.fault, bytes.take limit.room)

/-- Write a file, in place of one that is there.  That one is gone also if the device stops before
    it has taken all of the bytes. -/
def write (fs : FileSystem) (path : String) (bytes : List UInt8) : Except Fault Unit × FileSystem :=
  match fs.fileTarget path with
  | .error fault => (.error fault, fs)
  | .ok place =>
    let (result, taken) := fs.accept bytes
    (result, fs.put place (.file taken))

/-- Copy a file and tell the number of bytes.  The target is emptied first, and then takes what
    the source holds: a file copied onto itself is empty afterwards. -/
def copy (fs : FileSystem) (source target : String) : Except Fault Nat × FileSystem :=
  match fs.find source with
  | .error fault => (.error fault, fs)
  | .ok .directory => (.error .invalidInput, fs)
  | .ok (.file _) =>
    match fs.write target [] with
    | (.error fault, fs) => (.error fault, fs)
    | (.ok (), emptied) =>
      match emptied.read source with
      | .error fault => (.error fault, emptied)
      | .ok bytes =>
        let (result, copied) := emptied.write target bytes
        (result.map fun _ => bytes.length, copied)

/-! ## Directories -/

/-- Make one directory, in a directory that is there. -/
def makeDirectory (fs : FileSystem) (route : Route) : Except Fault Unit × FileSystem :=
  match wellFormed route.render *> fs.placeOf route with
  | .error fault => (.error fault, fs)
  | .ok place =>
    if (fs.entry? place).isSome then (.error .alreadyExists, fs)
    else (.ok (), fs.put place .directory)

/-- Make a directory unless it is there. -/
def ensureDirectory (fs : FileSystem) (route : Route) : Except Fault Unit × FileSystem :=
  match fs.makeDirectory route with
  | (.ok (), made) => (.ok (), made)
  | (.error fault, fs) => if fs.isDirectory route then (.ok (), fs) else (.error fault, fs)

/-- Make a directory and the directories around it, as far as they are missing. -/
def makeDirectories (fs : FileSystem) (route : Route) : Except Fault Unit × FileSystem :=
  if route.absolute = false ∧ route.significant = [] then (.ok (), fs)
  else
    match fs.ensureDirectory route with
    | (.error .notFound, fs) =>
      match _hParent : route.parent? with
      | none => (.error .notFound, fs)
      | some parent =>
        match fs.makeDirectories parent with
        | (.error fault, fs) => (.error fault, fs)
        | (.ok (), fs) => fs.ensureDirectory route
    | (result, fs) => (result, fs)
termination_by route.steps.length
decreasing_by exact Route.length_parent? _hParent

end FileSystem

end Lineage.Device
