/-
  Keeping and exporting a project's contract store.

  Saving makes the directory first, then the bytes, then the file: a store that has no bytes leaves
  the file as it was.  The error tells which step failed, and so a fault of the device can be told
  in two ways.  Exporting copies the file; it is refused while a signature server is busy.
-/
import Lineage.Device.FileSystem
import Lineage.Export.Configuration
import Lineage.Wire.Store

namespace Lineage

open Device (FileSystem Fault)
open Wire (ContractStore)

/-! ## Stores as files -/

namespace Wire.ContractStore

/-- Write a store as a file.  One that has no bytes leaves the file as it is. -/
def save (store : ContractStore) (fs : FileSystem) (path : String) :
    Except WriteError Unit × FileSystem :=
  match store.toBytes with
  | .error error => (.error (.encode error), fs)
  | .ok bytes =>
    let (result, fs) := fs.write path bytes
    (result.mapError .device, fs)

/-- Read a store from a file. -/
def load (fs : FileSystem) (path : String) : Except ReadError ContractStore :=
  match fs.read path with
  | .error fault => .error (.device fault)
  | .ok bytes => (ofBytes bytes).mapError .decode

end Wire.ContractStore

/-! ## Exporting -/

/-- Why nothing was exported or saved. -/
inductive ExportError where
  /-- It was refused before anything was written. -/
  | blocked (title message : String)
  /-- The store was not written: it has no bytes, or the device refused the file. -/
  | encode (error : ContractStore.WriteError)
  /-- The device failed at another step: a directory was to be made, or a file to be copied. -/
  | device (fault : Fault)
  deriving DecidableEq, Repr

namespace ExportError

/-- The fault of the device that an error tells of, at whatever step. -/
def fault? : ExportError → Option Fault
  | blocked _ _ => none
  | encode (.encode _) => none
  | encode (.device fault) => some fault
  | device fault => some fault

end ExportError

namespace Contracts

/-- What a refused export is titled. -/
def blockedTitle : String := "Cannot export contracts"

/-- Why an export is refused while a program is running. -/
def blockedMessage : String :=
  "Cannot export contracts while have some programs running under type tracker"

/-- May contracts be exported, given which of the signature servers are busy? -/
def checkExportable (busy : List Bool) : Except ExportError Unit :=
  if busy.any id then .error (.blocked blockedTitle blockedMessage) else .ok ()

/-- Copy a project's contract store to `target` and tell the number of bytes. -/
def exportTo (fs : FileSystem) (config : Configuration) (project : Project) (busy : List Bool)
    (target : String) : Except ExportError Nat × FileSystem :=
  match checkExportable busy with
  | .error error => (.error error, fs)
  | .ok () =>
    let (result, fs) := fs.copy (config.storePath project) target
    (result.mapError .device, fs)

/-- Make what is around the end of `path` a directory. -/
def prepareDirectory (fs : FileSystem) (path : String) : Except Fault Unit × FileSystem :=
  match (Device.Route.ofText path).parent? with
  | none => (.ok (), fs)
  | some directory => fs.makeDirectories directory

/-- Save a store as the file at `path`, in a directory that is made if need be. -/
def saveAt (fs : FileSystem) (store : ContractStore) (path : String) :
    Except ExportError Unit × FileSystem :=
  match prepareDirectory fs path with
  | (.error fault, fs) => (.error (.device fault), fs)
  | (.ok (), fs) =>
    let (result, fs) := store.save fs path
    (result.mapError .encode, fs)

/-- Save methods as a project's contract store and tell its path. -/
def save (fs : FileSystem) (config : Configuration) (project : Project)
    (methods : List MethodDescriptor) : Except ExportError String × FileSystem :=
  let path := config.storePath project
  let (result, fs) := saveAt fs { layout := config.storeLayout, methods } path
  (result.map fun _ => path, fs)

end Contracts

end Lineage
