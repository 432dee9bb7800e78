/-
  What saving a contract store comes to, wherever it stops.

  Three things can fail, one after the other: there is no directory, the methods have no bytes, or
  the file cannot be written.  `Saves` says so in four lines, with what is left of the file system.

  Up to the last step nothing but directories is made, so that a save that does not get there leaves
  every file as it was (`Makes.keeps`).  The last step replaces the file: if the device stops it
  part-way, the store that was there before is lost, and a part of the new one stands in its place.
  A save that does not fail leaves a file that is read as the store.

  The error tells the step, not the cause.  The same fault of the device is a `device` error before
  the bytes are made and an `encode` error after that, so that a match on `device` does not find all
  faults of the device (`not_forall_save_classified`).  `ExportError.fault?` does.
-/
import Lineage.Export.Contracts
import Lineage.Proofs.Device.Directories
import Lineage.Proofs.Export.StoreCopy
import Lineage.Proofs.Wire.StoreFormat

namespace Lineage.Contracts

open Device (FileSystem Fault Place Route)
open Device.FileSystem
open Wire (ContractStore EncodeError)

/-! ## The directory -/

/-- Making sure of the directory keeps every file, whether or not it succeeds. -/
theorem keeps_prepareDirectory (fs : FileSystem) (path : String) :
    fs.Keeps (prepareDirectory fs path).2 := by
  rw [prepareDirectory]
  cases (Route.ofText path).parent? with
  | none => exact .refl fs
  | some directory => exact (makes_makeDirectories fs directory).keeps

/-- A directory that is there needs no preparing. -/
theorem prepareDirectory_of_isDirectory {fs : FileSystem} {path : String} {directory : Route}
    (hParent : (Route.ofText path).parent? = some directory)
    (hThere : fs.isDirectory directory = true) : prepareDirectory fs path = (.ok (), fs) := by
  rw [prepareDirectory, hParent]
  exact makeDirectories_of_isDirectory hThere

theorem isDirectory_of_prepareDirectory {fs : FileSystem} {path : String} {directory : Route}
    (hParent : (Route.ofText path).parent? = some directory)
    (hMade : (prepareDirectory fs path).1 = .ok ()) :
    (prepareDirectory fs path).2.isDirectory directory = true := by
  rw [prepareDirectory, hParent] at hMade ⊢
  exact (makes_makeDirectories fs directory).isDirectory hMade

/-! ## How far saving gets -/

/-- What saving a store comes to, and what it leaves. -/
inductive Saves (fs : FileSystem) (store : ContractStore) (path : String) :
    Except ExportError Unit → FileSystem → Prop
  | noDirectory {fault : Fault} {made : FileSystem}
      (hDirectory : prepareDirectory fs path = (.error fault, made)) :
      Saves fs store path (.error (.device fault)) made
  | noBytes {error : EncodeError} {made : FileSystem}
      (hDirectory : prepareDirectory fs path = (.ok (), made))
      (hBytes : store.toBytes = .error error) :
      Saves fs store path (.error (.encode (.encode error))) made
  | noFile {bytes : List UInt8} {fault : Fault} {made after : FileSystem}
      (hDirectory : prepareDirectory fs path = (.ok (), made))
      (hBytes : store.toBytes = .ok bytes)
      (hWriting : Writing made path bytes (.error fault) after) :
      Saves fs store path (.error (.encode (.device fault))) after
  | saved {bytes : List UInt8} {made after : FileSystem}
      (hDirectory : prepareDirectory fs path = (.ok (), made))
      (hBytes : store.toBytes = .ok bytes) (hWriting : Writing made path bytes (.ok ()) after) :
      Saves fs store path (.ok ()) after

section

variable {fs after : FileSystem} {store : ContractStore} {path : String}
  {result : Except ExportError Unit}

/-- The model saves in one of these ways. -/
theorem saves_saveAt (fs : FileSystem) (store : ContractStore) (path : String) :
    Saves fs store path (saveAt fs store path).1 (saveAt fs store path).2 := by
  rw [saveAt]
  -- In the order of the steps: the directory, the bytes, the file.
  cases hDirectory : prepareDirectory fs path with
  | mk prepared made =>
    cases prepared with
    | error fault => exact .noDirectory hDirectory
    | ok _ =>
      dsimp only
      rw [ContractStore.save]
      cases hBytes : store.toBytes with
      | error error => exact .noBytes hDirectory hBytes
      | ok bytes =>
        have hWriting := writing_write made path bytes
        dsimp only
        cases hWritten : (made.write path bytes).1 with
        | error fault =>
          rw [hWritten] at hWriting
          exact .noFile hDirectory hBytes hWriting
        | ok _ =>
          rw [hWritten] at hWriting
          exact .saved hDirectory hBytes hWriting

/-! ## What is left -/

/-- **A save that does not come to the file** leaves everything as it was, but for directories that
    it made. -/
theorem Saves.keeps {error : ExportError} (hSaves : Saves fs store path (.error error) after)
    (hNoFile : ∀ fault, error ≠ .encode (.device fault)) : fs.Keeps after := by
  have hKeeps := keeps_prepareDirectory fs path
  cases hSaves with
  | noDirectory hDirectory | noBytes hDirectory _ => rwa [hDirectory] at hKeeps
  | noFile _ _ _ => exact absurd rfl (hNoFile _)

/-- **The other files** hold what they held, whatever comes of a save. -/
theorem Saves.read_of_ne (hSaves : Saves fs store path result after) {other : String}
    {before : List UInt8} (hRead : fs.read other = .ok before)
    (hOther : (prepareDirectory fs path).2.fileTarget other ≠
      (prepareDirectory fs path).2.fileTarget path) : after.read other = .ok before := by
  have hMade := (keeps_prepareDirectory fs path).read hRead
  cases hSaves with
  | noDirectory hDirectory | noBytes hDirectory _ => rwa [hDirectory] at hMade
  | noFile hDirectory _ hWriting | saved hDirectory _ hWriting =>
    rw [hDirectory] at hMade hOther
    exact hWriting.read_of_ne hOther hMade

/-- **A save that fails at the file** leaves all files as they were, or a part of the store. -/
theorem Saves.of_fault {fault : Fault}
    (hSaves : Saves fs store path (.error (.encode (.device fault))) after) :
    fs.Keeps after ∨ ∃ bytes part, store.toBytes = .ok bytes ∧ part <+: bytes ∧
      part.length < bytes.length ∧ after.read path = .ok part := by
  have hKeeps := keeps_prepareDirectory fs path
  cases hSaves with
  | noFile hDirectory hBytes hWriting =>
    rw [hDirectory] at hKeeps
    rcases hWriting.of_error with rfl | ⟨part, hPart⟩
    · exact .inl hKeeps
    · exact .inr ⟨_, part, hBytes, hPart⟩

/-- **A save that does not fail** leaves a file that is read as the store. -/
theorem Saves.load (hSaves : Saves fs store path (.ok ()) after) :
    (∃ bytes, store.toBytes = .ok bytes ∧ after.read path = .ok bytes) ∧
      ContractStore.load after path = .ok store := by
  cases hSaves with
  | @saved bytes made _ hDirectory hBytes hWriting =>
    have hRead := hWriting.read_of_ok
    have hStore : ContractStore.ofBytes bytes = .ok store := by
      rwa [ContractStore.ofBytes_eq_ok_iff, ← ContractStore.toBytes_eq_ok_iff]
    refine ⟨⟨bytes, hBytes, hRead⟩, ?_⟩
    rw [ContractStore.load, hRead]
    dsimp only
    rw [hStore]
    rfl

/-! ## What an error tells -/

/-- Saving comes to the last step, and that is what writing the file gives. -/
def Writes (fs : FileSystem) (store : ContractStore) (path : String) (written : Except Fault Unit) :
    Prop :=
  (prepareDirectory fs path).1 = .ok () ∧ ∃ bytes, store.toBytes = .ok bytes ∧
    ((prepareDirectory fs path).2.write path bytes).1 = written

/-- A fault of the device by itself means that the directory could not be made. -/
theorem Saves.eq_device_iff (hSaves : Saves fs store path result after) (fault : Fault) :
    result = .error (.device fault) ↔ (prepareDirectory fs path).1 = .error fault := by
  cases hSaves with
  | noDirectory hDirectory => simp [hDirectory]
  | noBytes hDirectory _ => simp [hDirectory]
  | noFile hDirectory _ _ => simp [hDirectory]
  | saved hDirectory _ _ => simp [hDirectory]

/-- An encode error that is no fault means that the store has no bytes. -/
theorem Saves.eq_encode_iff (hSaves : Saves fs store path result after) (error : EncodeError) :
    result = .error (.encode (.encode error)) ↔
      (prepareDirectory fs path).1 = .ok () ∧ store.toBytes = .error error := by
  cases hSaves with
  | noDirectory hDirectory => simp [hDirectory]
  | noBytes hDirectory hBytes => simp [hDirectory, hBytes]
  | noFile hDirectory hBytes _ => simp [hDirectory, hBytes]
  | saved hDirectory hBytes _ => simp [hDirectory, hBytes]

/-- An encode error that is a fault means that the file could not be written. -/
theorem Saves.eq_fault_iff (hSaves : Saves fs store path result after) (fault : Fault) :
    result = .error (.encode (.device fault)) ↔ Writes fs store path (.error fault) := by
  rw [Writes]
  cases hSaves with
  | noDirectory hDirectory => simp [hDirectory]
  | noBytes hDirectory hBytes => simp [hDirectory, hBytes]
  | noFile hDirectory hBytes hWriting | saved hDirectory hBytes hWriting =>
    simp [hDirectory, hBytes, hWriting.write_eq]

theorem Saves.eq_ok_iff (hSaves : Saves fs store path result after) :
    result = .ok () ↔ Writes fs store path (.ok ()) := by
  rw [Writes]
  cases hSaves with
  | noDirectory hDirectory => simp [hDirectory]
  | noBytes hDirectory hBytes => simp [hDirectory, hBytes]
  | noFile hDirectory hBytes hWriting | saved hDirectory hBytes hWriting =>
    simp [hDirectory, hBytes, hWriting.write_eq]

end

/-! ## Saving methods -/

section

variable {fs : FileSystem} {config : Configuration} {project : Project}
  {methods : List MethodDescriptor}

theorem save_eq_error_iff {error : ExportError} :
    (save fs config project methods).1 = .error error ↔
      (saveAt fs ⟨config.storeLayout, methods⟩ (config.storePath project)).1 = .error error := by
  rw [save]
  dsimp only
  cases (saveAt fs ⟨config.storeLayout, methods⟩ (config.storePath project)).1 <;>
    simp [Except.map]

/-- Saving the store of a project succeeds as saving at its path does, and tells the path. -/
theorem save_eq_ok_iff {told : String} :
    (save fs config project methods).1 = .ok told ↔ told = config.storePath project ∧
      (saveAt fs ⟨config.storeLayout, methods⟩ (config.storePath project)).1 = .ok () := by
  rw [save]
  dsimp only
  cases (saveAt fs ⟨config.storeLayout, methods⟩ (config.storePath project)).1 <;>
    simp [Except.map, eq_comm]

/-- What saving methods leaves is what saving their store leaves. -/
theorem save_snd : (save fs config project methods).2 =
    (saveAt fs ⟨config.storeLayout, methods⟩ (config.storePath project)).2 := by
  rw [save]

/-- A fault of the device is in an error of one of two kinds. -/
theorem fault?_eq_some_iff {error : ExportError} {fault : Fault} :
    error.fault? = some fault ↔ error = .device fault ∨ error = .encode (.device fault) := by
  rcases error with _ | (_ | _) | _ <;> simp [ExportError.fault?]

end

/-- **What saving comes to, in every case.**

    If the directory cannot be made, that is a `device` error.  If it is there but the methods have
    no bytes in the layout, that is an `encode` error without a fault of the device.  If there are
    bytes but the file cannot be written, that is an `encode` error as well, with the fault inside.
    So there is a fault of the device in the error exactly if one of the two steps on the device
    failed.

    If nothing fails the path is that of the project's store, and what is read there is the methods
    in the configured layout.  If the file is not come to, each file that could be read is read as
    before.  If it is and cannot be written, that is so too, or else the device has stopped and a
    part of the bytes stands in the place of the store.  The files at other places are read as
    before in every case. -/
theorem save_outcome (fs : FileSystem) (config : Configuration) (project : Project)
    (methods : List MethodDescriptor) :
    let path := config.storePath project
    let store : ContractStore := { layout := config.storeLayout, methods }
    let prepared := prepareDirectory fs path
    let outcome := save fs config project methods
    (∀ fault, outcome.1 = .error (.device fault) ↔ prepared.1 = .error fault) ∧
    (∀ error, outcome.1 = .error (.encode (.encode error)) ↔
      prepared.1 = .ok () ∧ store.toBytes = .error error) ∧
    (∀ fault, outcome.1 = .error (.encode (.device fault)) ↔ Writes fs store path (.error fault)) ∧
    (∀ fault, (∃ error, outcome.1 = .error error ∧ error.fault? = some fault) ↔
      prepared.1 = .error fault ∨ Writes fs store path (.error fault)) ∧
    (∀ told, outcome.1 = .ok told ↔ told = path ∧ Writes fs store path (.ok ())) ∧
    (∀ told, outcome.1 = .ok told →
      (∃ bytes, store.toBytes = .ok bytes ∧ outcome.2.read told = .ok bytes) ∧
        ContractStore.load outcome.2 told = .ok store) ∧
    (∀ error, outcome.1 = .error error → (∀ fault, error ≠ .encode (.device fault)) →
      ∀ other before, fs.read other = .ok before → outcome.2.read other = .ok before) ∧
    (∀ fault, outcome.1 = .error (.encode (.device fault)) →
      (∀ other before, fs.read other = .ok before → outcome.2.read other = .ok before) ∨
      ∃ bytes part, store.toBytes = .ok bytes ∧ part <+: bytes ∧ part.length < bytes.length ∧
        outcome.2.read path = .ok part) ∧
    (∀ other before, fs.read other = .ok before →
      prepared.2.fileTarget other ≠ prepared.2.fileTarget path →
        outcome.2.read other = .ok before) ∧
    ∀ directory, prepared.1 = .ok () → (Route.ofText path).parent? = some directory →
      prepared.2.isDirectory directory = true := by
  intro path store prepared outcome
  have hSaves : Saves fs store path (saveAt fs store path).1 outcome.2 := by
    rw [show outcome.2 = _ from save_snd]
    exact saves_saveAt fs store path
  have hDevice : ∀ fault, outcome.1 = .error (.device fault) ↔ prepared.1 = .error fault :=
    fun fault => save_eq_error_iff.trans (hSaves.eq_device_iff fault)
  have hNoFile : ∀ fault,
      outcome.1 = .error (.encode (.device fault)) ↔ Writes fs store path (.error fault) :=
    fun fault => save_eq_error_iff.trans (hSaves.eq_fault_iff fault)
  refine ⟨hDevice, fun error => save_eq_error_iff.trans (hSaves.eq_encode_iff error), hNoFile,
    fun fault => ?_, fun told => save_eq_ok_iff.trans (and_congr_right fun _ => hSaves.eq_ok_iff),
    fun told hTold => ?_, fun error hError hOther other before hRead => ?_,
    fun fault hFault => ?_, fun other before hRead hOther => hSaves.read_of_ne hRead hOther,
    fun directory hMade hParent => isDirectory_of_prepareDirectory hParent hMade⟩
  · rw [← hDevice, ← hNoFile]
    constructor
    · rintro ⟨error, hError, hFault⟩
      -- Two errors carry a fault: one of the directory, one of the file.
      rcases fault?_eq_some_iff.1 hFault with rfl | rfl
      · exact .inl hError
      · exact .inr hError
    · rintro (hError | hError)
      · exact ⟨_, hError, rfl⟩
      · exact ⟨_, hError, rfl⟩
  · obtain ⟨rfl, hSaved⟩ := save_eq_ok_iff.1 hTold
    exact (hSaved ▸ hSaves).load
  · exact ((save_eq_error_iff.1 hError ▸ hSaves).keeps hOther).read hRead
  · rcases (save_eq_error_iff.1 hFault ▸ hSaves).of_fault with hKeeps | hPart
    · exact .inl fun other before hRead => hKeeps.read hRead
    · exact .inr hPart

/-! ## Two devices that refuse the store -/

/-- Where the stores of the project are. -/
def shopDirectory : Route :=
  ⟨true, [.into "work", .into ".type-tracker", .into "contracts"], false⟩

theorem parent?_shopStore :
    (Route.ofText (({} : Configuration).storePath shop)).parent? = some shopDirectory := by
  rfl

/-- What is saved if there are no methods. -/
theorem toBytes_shop :
    ContractStore.toBytes ⟨({} : Configuration).storeLayout, []⟩ = .ok shopBytes := by
  rfl

/-- A project in which the store's path leads to a directory. -/
def occupied : FileSystem := shopFiles.put shopStore .directory

/-- **A fault of the device can be an error of another kind.** -/
theorem not_forall_save_classified : ¬ ∀ (fs : FileSystem) (config : Configuration)
    (project : Project) (methods : List MethodDescriptor),
    (∃ told, (save fs config project methods).1 = .ok told) ∨
    (∃ error, (save fs config project methods).1 = .error (.encode (.encode error))) ∨
    ∃ fault, (save fs config project methods).1 = .error (.device fault) := by
  intro hClassified
  have hTarget : occupied.fileTarget (({} : Configuration).storePath shop) =
      .error .isADirectory := by rfl
  have hWrites : Writes occupied ⟨({} : Configuration).storeLayout, []⟩
      (({} : Configuration).storePath shop) (.error .isADirectory) := by
    rw [Writes, prepareDirectory_of_isDirectory parent?_shopStore (by rfl)]
    exact ⟨rfl, shopBytes, toBytes_shop, by rw [write_of_fileTarget_error hTarget]⟩
  have hSave : (save occupied {} shop []).1 = .error (.encode (.device .isADirectory)) :=
    save_eq_error_iff.2 (((saves_saveAt _ _ _).eq_fault_iff _).2 hWrites)
  rcases hClassified occupied {} shop [] with ⟨told, hOk⟩ | ⟨error, hError⟩ | ⟨fault, hError⟩
  · rw [hSave] at hOk
    cases hOk
  · rw [hSave] at hError
    cases hError
  · rw [hSave] at hError
    cases hError

/-- The same project on a device that takes four bytes of a file. -/
def fullDevice : FileSystem := { shopFiles with limit := some ⟨4, .storageFull⟩ }

/-- **A save that fails can lose the store** that was there before: only the magic is left. -/
theorem save_fullDevice :
    fullDevice.read (({} : Configuration).storePath shop) = .ok shopBytes ∧
      (save fullDevice {} shop []).1 = .error (.encode (.device .storageFull)) ∧
      (save fullDevice {} shop []).2.read (({} : Configuration).storePath shop) =
        .ok [0x54, 0x54, 0x43, 0x53] := by
  have hTarget : fullDevice.fileTarget (({} : Configuration).storePath shop) = .ok shopStore := by
    rfl
  have hStops : fullDevice.Stops shopBytes .storageFull [0x54, 0x54, 0x43, 0x53] :=
    ⟨⟨4, .storageFull⟩, rfl, by decide, rfl, rfl⟩
  have hSave : save fullDevice {} shop [] = (.error (.encode (.device .storageFull)),
      fullDevice.put shopStore (.file [0x54, 0x54, 0x43, 0x53])) := by
    rw [save]
    dsimp only
    rw [saveAt, prepareDirectory_of_isDirectory parent?_shopStore (by rfl)]
    dsimp only
    rw [ContractStore.save, toBytes_shop]
    dsimp only
    rw [write_of_fileTarget hTarget, accept_of_stops hStops]
    rfl
  refine ⟨read_eq_ok_iff.2 ⟨shopStore, hTarget, by rfl⟩, ?_, ?_⟩
  · rw [hSave]
  · rw [hSave]
    exact read_put_self hTarget _

end Lineage.Contracts
