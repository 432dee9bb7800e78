/-
  Exporting a contract store is copying a file, and a copy empties its target first.

  Where the target is another file, the export leaves the store as it is, and the target then holds
  the same bytes.  Where the target IS the store, by whatever path it is named, the store is emptied
  before there is anything to copy: the export succeeds with 0 bytes and the contracts are gone
  (`not_forall_exportTo_keeps_store`).  While a server is busy nothing is touched at all, and
  nothing but the target is touched ever, also if the device stops before it has taken all of the
  store.
-/
import Lineage.Export.Contracts
import Lineage.Proofs.Device.Files

namespace Lineage.Contracts

open Device (FileSystem Place Entry)
open Device.FileSystem

variable {fs : FileSystem} {config : Configuration} {project : Project} {busy : List Bool}
  {target : String}

/-! ## Refused and admitted exports -/

/-- While a server is busy an export is refused, and touches nothing. -/
theorem exportTo_of_busy (hBusy : busy.any id = true) :
    exportTo fs config project busy target =
      (.error (.blocked blockedTitle blockedMessage), fs) := by
  rw [exportTo, checkExportable, if_pos hBusy]

/-- Otherwise it is a copy of the store. -/
theorem exportTo_of_idle (hIdle : busy.any id = false) :
    exportTo fs config project busy target =
      ((fs.copy (config.storePath project) target).1.mapError .device,
        (fs.copy (config.storePath project) target).2) := by
  rw [exportTo, checkExportable, if_neg (by simp [hIdle])]

/-- A copy that succeeds had a file to read and a place to write it at. -/
theorem exists_of_copy_eq_ok {source : String} {count : Nat}
    (hCopy : (fs.copy source target).1 = .ok count) :
    (∃ bytes, fs.read source = .ok bytes) ∧ ∃ place, fs.fileTarget target = .ok place := by
  rw [copy] at hCopy
  cases hSource : fs.find source with
  | error fault =>
    rw [hSource] at hCopy
    cases hCopy
  | ok entry =>
    rw [hSource] at hCopy
    cases entry with
    | directory => cases hCopy
    | file bytes =>
      refine ⟨⟨bytes, read_eq_ok_iff.2 (find_eq_file_iff.1 hSource)⟩, ?_⟩
      cases hTarget : fs.fileTarget target with
      | ok place => exact ⟨place, rfl⟩
      | error fault =>
        rw [write, hTarget] at hCopy
        cases hCopy

/-- **What an admitted export comes to.** -/
theorem exportTo_of_fileTarget {bytes : List UInt8} {origin goal : Place}
    (hIdle : busy.any id = false) (hStore : fs.fileTarget (config.storePath project) = .ok origin)
    (hHeld : fs.entry? origin = some (.file bytes)) (hTarget : fs.fileTarget target = .ok goal) :
    let carried := if origin = goal then [] else bytes
    exportTo fs config project busy target =
      (((fs.accept carried).1.map fun _ => carried.length).mapError .device,
        fs.put goal (.file (fs.accept carried).2)) := by
  rw [exportTo_of_idle hIdle, copy_of_fileTarget hStore hHeld hTarget]

/-- If the device takes what is carried over, the target holds it. -/
theorem exportTo_of_fits {bytes : List UInt8} {origin goal : Place}
    (hIdle : busy.any id = false) (hStore : fs.fileTarget (config.storePath project) = .ok origin)
    (hHeld : fs.entry? origin = some (.file bytes)) (hTarget : fs.fileTarget target = .ok goal)
    (hFits : fs.Fits (if origin = goal then [] else bytes)) :
    exportTo fs config project busy target =
      (.ok (if origin = goal then [] else bytes).length,
        fs.put goal (.file (if origin = goal then [] else bytes))) := by
  rw [exportTo_of_fileTarget hIdle hStore hHeld hTarget, accept_of_fits hFits]
  rfl

/-- If the device stops, the export fails. -/
theorem fits_of_exportTo_eq_ok {bytes : List UInt8} {origin goal : Place} {count : Nat}
    (hIdle : busy.any id = false) (hStore : fs.fileTarget (config.storePath project) = .ok origin)
    (hHeld : fs.entry? origin = some (.file bytes)) (hTarget : fs.fileTarget target = .ok goal)
    (hCount : (exportTo fs config project busy target).1 = .ok count) :
    fs.Fits (if origin = goal then [] else bytes) := by
  rw [exportTo_of_fileTarget hIdle hStore hHeld hTarget] at hCount
  rcases fs.fits_or_stops (if origin = goal then [] else bytes) with
    hFits | ⟨fault, part, hStops⟩
  · exact hFits
  · rw [accept_of_stops hStops] at hCount
    cases hCount

/-- What is carried over fits if it is nothing, or if the store does. -/
theorem fits_carried_iff {bytes : List UInt8} {origin goal : Place} :
    fs.Fits (if origin = goal then [] else bytes) ↔ origin = goal ∨ fs.Fits bytes := by
  split
  · rename_i hSame
    exact iff_of_true fs.fits_nil (.inl hSame)
  · rename_i hApart
    exact (or_iff_right hApart).symm

/-! ## What an export leaves -/

/-- **What an export does, in every case.**  While a server is busy, nothing.  Otherwise it succeeds
    if the store can be read, there is a place for the target and the device takes the bytes; for
    the store itself there are none to take.  Whatever comes of it, nothing but the target changes.
    If it succeeds, another file than the store has taken the bytes of the store, which keeps them,
    and they are counted; the store itself is emptied, and nothing is counted. -/
theorem exportTo_outcome (fs : FileSystem) (config : Configuration) (project : Project)
    (busy : List Bool) (target : String) :
    let store := config.storePath project
    let outcome := exportTo fs config project busy target
    (busy.any id = true → outcome = (.error (.blocked blockedTitle blockedMessage), fs)) ∧
    ((∃ count, outcome.1 = .ok count) ↔ busy.any id = false ∧
      ∃ bytes place, fs.read store = .ok bytes ∧ fs.fileTarget target = .ok place ∧
        (fs.fileTarget store = .ok place ∨ fs.Fits bytes)) ∧
    (∀ other, fs.fileTarget target ≠ .ok other →
      FileSystem.entry? outcome.2 other = fs.entry? other) ∧
    ∀ count bytes place, outcome.1 = .ok count → fs.read store = .ok bytes →
      fs.fileTarget target = .ok place →
      (fs.fileTarget store ≠ .ok place → outcome.2.read store = .ok bytes ∧
        outcome.2.read target = .ok bytes ∧ count = bytes.length) ∧
      (fs.fileTarget store = .ok place → outcome.2.read store = .ok [] ∧
        outcome.2.read target = .ok [] ∧ count = 0) := by
  intro store outcome
  refine ⟨exportTo_of_busy, ⟨?_, ?_⟩, ?_, ?_⟩
  · rintro ⟨count, hCount⟩
    cases hBusy : busy.any id with
    | true =>
      rw [show outcome = _ from exportTo_of_busy hBusy] at hCount
      cases hCount
    | false =>
      have hCopied : ∃ carried, (fs.copy store target).1 = .ok carried := by
        rw [show outcome = _ from exportTo_of_idle hBusy] at hCount
        cases hCopy : (fs.copy store target).1 with
        | error fault =>
          rw [hCopy] at hCount
          cases hCount
        | ok carried => exact ⟨carried, rfl⟩
      obtain ⟨carried, hCopied⟩ := hCopied
      obtain ⟨⟨bytes, hRead⟩, place, hTarget⟩ := exists_of_copy_eq_ok hCopied
      obtain ⟨origin, hStore, hHeld⟩ := read_eq_ok_iff.1 hRead
      have hFits := fits_carried_iff.1 (fits_of_exportTo_eq_ok hBusy hStore hHeld hTarget hCount)
      refine ⟨rfl, bytes, place, hRead, hTarget, hFits.imp_left fun hSame => ?_⟩
      rw [← hSame]
      exact hStore
  · rintro ⟨hIdle, bytes, place, hRead, hTarget, hTaken⟩
    obtain ⟨origin, hStore, hHeld⟩ := read_eq_ok_iff.1 hRead
    have hFits : origin = place ∨ fs.Fits bytes := by
      refine hTaken.imp_left fun hSame => ?_
      -- The paths of store and target may differ and still lead to one place.
      rw [hStore] at hSame
      exact Except.ok.inj hSame
    rw [show outcome = _ from
      exportTo_of_fits hIdle hStore hHeld hTarget (fits_carried_iff.2 hFits)]
    exact ⟨_, rfl⟩
  · intro other hOther
    cases hBusy : busy.any id with
    | true => rw [show outcome = _ from exportTo_of_busy hBusy]
    | false =>
      rw [show outcome = _ from exportTo_of_idle hBusy]
      exact copy_elsewhere hOther
  · intro count bytes place hCount hRead hTarget
    obtain ⟨origin, hStore, hHeld⟩ := read_eq_ok_iff.1 hRead
    have hPlace := file_of_fileTarget hTarget
    cases hBusy : busy.any id with
    | true =>
      rw [show outcome = _ from exportTo_of_busy hBusy] at hCount
      cases hCount
    | false =>
      have hFits := fits_of_exportTo_eq_ok hBusy hStore hHeld hTarget hCount
      -- It succeeded, so all that was carried over has fitted; what that is depends on the places
      -- alone.
      have hOutcome : outcome = _ := exportTo_of_fits hBusy hStore hHeld hTarget hFits
      rw [hOutcome] at hCount ⊢
      cases hCount
      rw [hStore]
      constructor
      · intro hApart
        have hApart : origin ≠ place := fun hSame => hApart (congrArg _ hSame)
        rw [if_neg hApart]
        exact ⟨read_put_of_ne hPlace hApart hStore hHeld bytes, read_put_self hTarget bytes, rfl⟩
      · intro hSame
        cases hSame
        rw [if_pos rfl]
        exact ⟨read_put_self hStore [], read_put_self hTarget [], rfl⟩

/-! ## A store and two targets -/

/-- A project with its contract store where stores are by default. -/
def shop : Project := ⟨"shop", "/work", []⟩

/-- The place of the store of the project `shop`. -/
def shopStore : Place := ["work", ".type-tracker", "contracts", "shop"]

/-- The empty store: the magic, a version and no methods. -/
def shopBytes : List UInt8 := [0x54, 0x54, 0x43, 0x53, 2, 0, 0, 0, 0]

/-- A device with nothing on it but that store. -/
def shopFiles : FileSystem :=
  (((FileSystem.empty.put ["work"] .directory).put ["work", ".type-tracker"] .directory).put
    ["work", ".type-tracker", "contracts"] .directory).put shopStore (.file shopBytes)

theorem fileTarget_shopStore :
    shopFiles.fileTarget (({} : Configuration).storePath shop) = .ok shopStore := by
  rfl

theorem entry?_shopStore : shopFiles.entry? shopStore = some (.file shopBytes) := by
  rfl

/-- To another file the store is copied. -/
theorem exportTo_outcome_otherFile :
    let outcome := exportTo shopFiles {} shop [false] "/work/out"
    outcome.1 = .ok 9 ∧ outcome.2.read (({} : Configuration).storePath shop) = .ok shopBytes ∧
      outcome.2.read "/work/out" = .ok shopBytes := by
  intro outcome
  have hTarget : shopFiles.fileTarget "/work/out" = .ok ["work", "out"] := by rfl
  have hRead := read_eq_ok_iff.2 ⟨shopStore, fileTarget_shopStore, entry?_shopStore⟩
  obtain ⟨-, hSucceeds, -, hLeft⟩ := exportTo_outcome shopFiles {} shop [false] "/work/out"
  obtain ⟨count, hCount⟩ :=
    hSucceeds.2 ⟨rfl, shopBytes, ["work", "out"], hRead, hTarget, .inr nofun⟩
  obtain ⟨hApart, -⟩ := hLeft count shopBytes ["work", "out"] hCount hRead hTarget
  have hPlaces : shopFiles.fileTarget (({} : Configuration).storePath shop) ≠
      .ok ["work", "out"] := by
    rw [fileTarget_shopStore]
    exact fun hSame => absurd (Except.ok.inj hSame) (by decide)
  obtain ⟨hStore, hOut, rfl⟩ := hApart hPlaces
  exact ⟨hCount, hStore, hOut⟩

/-- An export onto the store itself leaves nothing of it. -/
theorem not_forall_exportTo_keeps_store : ¬ ∀ (fs : FileSystem) (config : Configuration)
    (project : Project) (busy : List Bool) (target : String) (count : Nat) (bytes : List UInt8),
    fs.read (config.storePath project) = .ok bytes →
    (exportTo fs config project busy target).1 = .ok count →
      (exportTo fs config project busy target).2.read (config.storePath project) = .ok bytes ∧
      (exportTo fs config project busy target).2.read target = .ok bytes ∧
      count = bytes.length := by
  intro hKept
  have hEmptied : exportTo shopFiles {} shop [false] (({} : Configuration).storePath shop) =
      (.ok 0, shopFiles.put shopStore (.file [])) :=
    exportTo_of_fits rfl fileTarget_shopStore entry?_shopStore fileTarget_shopStore nofun
  obtain ⟨-, -, hCount⟩ := hKept shopFiles {} shop [false] (({} : Configuration).storePath shop) 0
    shopBytes (read_eq_ok_iff.2 ⟨shopStore, fileTarget_shopStore, entry?_shopStore⟩)
    (by rw [hEmptied])
  cases hCount

end Lineage.Contracts
