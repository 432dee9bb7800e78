/-
  Making directories.

  A directory is made where nothing is, so everything that was there is there afterwards (`Keeps`),
  also if some directories are made and then one cannot be.  A way that leads somewhere goes through
  directories that are there, and leads there still: no file is lost, whatever comes of it.
-/
import Lineage.Proofs.Device.Files

namespace Lineage.Device

/-- A relative route along which nothing counts has no steps. -/
theorem Route.steps_eq_nil {route : Route} (hRelative : route.absolute = false)
    (hNothing : route.significant = []) : route.steps = [] := by
  rw [significant, hRelative] at hNothing
  cases hSteps : route.steps with
  | nil => rfl
  | cons step rest =>
    rw [hSteps] at hNothing
    cases step <;> simp at hNothing

namespace FileSystem

variable {fs made after : FileSystem} {route : Route} {place : Place}

/-! ## What is kept -/

/-- Everything that is there is there afterwards. -/
def Keeps (fs after : FileSystem) : Prop :=
  ∀ place entry, fs.entry? place = some entry → after.entry? place = some entry

theorem Keeps.refl (fs : FileSystem) : fs.Keeps fs := fun _ _ hEntry => hEntry

theorem Keeps.trans (hFirst : fs.Keeps made) (hSecond : made.Keeps after) : fs.Keeps after :=
  fun place entry hEntry => hSecond place entry (hFirst place entry hEntry)

/-- Where nothing is, is not the root. -/
theorem ne_root_of_none (hNone : fs.entry? place = none) : place ≠ [] :=
  ne_root_of_file fun hDirectory => by
    rw [hNone] at hDirectory
    cases hDirectory

theorem keeps_put (hNone : fs.entry? place = none) (entry : Entry) :
    fs.Keeps (fs.put place entry) := by
  intro other there hThere
  rw [entry?_put (ne_root_of_none hNone), if_neg]
  · exact hThere
  · rintro rfl
    rw [hNone] at hThere
    cases hThere

/-- A way leads where it led. -/
theorem Keeps.walk (hKeeps : fs.Keeps after) {start found : Place} {steps : List Step}
    (hWalk : fs.walk start steps = .ok found) : after.walk start steps = .ok found :=
  walk_of_directories (fun place => hKeeps place .directory) hWalk

/-- **A file holds what it held.** -/
theorem Keeps.read (hKeeps : fs.Keeps after) {path : String} {bytes : List UInt8}
    (hRead : fs.read path = .ok bytes) : after.read path = .ok bytes := by
  obtain ⟨place, hTarget, hEntry⟩ := read_eq_ok_iff.1 hRead
  obtain ⟨route, hRoute, hPlace, hSlash, -⟩ := fileTarget_eq_ok_iff.1 hTarget
  have hAfter := hKeeps place _ hEntry
  refine read_eq_ok_iff.2 ⟨place, fileTarget_eq_ok_iff.2 ⟨route, hRoute, ?_, hSlash, ?_⟩, hAfter⟩
  · exact hKeeps.walk hPlace
  · simp [hAfter]

/-! ## What is made -/

/-- What is kept when a directory is to be made, and that it is there if it could be. -/
structure Makes (fs : FileSystem) (route : Route) (outcome : Except Fault Unit × FileSystem) :
    Prop where
  keeps : fs.Keeps outcome.2
  isDirectory : outcome.1 = .ok () → outcome.2.isDirectory route = true

/-- A directory is made where its route leads. -/
theorem placeOf_of_wellFormed {form : Except Fault Unit}
    (hPlace : form *> fs.placeOf route = .ok place) : fs.placeOf route = .ok place := by
  cases form with
  | error fault => cases hPlace
  | ok _ => exact hPlace

/-- Making one directory adds that directory or fails. -/
theorem makes_makeDirectory (fs : FileSystem) (route : Route) :
    Makes fs route (fs.makeDirectory route) := by
  rw [makeDirectory]
  cases hPlace : wellFormed route.render *> fs.placeOf route with
  | error fault => exact ⟨.refl fs, nofun⟩
  | ok place =>
    dsimp only
    split
    · exact ⟨.refl fs, nofun⟩
    · rename_i hNone
      rw [Option.not_isSome_iff_eq_none] at hNone
      have hKeeps := keeps_put hNone .directory
      refine ⟨hKeeps, fun _ => ?_⟩
      rw [isDirectory, placeOf, hKeeps.walk (placeOf_of_wellFormed hPlace)]
      simp [entry?_put (ne_root_of_none hNone)]

/-- Making sure of a directory makes it, finds it, or fails. -/
theorem makes_ensureDirectory (fs : FileSystem) (route : Route) :
    Makes fs route (fs.ensureDirectory route) := by
  have hMakes := makes_makeDirectory fs route
  rw [ensureDirectory]
  split
  · rename_i hMade
    rwa [hMade] at hMakes
  · rename_i fault after hFault
    rw [hFault] at hMakes
    split
    · rename_i hThere
      exact ⟨hMakes.keeps, fun _ => hThere⟩
    · exact ⟨hMakes.keeps, nofun⟩

/-- **Making directories** keeps everything, and if it succeeds the last one is there. -/
theorem makes_makeDirectories (fs : FileSystem) (route : Route) :
    Makes fs route (fs.makeDirectories route) := by
  have kept : ∀ {fs : FileSystem} {route : Route} {outcome : Except Fault Unit × FileSystem},
      fs.ensureDirectory route = outcome → Makes fs route outcome :=
    fun hOutcome => hOutcome ▸ makes_ensureDirectory _ _
  -- Along the recursion: nothing to make, no way to make it, or the directory around it first.
  fun_induction makeDirectories fs route with
  | case1 fs route hNothing =>
    refine ⟨.refl fs, fun _ => ?_⟩
    rw [isDirectory, placeOf, Route.steps_eq_nil hNothing.1 hNothing.2]
    rfl
  | case2 fs route _ after hMissing => exact ⟨(kept hMissing).keeps, nofun⟩
  | case3 fs route _ made hMissing parent _ fault after hFault ih =>
    rw [hFault] at ih
    exact ⟨(kept hMissing).keeps.trans ih.keeps, nofun⟩
  | case4 fs route _ made hMissing parent _ after hMade ih =>
    rw [hMade] at ih
    have hLast := makes_ensureDirectory after route
    exact ⟨((kept hMissing).keeps.trans ih.keeps).trans hLast.keeps, hLast.isDirectory⟩
  | case5 fs route _ result after _ hEnsured => exact kept hEnsured

/-- **A directory that is there** is left as it is, and so is everything else. -/
theorem makeDirectories_of_isDirectory (hThere : fs.isDirectory route = true) :
    fs.makeDirectories route = (.ok (), fs) := by
  -- The attempt to make it fails, as something is there; that it is a directory is looked at
  -- afterwards.
  have hMake : ∃ fault, fs.makeDirectory route = (.error fault, fs) := by
    rw [makeDirectory]
    cases hPlace : wellFormed route.render *> fs.placeOf route with
    | error fault => exact ⟨fault, rfl⟩
    | ok place =>
      rw [isDirectory, placeOf_of_wellFormed hPlace] at hThere
      have hEntry : fs.entry? place = some .directory := of_decide_eq_true hThere
      dsimp only
      rw [hEntry]
      exact ⟨.alreadyExists, rfl⟩
  obtain ⟨fault, hMake⟩ := hMake
  have hEnsure : fs.ensureDirectory route = (.ok (), fs) := by
    rw [ensureDirectory, hMake]
    dsimp only
    rw [if_pos hThere]
  rw [makeDirectories]
  split
  · rfl
  · rw [hEnsure]

end FileSystem

end Lineage.Device
