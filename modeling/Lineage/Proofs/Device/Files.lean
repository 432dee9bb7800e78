/-
  Files, and the places that paths lead to.

  A path leads to a place by way of directories, and a file is written at a place where no directory
  is.  So writing a file changes one entry and nobody's way: every path leads to the place that it
  led to before (`fileTarget_put`).

  `Writing` says in three lines what a write comes to.  There may be no place for the file; the
  device may take a part of the bytes only; or it takes them all.  What was in the file before is
  lost in the last two cases, and no other file changes in any of them (`Writing.elsewhere`).

  A copy is made of two such writes, one that empties the target and one that fills it with what the
  source then holds (`copy_of_fileTarget`).  That is what the source held before, unless source and
  target are one place.
-/
import Lineage.Device.FileSystem

namespace Lineage.Device.FileSystem

variable {fs : FileSystem} {path : String} {place : Place} {bytes : List UInt8}

/-! ## Entries -/

/-- Where no directory is, is not the root. -/
theorem ne_root_of_file (hFile : fs.entry? place ≠ some .directory) : place ≠ [] := by
  rintro rfl
  exact hFile rfl

/-- Only the place that was written has another entry; the root cannot be written. -/
theorem entry?_put (hRoot : place ≠ []) (entry : Entry) (other : Place) :
    FileSystem.entry? (fs.put place entry) other =
      if other = place then some entry else fs.entry? other := by
  by_cases hOther : other = []
  · subst hOther
    rw [if_neg hRoot.symm]
    rfl
  · have hThere : ∀ fs : FileSystem, fs.entry? other = fs.entries.get? other :=
      fun _ => if_neg hOther
    rw [hThere, hThere]
    exact OrderedMap.get?_insert _ _ _ _

/-- Of two entries for one place the later one stays. -/
theorem put_put (fs : FileSystem) (place : Place) (first second : Entry) :
    (fs.put place first).put place second = fs.put place second := by
  rw [put, put, put, OrderedMap.insert_insert_self]

/-- A file in place of another one, or of nothing, leaves the directories as they are. -/
theorem entry?_put_eq_directory_iff (hFile : fs.entry? place ≠ some .directory) (other : Place) :
    FileSystem.entry? (fs.put place (.file bytes)) other = some .directory ↔
      fs.entry? other = some .directory := by
  rw [entry?_put (ne_root_of_file hFile)]
  split
  · rename_i hOther
    subst hOther
    simp [hFile]
  · rfl

/-! ## Ways -/

/-- **A way leads where it led** as long as every directory is one: it leads through directories
    only. -/
theorem walk_of_directories {after : FileSystem}
    (hDirectories : ∀ place, fs.entry? place = some .directory →
      after.entry? place = some .directory)
    {start found : Place} {steps : List Step} (hWalk : fs.walk start steps = .ok found) :
    after.walk start steps = .ok found := by
  -- On the steps: as long as the walk goes it stands at directories, and those are still there.
  induction steps generalizing start with
  | nil => exact hWalk
  | cons step rest ih =>
    rw [walk.eq_def] at hWalk ⊢
    dsimp only at hWalk ⊢
    cases hHere : fs.entry? start with
    | none =>
      rw [hHere] at hWalk
      cases hWalk
    | some entry =>
      cases entry with
      | file _ =>
        rw [hHere] at hWalk
        cases hWalk
      | directory =>
        rw [hDirectories start hHere]
        rw [hHere] at hWalk
        cases step with
        | stay => exact ih hWalk
        | up => exact ih hWalk
        | into name =>
          dsimp only at hWalk ⊢
          split at hWalk
          · rename_i hShort
            rw [if_pos hShort]
            exact ih hWalk
          · cases hWalk

/-- A way stays the same when a file is put where no directory is. -/
theorem walk_put (hFile : fs.entry? place ≠ some .directory) (bytes : List UInt8)
    {start found : Place} {steps : List Step} (hWalk : fs.walk start steps = .ok found) :
    (fs.put place (.file bytes)).walk start steps = .ok found :=
  walk_of_directories (fun other => (entry?_put_eq_directory_iff hFile other).2) hWalk

/-! ## Paths -/

theorem bind_eq_ok_iff {ε α β : Type} {first : Except ε α} {next : α → Except ε β} {result : β} :
    first >>= next = .ok result ↔ ∃ value, first = .ok value ∧ next value = .ok result := by
  cases first <;> simp [bind, Except.bind]

/-- A file can be written at the end of a path that leads to no directory, and does not ask for
    one. -/
theorem fileTarget_eq_ok_iff :
    fs.fileTarget path = .ok place ↔ ∃ route, routeOf path = .ok route ∧
      fs.placeOf route = .ok place ∧ route.slash = false ∧ fs.entry? place ≠ some .directory := by
  simp only [fileTarget, bind_eq_ok_iff]
  constructor
  · rintro ⟨route, hRoute, found, hPlace, hGuards⟩
    split at hGuards
    · cases hGuards
    · rename_i hSlash
      split at hGuards
      · cases hGuards
      · rename_i hFile
        cases hGuards
        exact ⟨route, hRoute, hPlace, Bool.eq_false_iff.2 hSlash, hFile⟩
  · rintro ⟨route, hRoute, hPlace, hSlash, hFile⟩
    refine ⟨route, hRoute, place, hPlace, ?_⟩
    rw [if_neg (Bool.eq_false_iff.1 hSlash), if_neg hFile]

theorem file_of_fileTarget (hTarget : fs.fileTarget path = .ok place) :
    fs.entry? place ≠ some .directory := by
  obtain ⟨route, -, -, -, hFile⟩ := fileTarget_eq_ok_iff.1 hTarget
  exact hFile

/-- **Every path leads to the place it led to before**, when a file is put where no directory
    is. -/
theorem fileTarget_put (hFile : fs.entry? place ≠ some .directory) (bytes : List UInt8)
    {other : Place} (hTarget : fs.fileTarget path = .ok other) :
    (fs.put place (.file bytes)).fileTarget path = .ok other := by
  obtain ⟨route, hRoute, hPlace, hSlash, hOther⟩ := fileTarget_eq_ok_iff.1 hTarget
  refine fileTarget_eq_ok_iff.2 ⟨route, hRoute, walk_put hFile bytes hPlace, hSlash, ?_⟩
  rwa [ne_eq, entry?_put_eq_directory_iff hFile]

/-- A file is found where it could be written anew. -/
theorem find_eq_file_iff :
    fs.find path = .ok (.file bytes) ↔
      ∃ place, fs.fileTarget path = .ok place ∧ fs.entry? place = some (.file bytes) := by
  simp only [find, bind_eq_ok_iff, fileTarget_eq_ok_iff]
  constructor
  · rintro ⟨route, hRoute, place, hPlace, hEntry⟩
    cases hHere : fs.entry? place with
    | none =>
      rw [hHere] at hEntry
      cases hEntry
    | some entry =>
      rw [hHere] at hEntry
      cases entry with
      | directory => cases hEntry
      | file there =>
        dsimp only at hEntry
        split at hEntry
        · cases hEntry
        · rename_i hSlash
          cases hEntry
          -- A path with a slash at its end means a directory, so there is none.
          refine ⟨place, ⟨route, hRoute, hPlace, Bool.eq_false_iff.2 hSlash, ?_⟩, hHere⟩
          simp [hHere]
  · rintro ⟨place, ⟨route, hRoute, hPlace, hSlash, -⟩, hEntry⟩
    refine ⟨route, hRoute, place, hPlace, ?_⟩
    rw [hEntry]
    dsimp only
    rw [if_neg (Bool.eq_false_iff.1 hSlash)]

/-- A file can be read if its path leads to one. -/
theorem read_eq_ok_iff :
    fs.read path = .ok bytes ↔
      ∃ place, fs.fileTarget path = .ok place ∧ fs.entry? place = some (.file bytes) := by
  rw [← find_eq_file_iff, read, bind_eq_ok_iff]
  constructor
  · rintro ⟨entry, hFind, hEntry⟩
    cases entry with
    | directory => cases hEntry
    | file there =>
      cases hEntry
      exact hFind
  · intro hFind
    exact ⟨_, hFind, rfl⟩

/-! ## What a device takes -/

/-- The device takes all of these bytes. -/
def Fits (fs : FileSystem) (bytes : List UInt8) : Prop :=
  ∀ limit, fs.limit = some limit → bytes.length ≤ limit.room

/-- The device takes this part of the bytes, and then stops with this fault. -/
def Stops (fs : FileSystem) (bytes : List UInt8) (fault : Fault) (part : List UInt8) : Prop :=
  ∃ limit, fs.limit = some limit ∧ limit.room < bytes.length ∧ fault = limit.fault ∧
    part = bytes.take limit.room

/-- Nothing always fits. -/
theorem fits_nil (fs : FileSystem) : fs.Fits [] := fun _ _ => Nat.zero_le _

/-- A device takes all of the bytes, or stops after a part. -/
theorem fits_or_stops (fs : FileSystem) (bytes : List UInt8) :
    fs.Fits bytes ∨ ∃ fault part, fs.Stops bytes fault part := by
  cases hLimit : fs.limit with
  | none =>
    refine .inl fun limit hSome => ?_
    rw [hLimit] at hSome
    cases hSome
  | some limit =>
    by_cases hRoom : bytes.length ≤ limit.room
    · refine .inl fun other hSome => ?_
      rw [hLimit] at hSome
      cases hSome
      exact hRoom
    · exact .inr ⟨_, _, limit, hLimit, Nat.lt_of_not_le hRoom, rfl, rfl⟩

theorem accept_of_fits (hFits : fs.Fits bytes) : fs.accept bytes = (.ok (), bytes) := by
  rw [accept]
  cases hLimit : fs.limit with
  | none => rfl
  | some limit =>
    have hRoom := hFits limit hLimit
    dsimp only
    rw [if_pos hRoom, List.take_of_length_le hRoom]

/-- Of bytes that do not fit the device takes what it has room for, and reports its fault. -/
theorem accept_of_stops {fault : Fault} {part : List UInt8} (hStops : fs.Stops bytes fault part) :
    fs.accept bytes = (.error fault, part) := by
  obtain ⟨limit, hLimit, hRoom, rfl, rfl⟩ := hStops
  rw [accept, hLimit]
  dsimp only
  rw [if_neg (Nat.not_le_of_lt hRoom)]

/-- What was taken when the device stopped is not all of it. -/
theorem Stops.isPrefix {fault : Fault} {part : List UInt8} (hStops : fs.Stops bytes fault part) :
    part <+: bytes ∧ part.length < bytes.length := by
  obtain ⟨limit, -, hRoom, -, rfl⟩ := hStops
  refine ⟨List.take_prefix _ _, ?_⟩
  rw [List.length_take]
  exact Nat.lt_of_le_of_lt (Nat.min_le_left _ _) hRoom

/-! ## Writing -/

/-- What writing a file comes to, and what it leaves. -/
inductive Writing (fs : FileSystem) (path : String) (bytes : List UInt8) :
    Except Fault Unit → FileSystem → Prop
  | nowhere {fault : Fault} (hTarget : fs.fileTarget path = .error fault) :
      Writing fs path bytes (.error fault) fs
  | stopped {place : Place} {fault : Fault} {part : List UInt8}
      (hTarget : fs.fileTarget path = .ok place) (hStops : fs.Stops bytes fault part) :
      Writing fs path bytes (.error fault) (fs.put place (.file part))
  | written {place : Place} (hTarget : fs.fileTarget path = .ok place) (hFits : fs.Fits bytes) :
      Writing fs path bytes (.ok ()) (fs.put place (.file bytes))

/-- **Every write comes to one of the three.** -/
theorem writing_write (fs : FileSystem) (path : String) (bytes : List UInt8) :
    Writing fs path bytes (fs.write path bytes).1 (fs.write path bytes).2 := by
  rw [write]
  cases hTarget : fs.fileTarget path with
  | error fault => exact .nowhere hTarget
  | ok place =>
    dsimp only
    rcases fs.fits_or_stops bytes with hFits | ⟨fault, part, hStops⟩
    · rw [accept_of_fits hFits]
      exact .written hTarget hFits
    · rw [accept_of_stops hStops]
      exact .stopped hTarget hStops

/-- A write at a place leaves there what the device took, whether or not that was all. -/
theorem write_of_fileTarget (hTarget : fs.fileTarget path = .ok place) (bytes : List UInt8) :
    fs.write path bytes = ((fs.accept bytes).1, fs.put place (.file (fs.accept bytes).2)) := by
  rw [write, hTarget]

theorem write_of_fileTarget_error {fault : Fault} (hTarget : fs.fileTarget path = .error fault)
    (bytes : List UInt8) : fs.write path bytes = (.error fault, fs) := by
  rw [write, hTarget]

/-- A write comes to one thing only. -/
theorem Writing.write_eq {result : Except Fault Unit} {after : FileSystem}
    (hWriting : Writing fs path bytes result after) : fs.write path bytes = (result, after) := by
  cases hWriting with
  | nowhere hTarget => exact write_of_fileTarget_error hTarget bytes
  | stopped hTarget hStops => rw [write_of_fileTarget hTarget, accept_of_stops hStops]
  | written hTarget hFits => rw [write_of_fileTarget hTarget, accept_of_fits hFits]

/-- **Nothing changes elsewhere**, whatever comes of a write. -/
theorem Writing.elsewhere {result : Except Fault Unit} {after : FileSystem}
    (hWriting : Writing fs path bytes result after) {other : Place}
    (hOther : fs.fileTarget path ≠ .ok other) :
    FileSystem.entry? after other = fs.entry? other := by
  cases hWriting with
  | nowhere hTarget => rfl
  | stopped hTarget _ | written hTarget _ =>
    have hFile := file_of_fileTarget hTarget
    rw [entry?_put (ne_root_of_file hFile), if_neg]
    rintro rfl
    exact hOther hTarget

/-- A file that was put at a place is read by every path that led there. -/
theorem read_put_self (hTarget : fs.fileTarget path = .ok place) (bytes : List UInt8) :
    (fs.put place (.file bytes)).read path = .ok bytes := by
  have hFile := file_of_fileTarget hTarget
  refine read_eq_ok_iff.2 ⟨place, fileTarget_put hFile bytes hTarget, ?_⟩
  rw [entry?_put (ne_root_of_file hFile), if_pos rfl]

/-- The files elsewhere hold what they held. -/
theorem read_put_of_ne (hFile : fs.entry? place ≠ some .directory) {other : Place}
    (hOther : other ≠ place) {before : List UInt8} (hTarget : fs.fileTarget path = .ok other)
    (hEntry : fs.entry? other = some (.file before)) (bytes : List UInt8) :
    (fs.put place (.file bytes)).read path = .ok before := by
  refine read_eq_ok_iff.2 ⟨other, fileTarget_put hFile bytes hTarget, ?_⟩
  rw [entry?_put (ne_root_of_file hFile), if_neg hOther, hEntry]

/-- Every file at another place holds what it held. -/
theorem Writing.read_of_ne {result : Except Fault Unit} {after : FileSystem}
    (hWriting : Writing fs path bytes result after) {other : String} {before : List UInt8}
    (hOther : fs.fileTarget other ≠ fs.fileTarget path) (hRead : fs.read other = .ok before) :
    after.read other = .ok before := by
  obtain ⟨there, hThere, hEntry⟩ := read_eq_ok_iff.1 hRead
  cases hWriting with
  | nowhere _ => exact hRead
  | stopped hTarget _ | written hTarget _ =>
    refine read_put_of_ne (file_of_fileTarget hTarget) ?_ hThere hEntry _
    rintro rfl
    rw [hThere, hTarget] at hOther
    exact hOther rfl

/-- What a write leaves that was not completed: all as it was, or a part of the bytes. -/
theorem Writing.of_error {fault : Fault} {after : FileSystem}
    (hWriting : Writing fs path bytes (.error fault) after) :
    after = fs ∨ ∃ part, part <+: bytes ∧ part.length < bytes.length ∧
      after.read path = .ok part := by
  cases hWriting with
  | nowhere _ => exact .inl rfl
  | stopped hTarget hStops =>
    obtain ⟨hPrefix, hLess⟩ := hStops.isPrefix
    exact .inr ⟨_, hPrefix, hLess, read_put_self hTarget _⟩

/-- A write that was completed leaves the bytes. -/
theorem Writing.read_of_ok {after : FileSystem} (hWriting : Writing fs path bytes (.ok ()) after) :
    after.read path = .ok bytes := by
  cases hWriting with
  | written hTarget _ => exact read_put_self hTarget bytes

/-! ## Copying -/

/-- **What a copy comes to**: the target takes what the source holds once the target is empty, as
    far as the device takes it. -/
theorem copy_of_fileTarget {source target : String} {origin goal : Place}
    (hSource : fs.fileTarget source = .ok origin) (hHeld : fs.entry? origin = some (.file bytes))
    (hTarget : fs.fileTarget target = .ok goal) :
    let carried := if origin = goal then [] else bytes
    fs.copy source target =
      ((fs.accept carried).1.map fun _ => carried.length,
        fs.put goal (.file (fs.accept carried).2)) := by
  intro carried
  have hGoal := file_of_fileTarget hTarget
  -- The target is opened before the source is read, and so it is empty by then if it is the source.
  have hEmptied : fs.write target [] = (.ok (), fs.put goal (.file [])) := by
    rw [write_of_fileTarget hTarget, accept_of_fits fs.fits_nil]
  have hRead : (fs.put goal (.file [])).read source = .ok carried := by
    show _ = Except.ok (if origin = goal then [] else bytes)
    split
    · rename_i hSame
      exact read_put_self (hSame ▸ hSource) []
    · rename_i hApart
      exact read_put_of_ne hGoal hApart hSource hHeld []
  have hAgain := fileTarget_put hGoal [] hTarget
  simp only [copy, find_eq_file_iff.2 ⟨origin, hSource, hHeld⟩, hEmptied, hRead,
    write_of_fileTarget hAgain, put_put]
  rfl

/-- **A copy changes nothing but its target**, whatever comes of it. -/
theorem copy_elsewhere {source target : String} {other : Place}
    (hOther : fs.fileTarget target ≠ .ok other) :
    FileSystem.entry? (fs.copy source target).2 other = fs.entry? other := by
  rw [copy]
  cases hSource : fs.find source with
  | error fault => rfl
  | ok entry =>
    cases entry with
    | directory => rfl
    | file bytes =>
      cases hTarget : fs.fileTarget target with
      | error fault =>
        dsimp only
        rw [write_of_fileTarget_error hTarget]
      | ok goal =>
        have hGoal := file_of_fileTarget hTarget
        have hEmptied := (writing_write fs target []).elsewhere hOther
        dsimp only
        rw [write_of_fileTarget hTarget, accept_of_fits fs.fits_nil] at hEmptied ⊢
        dsimp only at hEmptied ⊢
        cases (fs.put goal (.file [])).read source with
        | error fault => exact hEmptied
        | ok carried =>
          -- The second write is to the same place as the first.
          have hAgain := fileTarget_put hGoal [] hTarget
          rw [hTarget, ← hAgain] at hOther
          exact ((writing_write _ target carried).elsewhere hOther).trans hEmptied

end Lineage.Device.FileSystem
