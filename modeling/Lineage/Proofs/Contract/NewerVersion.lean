/-
  What becomes of the selection when a newer version is wanted.

  One would expect that a newer version never gets what was kept for an older candidate.  Up to one
  case it is so: the candidates on either side of a wanted version bound the choice, and as the
  wanted version rises so do its bounds (`compare_ne_of_picked`).  Where both wanted versions lie
  between the same two ADJACENT candidates, the bounds say nothing, and the choice between the two
  goes by the text.  There `1.90` shares more with `1.9` than with `1.100`, though `1.10` goes the
  other way.  Two versions CROSS if the older one takes the high candidate and the newer one the
  low one; they do so in this case and in no other (`picked_falls_iff_crosses`).

  What is selected is what is kept for a candidate.  To speak of the candidate itself, each is kept
  under its own version (`picked`).
-/
import Lineage.Proofs.Contract.Nearest

namespace Lineage.Version

variable {β γ : Type} {wanted a b : String} {candidates : List (String × β)}
  {c d low high older newer : String × β}

/-! ## What is kept has no part in it -/

section Relabelled

variable {relabel : String × β → String × γ} (hVersion : ∀ c, (relabel c).1 = c.1)

include hVersion

/-- What is kept for the candidates has no part in which of them count. -/
theorem IsEarliest.map (hEarliest : IsEarliest candidates c) :
    IsEarliest (candidates.map relabel) (relabel c) := by
  obtain ⟨before, behind, rfl, hBefore⟩ := hEarliest
  refine ⟨before.map relabel, behind.map relabel, by simp, ?_⟩
  intro d hMem
  obtain ⟨e, hBefore', rfl⟩ := List.mem_map.1 hMem
  rw [hVersion, hVersion]
  exact hBefore e hBefore'

theorem IsExact.map (hExact : IsExact wanted candidates c) :
    IsExact wanted (candidates.map relabel) (relabel c) where
  equal := by rw [hVersion]; exact hExact.equal
  earliest := hExact.earliest.map hVersion

/-- A neighbour stays one. -/
theorem IsNeighbour.map {side : Ordering} (hNeighbour : IsNeighbour side wanted candidates c) :
    IsNeighbour side wanted (candidates.map relabel) (relabel c) where
  here := by rw [hVersion]; exact hNeighbour.here
  closest := by
    intro d hMem hHere
    obtain ⟨e, hCandidate, rfl⟩ := List.mem_map.1 hMem
    rw [hVersion] at hHere
    rw [hVersion, hVersion]
    exact hNeighbour.closest e hCandidate hHere
  earliest := hNeighbour.earliest.map hVersion

/-- **What is kept for the candidates has no part in the selection.** -/
theorem Selects.map (keep : β → γ) (hKeep : ∀ c, (relabel c).2 = keep c.2) {answer : Option β}
    (hSelects : Selects wanted candidates answer) :
    Selects wanted (candidates.map relabel) (answer.map keep) := by
  have hEach : ∀ p : Ordering → Prop, (∀ d ∈ candidates, p (compare d.1 wanted)) →
      ∀ d ∈ candidates.map relabel, p (compare d.1 wanted) := by
    intro p hAll d hMem
    obtain ⟨e, hCandidate, rfl⟩ := List.mem_map.1 hMem
    rw [hVersion]
    exact hAll e hCandidate
  -- The rule looks at nothing but the versions, and those are the same in each case.
  cases hSelects with
  | nothing hNone => exact .nothing (by rw [hNone, List.map_nil])
  | exact hExact =>
    rw [Option.map_some, ← hKeep]
    exact .exact (hExact.map hVersion)
  | oneSided hSide hNeighbour hAll =>
    rw [Option.map_some, ← hKeep]
    exact .oneSided hSide (hNeighbour.map hVersion) (hEach (· = _) hAll)
  | high hOther hLow hHigh hNearer =>
    rw [Option.map_some, ← hKeep]
    refine .high (hEach (· ≠ .eq) hOther) (hLow.map hVersion) (hHigh.map hVersion) ?_
    rwa [hVersion, hVersion]
  | low hOther hLow hHigh hNearer =>
    rw [Option.map_some, ← hKeep]
    refine .low (hEach (· ≠ .eq) hOther) (hLow.map hVersion) (hHigh.map hVersion) ?_
    rwa [hVersion, hVersion]

end Relabelled

/-! ## The candidate itself -/

/-- A candidate, kept under its own version. -/
def underOwn (c : String × β) : String × String × β := (c.1, c)

/-- Candidates that carry themselves along, so that an answer says which of them it is from. -/
def selfKept (candidates : List (String × β)) : List (String × String × β) :=
  candidates.map underOwn

/-- The candidate that is picked for a wanted version. -/
def picked (wanted : String) (candidates : List (String × β)) : Option (String × β) :=
  nearest wanted (selfKept candidates)

/-- A version with what is kept for the candidate under it. -/
def released (kept : String × String × β) : String × β := (kept.1, kept.2.2)

theorem fst_underOwn (c : String × β) : (underOwn c).1 = c.1 := rfl

theorem fst_released (kept : String × String × β) : (released kept).1 = kept.1 := rfl

theorem released_of_mem {kept : String × String × β} (hMem : kept ∈ selfKept candidates) :
    released kept = kept.2 := by
  obtain ⟨c, -, rfl⟩ := List.mem_map.1 hMem
  rfl

theorem map_released_selfKept (candidates : List (String × β)) :
    (selfKept candidates).map released = candidates := by
  rw [selfKept, List.map_map]
  exact List.map_id _

/-- What is selected is what is kept for the candidate that is picked. -/
theorem nearest_eq_map_picked (wanted : String) (candidates : List (String × β)) :
    nearest wanted candidates = (picked wanted candidates).map Prod.snd := by
  have hSelects := selects_nearest wanted (selfKept candidates)
  have hKept := hSelects.map fst_released Prod.snd fun _ => rfl
  rw [map_released_selfKept] at hKept
  exact hKept.nearest_eq

/-- Something is picked wherever there is a candidate. -/
theorem picked_eq_none_iff : picked wanted candidates = none ↔ candidates = [] := by
  have hSelects := selects_nearest wanted (selfKept candidates)
  rw [← picked] at hSelects
  constructor
  · intro hNone
    rw [hNone] at hSelects
    cases hSelects with
    | nothing hEmpty => exact List.map_eq_nil_iff.1 hEmpty
  · rintro rfl
    rfl

theorem IsExact.released {kept : String × String × β}
    (hExact : IsExact wanted (selfKept candidates) kept) : IsExact wanted candidates kept.2 := by
  have hOwn := hExact.map fst_released
  rwa [map_released_selfKept, released_of_mem hExact.earliest.mem] at hOwn

theorem IsNeighbour.released {side : Ordering} {kept : String × String × β}
    (hNeighbour : IsNeighbour side wanted (selfKept candidates) kept) :
    IsNeighbour side wanted candidates kept.2 := by
  have hOwn := hNeighbour.map fst_released
  rwa [map_released_selfKept, released_of_mem hNeighbour.earliest.mem] at hOwn

theorem IsNeighbour.selfKept {side : Ordering} (hNeighbour : IsNeighbour side wanted candidates c) :
    IsNeighbour side wanted (selfKept candidates) (underOwn c) :=
  hNeighbour.map fst_underOwn

/-! ## Bounds -/

/-- A candidate that is picked is the exact one, or a neighbour where none is exact. -/
theorem picked_cases (hPicked : picked wanted candidates = some c) :
    IsExact wanted candidates c ∨
      ∃ side, side ≠ .eq ∧ IsNeighbour side wanted candidates c ∧
        ∀ d ∈ candidates, compare d.1 wanted ≠ .eq := by
  have hSelects := selects_nearest wanted (selfKept candidates)
  rw [← picked, hPicked] at hSelects
  have hEach : (∀ kept ∈ selfKept candidates, compare kept.1 wanted ≠ .eq) →
      ∀ d ∈ candidates, compare d.1 wanted ≠ .eq := fun hOther d hMem =>
    hOther (d.1, d) (List.mem_map_of_mem hMem)
  cases hSelects with
  | exact hExact => exact .inl hExact.released
  | oneSided hSide hNeighbour hAll =>
    right
    refine ⟨_, hSide, hNeighbour.released, hEach fun kept hMem => ?_⟩
    rw [hAll kept hMem]
    exact hSide
  | high hOther hLow hHigh hNearer =>
    right
    exact ⟨.gt, by decide, hHigh.released, hEach hOther⟩
  | low hOther hLow hHigh hNearer =>
    right
    exact ⟨.lt, by decide, hLow.released, hEach hOther⟩

/-- The candidate that is picked is the first of its version. -/
theorem isEarliest_of_picked (hPicked : picked wanted candidates = some c) :
    IsEarliest candidates c := by
  rcases picked_cases hPicked with hExact | ⟨own, -, hNeighbour, -⟩
  · exact hExact.earliest
  · exact hNeighbour.earliest

/-- **The choice is bounded**: if the candidate that is picked does not lie beyond the wanted
    version, then it does not lie short of any other candidate that does not. -/
theorem compare_ne_of_picked (hPicked : picked wanted candidates = some c) {side : Ordering}
    (hSide : side ≠ .eq) (hHere : compare c.1 wanted ≠ side) (hMem : d ∈ candidates)
    (hThere : compare d.1 wanted ≠ side) : compare d.1 c.1 ≠ side := by
  rcases picked_cases hPicked with hExact | ⟨own, hOwn, hNeighbour, hOther⟩
  · rwa [Std.TransCmp.congr_right hExact.equal]
  · -- Both lie on the other side of the wanted version.
    have hSides : ∀ first second third : Ordering, first ≠ .eq → second ≠ .eq → third ≠ .eq →
        second ≠ first → third ≠ first → third = second ∧ second.swap = first := by decide
    have hClosest := hNeighbour.closest d hMem
    rw [hNeighbour.here] at hHere
    obtain ⟨hSame, hSwap⟩ := hSides side own _ hSide hOwn (hOther d hMem) hHere hThere
    rw [hSwap] at hClosest
    exact hClosest hSame

/-! ## Between two adjacent candidates -/

/-- No candidate lies between these two, and each of them is the earliest of its version. -/
structure Adjacent (candidates : List (String × β)) (low high : String × β) : Prop where
  lowEarliest : IsEarliest candidates low
  highEarliest : IsEarliest candidates high
  nothingBetween : ∀ d ∈ candidates, compare low.1 d.1 = .lt → compare d.1 high.1 ≠ .lt

namespace Adjacent

variable (hAdjacent : Adjacent candidates low high) (hBelow : compare low.1 wanted = .lt)
  (hAbove : compare wanted high.1 = .lt)

include hAdjacent hBelow hAbove

theorem isNeighbour_low : IsNeighbour .lt wanted candidates low where
  here := hBelow
  closest := by
    intro d hMem hUnder hOver
    refine hAdjacent.nothingBetween d hMem (Std.OrientedCmp.lt_of_gt hOver) ?_
    exact Std.TransCmp.lt_trans hUnder hAbove
  earliest := hAdjacent.lowEarliest

theorem isNeighbour_high : IsNeighbour .gt wanted candidates high where
  here := Std.OrientedCmp.gt_of_lt hAbove
  closest := by
    intro d hMem hOver hUnder
    refine hAdjacent.nothingBetween d hMem ?_ hUnder
    exact Std.TransCmp.lt_trans hBelow (Std.OrientedCmp.lt_of_gt hOver)
  earliest := hAdjacent.highEarliest

/-- None is exact, also if each is kept under its own version. -/
theorem compare_ne_eq {kept : String × String × β} (hMem : kept ∈ selfKept candidates) :
    compare kept.1 wanted ≠ .eq := by
  obtain ⟨d, hCandidate, rfl⟩ := List.mem_map.1 hMem
  intro hEqual
  rw [fst_underOwn] at hEqual
  refine hAdjacent.nothingBetween d hCandidate ?_ ?_
  · rwa [Std.TransCmp.congr_right hEqual]
  · rwa [Std.TransCmp.congr_left hEqual]

/-- **Between adjacent candidates the text decides**: it takes the nearer one, and the low one if
    neither is. -/
theorem picked_of_nearer
    (hNearer : Nearer (Utf8.encode wanted) (Utf8.encode high.1) (Utf8.encode low.1)) :
    picked wanted candidates = some high :=
  Selects.nearest_eq <| .high (fun _ => hAdjacent.compare_ne_eq hBelow hAbove)
    (hAdjacent.isNeighbour_low hBelow hAbove).selfKept
    (hAdjacent.isNeighbour_high hBelow hAbove).selfKept hNearer

/-- Unless the higher one is nearer, the lower one is picked. -/
theorem picked_of_not_nearer
    (hNearer : ¬ Nearer (Utf8.encode wanted) (Utf8.encode high.1) (Utf8.encode low.1)) :
    picked wanted candidates = some low :=
  Selects.nearest_eq <| .low (fun _ => hAdjacent.compare_ne_eq hBelow hAbove)
    (hAdjacent.isNeighbour_low hBelow hAbove).selfKept
    (hAdjacent.isNeighbour_high hBelow hAbove).selfKept hNearer

end Adjacent

/-! ## Two wanted versions -/

/-- Two wanted versions between the same two adjacent candidates **cross** if by its text the first
    one is nearer to the high candidate, and the second one is not. -/
structure Crosses (a b : String) (candidates : List (String × β)) (low high : String × β) :
    Prop where
  adjacent : Adjacent candidates low high
  below : compare low.1 a = .lt
  above : compare b high.1 = .lt
  firstToHigh : Nearer (Utf8.encode a) (Utf8.encode high.1) (Utf8.encode low.1)
  secondToLow : ¬ Nearer (Utf8.encode b) (Utf8.encode high.1) (Utf8.encode low.1)

/-- Versions that cross take the two candidates the wrong way round. -/
theorem Crosses.picked_eq (hCrosses : Crosses a b candidates low high)
    (hOlder : compare a b ≠ .gt) :
    picked a candidates = some high ∧ picked b candidates = some low := by
  have hOlder := Ordering.isLE_iff_ne_gt.2 hOlder
  refine ⟨hCrosses.adjacent.picked_of_nearer hCrosses.below ?_ hCrosses.firstToHigh,
    hCrosses.adjacent.picked_of_not_nearer ?_ hCrosses.above hCrosses.secondToLow⟩
  · exact Std.TransCmp.lt_of_isLE_of_lt hOlder hCrosses.above
  · exact Std.TransCmp.lt_of_lt_of_isLE hCrosses.below hOlder

/-- **If the newer version gets an older candidate, then the two cross.** -/
theorem crosses_of_picked (hOlder : compare a b ≠ .gt) (hFirst : picked a candidates = some older)
    (hSecond : picked b candidates = some newer) (hFalls : compare older.1 newer.1 = .gt) :
    Crosses a b candidates newer older := by
  have hRises := Ordering.isLE_iff_ne_gt.2 hOlder
  have hSwapped : compare newer.1 older.1 = .lt := Std.OrientedCmp.lt_of_gt hFalls
  have hOlderMem : older ∈ candidates := (isEarliest_of_picked hFirst).mem
  have hNewerMem : newer ∈ candidates := (isEarliest_of_picked hSecond).mem
  -- The older version takes a candidate above itself: one below it would bound the newer one.
  have hUp : compare older.1 a = .gt := by
    by_contra hNot
    have hUnder : compare older.1 b ≠ .gt :=
      Ordering.isLE_iff_ne_gt.1 (Std.TransCmp.isLE_trans (Ordering.isLE_iff_ne_gt.2 hNot) hRises)
    by_cases hAbove : compare newer.1 b = .gt
    · have hBefore : compare older.1 newer.1 = .lt :=
        Std.TransCmp.lt_of_isLE_of_lt (Ordering.isLE_iff_ne_gt.2 hUnder)
          (Std.OrientedCmp.lt_of_gt hAbove)
      rw [hFalls] at hBefore
      cases hBefore
    · exact compare_ne_of_picked hSecond (by decide) hAbove hOlderMem hUnder hFalls
  have hHere : compare older.1 a ≠ .lt := by rw [hUp]; decide
  have hBelow : compare newer.1 a = .lt := by
    by_contra hNot
    exact compare_ne_of_picked hFirst (by decide) hHere hNewerMem hNot hSwapped
  have hThere : compare newer.1 b ≠ .gt :=
    Ordering.isLE_iff_ne_gt.1 (Std.TransCmp.isLE_trans (Ordering.isLE_of_eq_lt hBelow) hRises)
  have hAbove : compare b older.1 = .lt := by
    refine Std.OrientedCmp.lt_of_gt ?_
    by_contra hNot
    exact compare_ne_of_picked hSecond (by decide) hThere hOlderMem hNot hFalls
  have hAdjacent : Adjacent candidates newer older := by
    refine ⟨isEarliest_of_picked hSecond, isEarliest_of_picked hFirst, ?_⟩
    intro d hMem hOver hUnder
    by_cases hFirstSide : compare d.1 a = .lt
    · have hShort : compare d.1 b ≠ .gt :=
        Ordering.isLE_iff_ne_gt.1
          (Std.TransCmp.isLE_trans (Ordering.isLE_of_eq_lt hFirstSide) hRises)
      exact compare_ne_of_picked hSecond (by decide) hThere hMem hShort
        (Std.OrientedCmp.gt_of_lt hOver)
    · exact compare_ne_of_picked hFirst (by decide) hHere hMem hFirstSide hUnder
  -- Between the two the text has decided, and it has not taken the other one.
  have hApart : older ≠ newer := by
    rintro rfl
    have hSelf : compare older.1 older.1 = .eq := Std.ReflCmp.compare_self
    rw [hFalls] at hSelf
    cases hSelf
  refine ⟨hAdjacent, hBelow, hAbove, ?_, ?_⟩
  · by_contra hNot
    have hLow := hAdjacent.picked_of_not_nearer hBelow (Std.OrientedCmp.lt_of_gt hUp) hNot
    rw [hFirst] at hLow
    exact hApart (Option.some.inj hLow)
  · intro hNearer
    have hOver : compare newer.1 b = .lt := Std.TransCmp.lt_of_lt_of_isLE hBelow hRises
    have hHigh := hAdjacent.picked_of_nearer hOver hAbove hNearer
    rw [hSecond] at hHigh
    exact hApart (Option.some.inj hHigh).symm

/-- **A newer version gets no older candidate, unless the two versions cross.**  What is selected is
    what is kept for the candidate that is picked, and one is picked unless there are none.  Of two
    wanted versions, the second one not older than the first, the second one is given the lower
    candidate if and only if they cross at the two candidates; and where two versions cross, the
    first one takes the high candidate and the second one the low one. -/
theorem picked_falls_iff_crosses (candidates : List (String × β)) {a b : String}
    (hOlder : compare a b ≠ .gt) :
    (∀ wanted, nearest wanted candidates = (picked wanted candidates).map Prod.snd ∧
      (picked wanted candidates = none ↔ candidates = [])) ∧
    (∀ older newer, picked a candidates = some older → picked b candidates = some newer →
      (compare older.1 newer.1 = .gt ↔ Crosses a b candidates newer older)) ∧
    ∀ low high, Crosses a b candidates low high →
      picked a candidates = some high ∧ picked b candidates = some low := by
  refine ⟨fun wanted => ⟨nearest_eq_map_picked wanted candidates, picked_eq_none_iff⟩, ?_,
    fun low high hCrosses => hCrosses.picked_eq hOlder⟩
  intro older newer hFirst hSecond
  constructor
  · exact crosses_of_picked hOlder hFirst hSecond
  · intro hCrosses
    have hBelow : compare newer.1 b = .lt :=
      Std.TransCmp.lt_of_lt_of_isLE hCrosses.below (Ordering.isLE_iff_ne_gt.2 hOlder)
    exact Std.OrientedCmp.gt_of_lt (Std.TransCmp.lt_trans hBelow hCrosses.above)

/-- One release before the minor version went to three digits, and one after. -/
def digitCounts : List (String × String) := [("1.9", "User"), ("1.100", "User?")]

/-- By their texts `1.10` belongs to `1.100`, and `1.90` to `1.9`. -/
theorem picked_falls_iff_crosses_digitCounts :
    compare "1.10" "1.90" ≠ .gt ∧ picked "1.10" digitCounts = some ("1.100", "User?") ∧
      picked "1.90" digitCounts = some ("1.9", "User") ∧
      Crosses "1.10" "1.90" digitCounts ("1.9", "User") ("1.100", "User?") := by
  have hOlder : compare "1.10" "1.90" ≠ .gt := by decide
  have hFirst : picked "1.10" digitCounts = some ("1.100", "User?") := by decide
  have hSecond : picked "1.90" digitCounts = some ("1.9", "User") := by decide
  have hFalls : compare "1.100" "1.9" = .gt := by decide
  obtain ⟨-, hCrosses, -⟩ := picked_falls_iff_crosses digitCounts hOlder
  exact ⟨hOlder, hFirst, hSecond, (hCrosses _ _ hFirst hSecond).1 hFalls⟩

/-- So the candidates that are picked do not rise with the wanted version. -/
theorem not_forall_picked_rises :
    ¬ ∀ (candidates : List (String × String)) (a b : String) (older newer : String × String),
      compare a b ≠ .gt → picked a candidates = some older → picked b candidates = some newer →
        compare older.1 newer.1 ≠ .gt := by
  intro hRises
  refine hRises digitCounts "1.10" "1.90" ("1.100", "User?") ("1.9", "User") ?_ ?_ ?_ ?_ <;> decide

end Lineage.Version
