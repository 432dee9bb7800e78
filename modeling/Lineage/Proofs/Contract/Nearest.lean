/-
  Which candidate is the nearest.

  The candidates are pairs of a version and what is kept for it, and several of them may have one
  version in different spellings.  Three of them count: the earliest of the wanted version
  (`IsExact`), and on either side of it the earliest of the version next to it (`IsNeighbour`).
  Without an exact one the two neighbours compete by their texts: the high one wins if it is
  `Nearer`, that is if it shares more leading bytes with the wanted version, or equally many but at
  least one, with the next byte nearer to the wanted one.

  `Selects` lists the cases, and `nearest_eq_iff` says that they are what is selected.  The scan for
  a neighbour keeps the best candidate so far and replaces it only by a better one; so what it ends
  with is no worse than any, and better than all before it (`best_eq_some`).
-/
import Lineage.Proofs.Contract.VersionOrder
import Mathlib.Data.List.Induction
import Mathlib.Data.Nat.Dist

namespace Lineage.Version

variable {β : Type} {wanted : String} {candidates : List (String × β)} {c d : String × β}

/-! ## The candidates that count -/

/-- A candidate before which none has an equal version. -/
def IsEarliest (candidates : List (String × β)) (c : String × β) : Prop :=
  ∃ before behind, candidates = before ++ c :: behind ∧ ∀ d ∈ before, compare d.1 c.1 ≠ .eq

/-- The first candidate whose version is equal to the wanted one. -/
structure IsExact (wanted : String) (candidates : List (String × β)) (c : String × β) : Prop where
  equal : compare c.1 wanted = .eq
  earliest : IsEarliest candidates c

/-- The neighbour of the wanted version on one side, `.lt` for the side below and `.gt` for the one
    above: of the candidates there none is closer, and so none lies between. -/
structure IsNeighbour (side : Ordering) (wanted : String) (candidates : List (String × β))
    (c : String × β) : Prop where
  here : compare c.1 wanted = side
  closest : ∀ d ∈ candidates, compare d.1 wanted = side → compare d.1 c.1 ≠ side.swap
  earliest : IsEarliest candidates c

/-- The longest beginning that two texts have in common. -/
structure IsSharedPrefix (shared a b : List UInt8) : Prop where
  left : shared <+: a
  right : shared <+: b
  longest : ∀ other, other <+: a → other <+: b → other.length ≤ shared.length

/-- `first` is nearer to `wanted` than `second`: it shares more with it, or as much but something,
    and all three go on, with the next byte of `first` less far away. -/
def Nearer (wanted first second : List UInt8) : Prop :=
  ∃ p q, IsSharedPrefix p wanted first ∧ IsSharedPrefix q wanted second ∧
    (q.length < p.length ∨
      p.length = q.length ∧ p ≠ [] ∧ ∃ w f s, wanted[p.length]? = some w ∧
        first[p.length]? = some f ∧ second[p.length]? = some s ∧
        Nat.dist w.toNat f.toNat < Nat.dist w.toNat s.toNat)

/-- What is selected for a wanted version. -/
inductive Selects (wanted : String) (candidates : List (String × β)) : Option β → Prop where
  | nothing (hNone : candidates = []) : Selects wanted candidates none
  | exact {c : String × β} (hExact : IsExact wanted candidates c) :
      Selects wanted candidates (some c.2)
  | oneSided {side : Ordering} {c : String × β} (hSide : side ≠ .eq)
      (hNeighbour : IsNeighbour side wanted candidates c)
      (hAll : ∀ d ∈ candidates, compare d.1 wanted = side) : Selects wanted candidates (some c.2)
  | high {low high : String × β} (hOther : ∀ d ∈ candidates, compare d.1 wanted ≠ .eq)
      (hLow : IsNeighbour .lt wanted candidates low)
      (hHigh : IsNeighbour .gt wanted candidates high)
      (hNearer : Nearer (Utf8.encode wanted) (Utf8.encode high.1) (Utf8.encode low.1)) :
      Selects wanted candidates (some high.2)
  | low {low high : String × β} (hOther : ∀ d ∈ candidates, compare d.1 wanted ≠ .eq)
      (hLow : IsNeighbour .lt wanted candidates low)
      (hHigh : IsNeighbour .gt wanted candidates high)
      (hNearer : ¬ Nearer (Utf8.encode wanted) (Utf8.encode high.1) (Utf8.encode low.1)) :
      Selects wanted candidates (some low.2)

theorem IsEarliest.mem (hEarliest : IsEarliest candidates c) : c ∈ candidates := by
  obtain ⟨before, behind, rfl, -⟩ := hEarliest
  exact List.mem_append_right _ List.mem_cons_self

/-- Of one version one candidate is the earliest. -/
theorem IsEarliest.unique (hc : IsEarliest candidates c) (hd : IsEarliest candidates d)
    (hEqual : compare c.1 d.1 = .eq) : c = d := by
  obtain ⟨before, behind, hSplit, hBefore⟩ := hc
  obtain ⟨others, rest, hOther, hOthers⟩ := hd
  rw [hSplit, List.append_eq_append_iff] at hOther
  rcases hOther with ⟨between, hLonger, hBehind⟩ | ⟨between, hLonger, hBehind⟩
  · cases between with
    | nil => exact (List.cons.inj hBehind).1
    | cons first _ =>
      -- `c` stands before `d`.
      obtain ⟨rfl, -⟩ := List.cons.inj hBehind
      exact absurd hEqual (hOthers c (hLonger ▸ List.mem_append_right _ List.mem_cons_self))
  · cases between with
    | nil => exact (List.cons.inj hBehind).1.symm
    | cons first _ =>
      obtain ⟨rfl, -⟩ := List.cons.inj hBehind
      exact absurd (Std.OrientedCmp.eq_symm hEqual)
        (hBefore d (hLonger ▸ List.mem_append_right _ List.mem_cons_self))

/-! ## The exact candidate -/

/-- Looking for an equal version finds the first candidate that has one, and nothing else. -/
theorem find?_eq_some_iff_isExact :
    candidates.find? (fun d => compare d.1 wanted = .eq) = some c ↔
      IsExact wanted candidates c := by
  rw [List.find?_eq_some_iff_append]
  constructor
  · rintro ⟨hEqual, before, behind, hSplit, hBefore⟩
    have hEqual : compare c.1 wanted = .eq := of_decide_eq_true hEqual
    refine ⟨hEqual, before, behind, hSplit, fun d hMem hSame => ?_⟩
    have hOwn := Std.TransCmp.eq_trans hSame hEqual
    simpa [hOwn] using hBefore d hMem
  · rintro ⟨hEqual, before, behind, hSplit, hBefore⟩
    refine ⟨decide_eq_true hEqual, before, behind, hSplit, fun d hMem => ?_⟩
    have hOther : compare d.1 wanted ≠ .eq := fun hOwn =>
      hBefore d hMem (Std.TransCmp.eq_trans hOwn (Std.OrientedCmp.eq_symm hEqual))
    simpa using hOther

theorem find?_eq_none_iff_forall :
    candidates.find? (fun d => compare d.1 wanted = .eq) = none ↔
      ∀ d ∈ candidates, compare d.1 wanted ≠ .eq := by
  rw [List.find?_eq_none]
  simp only [decide_eq_true_eq, ne_eq]

/-! ## The scan -/

/-- One more candidate is the best if it improves on the best so far. -/
theorem best_concat (improves : String → String → Bool) (candidates : List (String × β))
    (last : String × β) :
    best improves (candidates ++ [last]) =
      match best improves candidates with
      | none => some last
      | some c => if improves last.1 c.1 then some last else some c := by
  rw [best, List.foldl_append]
  rfl

/-- There is a best candidate unless there is none at all. -/
theorem best_eq_none_iff {improves : String → String → Bool} :
    best improves candidates = none ↔ candidates = [] := by
  constructor
  · intro hNone
    induction candidates using List.reverseRecOn with
    | nil => rfl
    | append_singleton rest last _ =>
      rw [best_concat] at hNone
      split at hNone
      · cases hNone
      · split at hNone <;> cases hNone
  · rintro rfl
    rfl

/-- What is not better than `b` is worse than what is better. -/
theorem compare_eq_swap_of_better {better : Ordering} (hBetter : better ≠ .eq) {a b e : String}
    (hNot : compare a b ≠ better) (hStep : compare e b = better) :
    compare a e = better.swap := by
  cases better with
  | lt =>
    exact Std.TransCmp.gt_of_isGE_of_gt (Ordering.isGE_iff_ne_lt.2 hNot)
      (Std.OrientedCmp.gt_of_lt hStep)
  | eq => exact absurd rfl hBetter
  | gt =>
    exact Std.TransCmp.lt_of_isLE_of_lt (Ordering.isLE_iff_ne_gt.2 hNot)
      (Std.OrientedCmp.lt_of_gt hStep)

/-- **What the scan ends with**: none is better, and all before it are worse. -/
theorem best_eq_some {better : Ordering} (hBetter : better ≠ .eq)
    (hBest : best (fun a b => compare a b = better) candidates = some c) :
    (∀ d ∈ candidates, compare d.1 c.1 ≠ better) ∧
      ∃ before behind, candidates = before ++ c :: behind ∧
        ∀ d ∈ before, compare d.1 c.1 = better.swap := by
  have hSelf : ∀ version, compare version version ≠ better := fun version hSelf =>
    hBetter (hSelf.symm.trans Std.ReflCmp.compare_self)
  have hSwap : better.swap ≠ better := by
    revert hBetter
    cases better <;> decide
  -- From the end, as `best` folds from the left: the invariant is that nothing so far is better and
  -- all before the best are worse.
  induction candidates using List.reverseRecOn generalizing c with
  | nil => cases hBest
  | append_singleton rest last ih =>
    rw [best_concat] at hBest
    cases hRest : best (fun a b => decide (compare a b = better)) rest with
    | none =>
      rw [hRest] at hBest
      cases hBest
      rw [best_eq_none_iff.1 hRest]
      exact ⟨by simpa using hSelf last.1, [], [], rfl, by simp⟩
    | some e =>
      obtain ⟨hNone, before, behind, hSplit, hBefore⟩ := ih hRest
      rw [hRest] at hBest
      dsimp only at hBest
      split at hBest
      · rename_i hStep
        cases hBest
        -- The last candidate improves on the best so far, so on every candidate before it.
        have hWorse : ∀ d ∈ rest, compare d.1 last.1 = better.swap := fun d hMem =>
          compare_eq_swap_of_better hBetter (hNone d hMem) (of_decide_eq_true hStep)
        refine ⟨List.forall_mem_append.2 ⟨?_, by simpa using hSelf last.1⟩, rest, [], rfl, hWorse⟩
        exact fun d hMem hOwn => hSwap ((hWorse d hMem).symm.trans hOwn)
      · rename_i hStep
        cases hBest
        refine ⟨List.forall_mem_append.2 ⟨hNone, by simpa using hStep⟩, before, behind ++ [last],
          by simp [hSplit], hBefore⟩

/-! ## The neighbours -/

/-- The best candidate on one side. -/
def neighbour? (side : Ordering) (wanted : String) (candidates : List (String × β)) :
    Option (String × β) :=
  best (compare · · = side.swap) (candidates.filter fun d => compare d.1 wanted = side)

theorem floor_eq_neighbour? (wanted : String) (candidates : List (String × β)) :
    floor wanted candidates = neighbour? .lt wanted candidates := rfl

theorem ceiling_eq_neighbour? (wanted : String) (candidates : List (String × β)) :
    ceiling wanted candidates = neighbour? .gt wanted candidates := rfl

theorem neighbour?_eq_none_iff {side : Ordering} :
    neighbour? side wanted candidates = none ↔ ∀ d ∈ candidates, compare d.1 wanted ≠ side := by
  rw [neighbour?, best_eq_none_iff, List.filter_eq_nil_iff]
  simp only [decide_eq_true_eq, ne_eq]

/-- The best candidate on a side is the earliest of its version, whatever stands before it on the
    other sides. -/
theorem isNeighbour_of_neighbour? {side : Ordering} (hSide : side ≠ .eq)
    (hBest : neighbour? side wanted candidates = some c) :
    IsNeighbour side wanted candidates c := by
  obtain ⟨hNone, before, behind, hSplit, hBefore⟩ :=
    best_eq_some (mt Ordering.swap_eq_eq.1 hSide) hBest
  obtain ⟨front, back, rfl, hFront, hBack⟩ := List.filter_eq_append_iff.1 hSplit
  obtain ⟨skipped, rest, rfl, hSkipped, hHere, -⟩ := List.filter_eq_cons_iff.1 hBack
  have hHere : compare c.1 wanted = side := of_decide_eq_true hHere
  refine ⟨hHere, fun d hMem hOwn => hNone d (List.mem_filter.2 ⟨hMem, decide_eq_true hOwn⟩),
    front ++ skipped, rest, by rw [List.append_assoc], fun d hMem hEqual => ?_⟩
  -- An equal version is on the same side, and there all before `c` are worse.
  have hOwn : compare d.1 wanted = side := (Std.TransCmp.congr_left hEqual).trans hHere
  rcases List.mem_append.1 hMem with hFirst | hLater
  · have hWorse := hBefore d (hFront ▸ List.mem_filter.2 ⟨hFirst, decide_eq_true hOwn⟩)
    rw [hEqual, Ordering.swap_swap] at hWorse
    exact hSide hWorse.symm
  · exact hSkipped d hLater (decide_eq_true hOwn)

/-- There is one neighbour on a side: of equal versions it is the earliest. -/
theorem IsNeighbour.unique {side : Ordering} (hSide : side ≠ .eq)
    (hc : IsNeighbour side wanted candidates c) (hd : IsNeighbour side wanted candidates d) :
    c = d := by
  refine hc.earliest.unique hd.earliest ?_
  have hLeft := hd.closest c hc.earliest.mem hc.here
  have hRight := hc.closest d hd.earliest.mem hd.here
  have hSwap : compare d.1 c.1 = (compare c.1 d.1).swap := Std.OrientedCmp.eq_swap
  rw [hSwap, ne_eq, Ordering.swap_inj] at hRight
  revert hSide hLeft hRight
  cases side <;> cases compare c.1 d.1 <;> decide

/-- **The neighbour is found.** -/
theorem neighbour?_eq_some_iff {side : Ordering} (hSide : side ≠ .eq) :
    neighbour? side wanted candidates = some c ↔ IsNeighbour side wanted candidates c := by
  refine ⟨isNeighbour_of_neighbour? hSide, fun hNeighbour => ?_⟩
  cases hBest : neighbour? side wanted candidates with
  | none => exact absurd hNeighbour.here (neighbour?_eq_none_iff.1 hBest c hNeighbour.earliest.mem)
  | some d => rw [(isNeighbour_of_neighbour? hSide hBest).unique hSide hNeighbour]

/-! ## Closeness -/

/-- Two texts share a longest beginning, and its length is what is counted. -/
theorem exists_isSharedPrefix (a b : List UInt8) :
    ∃ shared, IsSharedPrefix shared a b ∧ shared.length = sharedPrefix a b := by
  fun_induction sharedPrefix a b with
  -- Along the recursion: the first bytes are equal, they differ, or one of the lists has ended.
  | case1 as byte bs ih =>
    obtain ⟨shared, hShared, hLength⟩ := ih
    refine ⟨byte :: shared, ⟨?_, ?_, ?_⟩, by rw [List.length_cons, hLength]⟩
    · exact List.cons_prefix_cons.2 ⟨rfl, hShared.left⟩
    · exact List.cons_prefix_cons.2 ⟨rfl, hShared.right⟩
    · intro other hLeft hRight
      match other with
      | [] => exact Nat.zero_le _
      | first :: rest =>
        exact Nat.succ_le_succ (hShared.longest rest (List.cons_prefix_cons.1 hLeft).2
          (List.cons_prefix_cons.1 hRight).2)
  | case2 x as y bs hOther =>
    refine ⟨[], ⟨List.nil_prefix, List.nil_prefix, ?_⟩, rfl⟩
    intro other hLeft hRight
    match other with
    | [] => exact Nat.zero_le _
    | first :: rest =>
      exact absurd ((List.cons_prefix_cons.1 hLeft).1.symm.trans (List.cons_prefix_cons.1 hRight).1)
        hOther
  | case3 a b hEnd =>
    refine ⟨[], ⟨List.nil_prefix, List.nil_prefix, ?_⟩, rfl⟩
    intro other hLeft hRight
    match other with
    | [] => exact Nat.zero_le _
    | first :: rest =>
      obtain ⟨as, rfl⟩ := hLeft
      obtain ⟨bs, rfl⟩ := hRight
      exact (hEnd _ _ _ _ rfl rfl).elim

/-- The model counts the bytes of the longest prefix that is shared. -/
theorem IsSharedPrefix.length_eq {shared a b : List UInt8} (hShared : IsSharedPrefix shared a b) :
    shared.length = sharedPrefix a b := by
  obtain ⟨other, hOther, hLength⟩ := exists_isSharedPrefix a b
  rw [← hLength]
  exact Nat.le_antisymm (hOther.longest shared hShared.left hShared.right)
    (hShared.longest other hOther.left hOther.right)

/-- `Nearer` in numbers: a longer shared prefix, or the smaller gap behind one of the same
    length. -/
theorem nearer_iff {wanted first second : List UInt8} :
    Nearer wanted first second ↔
      sharedPrefix wanted second < sharedPrefix wanted first ∨
        sharedPrefix wanted first = sharedPrefix wanted second ∧ sharedPrefix wanted first ≠ 0 ∧
          ∃ w f s, wanted[sharedPrefix wanted first]? = some w ∧
            first[sharedPrefix wanted first]? = some f ∧
            second[sharedPrefix wanted first]? = some s ∧ gap w f < gap w s := by
  constructor
  · rintro ⟨p, q, hp, hq, hCloser⟩
    rwa [hq.length_eq, ne_eq, ← List.length_eq_zero_iff, hp.length_eq] at hCloser
  · intro hCloser
    obtain ⟨p, hp, hFirst⟩ := exists_isSharedPrefix wanted first
    obtain ⟨q, hq, hSecond⟩ := exists_isSharedPrefix wanted second
    refine ⟨p, q, hp, hq, ?_⟩
    rwa [hFirst, hSecond, ne_eq, ← List.length_eq_zero_iff, hFirst]

/-- The model decides `Nearer`. -/
theorem isCloser_iff {wanted first second : List UInt8} :
    isCloser wanted first second = true ↔ Nearer wanted first second := by
  rw [nearer_iff, isCloser]
  by_cases hSame : sharedPrefix wanted first = sharedPrefix wanted second
  · rw [← hSame]
    by_cases hNone : sharedPrefix wanted first = 0
    · simp [hNone]
    · cases wanted[sharedPrefix wanted first]? <;> cases first[sharedPrefix wanted first]? <;>
        cases second[sharedPrefix wanted first]? <;> simp [hNone]
  · simp [hSame]

/-! ## The selection -/

/-- What the model answers is what is to be selected. -/
theorem selects_nearest (wanted : String) (candidates : List (String × β)) :
    Selects wanted candidates (nearest wanted candidates) := by
  have hSides : ∀ side : Ordering, side ≠ .eq →
      (side ≠ .gt → side = .lt) ∧ (side ≠ .lt → side = .gt) := by decide
  rw [nearest, floor_eq_neighbour?, ceiling_eq_neighbour?]
  -- An exact version wins; else there are neighbours on both sides, on one of them, or on none.
  split
  · rename_i c hExact
    exact .exact (find?_eq_some_iff_isExact.1 hExact)
  · rename_i hOther
    rw [find?_eq_none_iff_forall] at hOther
    split
    · rename_i low high hLow hHigh
      rw [neighbour?_eq_some_iff (by decide)] at hLow hHigh
      split
      · rename_i hCloser
        exact .high hOther hLow hHigh (isCloser_iff.1 hCloser)
      · rename_i hCloser
        exact .low hOther hLow hHigh (mt isCloser_iff.2 hCloser)
    · rename_i low hLow hHigh
      rw [neighbour?_eq_some_iff (by decide)] at hLow
      rw [neighbour?_eq_none_iff] at hHigh
      exact .oneSided (by decide) hLow fun d hMem =>
        (hSides _ (hOther d hMem)).1 (hHigh d hMem)
    · rename_i high hLow hHigh
      rw [neighbour?_eq_none_iff] at hLow
      rw [neighbour?_eq_some_iff (by decide)] at hHigh
      exact .oneSided (by decide) hHigh fun d hMem =>
        (hSides _ (hOther d hMem)).2 (hLow d hMem)
    · rename_i hLow hHigh
      rw [neighbour?_eq_none_iff] at hLow hHigh
      refine .nothing (List.eq_nil_iff_forall_not_mem.2 fun d hMem => ?_)
      exact hLow d hMem ((hSides _ (hOther d hMem)).1 (hHigh d hMem))

/-- Nothing else is selected. -/
theorem Selects.nearest_eq {answer : Option β} (hSelects : Selects wanted candidates answer) :
    nearest wanted candidates = answer := by
  rw [nearest, floor_eq_neighbour?, ceiling_eq_neighbour?]
  cases hSelects with
  | nothing hNone =>
    rw [hNone]
    rfl
  | exact hExact => rw [find?_eq_some_iff_isExact.2 hExact]
  | @oneSided side c hSide hNeighbour hAll =>
    -- All candidates lie on one side, so the search on the other side and the exact one fail.
    have hFar : ∀ other : Ordering, side ≠ other → ∀ d ∈ candidates, compare d.1 wanted ≠ other :=
      fun other hNe d hMem hOwn => hNe ((hAll d hMem).symm.trans hOwn)
    have hFound := (neighbour?_eq_some_iff hSide).2 hNeighbour
    rw [find?_eq_none_iff_forall.2 (hFar .eq hSide)]
    cases side with
    | eq => exact absurd rfl hSide
    | lt => rw [hFound, neighbour?_eq_none_iff.2 (hFar .gt (by decide))]
    | gt => rw [hFound, neighbour?_eq_none_iff.2 (hFar .lt (by decide))]
  | high hOther hLow hHigh hNearer =>
    rw [find?_eq_none_iff_forall.2 hOther, (neighbour?_eq_some_iff (by decide)).2 hLow,
      (neighbour?_eq_some_iff (by decide)).2 hHigh]
    exact if_pos (isCloser_iff.2 hNearer)
  | low hOther hLow hHigh hNearer =>
    rw [find?_eq_none_iff_forall.2 hOther, (neighbour?_eq_some_iff (by decide)).2 hLow,
      (neighbour?_eq_some_iff (by decide)).2 hHigh]
    exact if_neg (mt isCloser_iff.1 hNearer)

/-- **The nearest version is the one that is selected**, and there is one unless there are no
    candidates. -/
theorem nearest_eq_iff (wanted : String) (candidates : List (String × β)) (answer : Option β) :
    nearest wanted candidates = answer ↔ Selects wanted candidates answer := by
  constructor
  · rintro rfl
    exact selects_nearest wanted candidates
  · exact Selects.nearest_eq

example : nearest "5.0.2" [("5.0.0", "low"), ("5.0.3", "high")] = some "high" ∧
    nearest "5.0.2" [("5.0.0", "low"), ("6.0", "high")] = some "low" ∧
    nearest "5.0.2" [("5-0-2", "first"), ("5.0.2", "second")] = some "first" := by decide

end Lineage.Version
