/-
  The order of ancestors, without a memo and without collapsing on the way.

  The EXPANSION of a name spells its ancestors out in full: every reference is followed each time it
  occurs, so a name that is reached along several ways stands there several times, with all that
  comes with it.  It exists where no cycle can be reached, and may be exponentially long.

  The walk that makes the chains is right if each chain is the expansion with every name kept at its
  last place.  It gets there differently: it collapses at every level and takes finished chains from
  its memo.  One induction along the walk shows that this comes to the same (`chain_spec`), with two
  invariants on what the walk carries along:

    memo       every finished chain is the collapsed expansion of its name;
    visiting   every name under way leads to the name whose chain is asked for, so meeting one of
               them again closes a cycle.
-/
import Lineage.Proofs.Ancestry.KeepLast
import Mathlib.Logic.Relation

namespace Lineage.DeclarationTable

open Relation

/-! ## References and cycles -/

/-- The chain of `name` is made from the chain of `other`: a module that is mixed in, or the
    superclass, each as it is resolved. -/
def Refers (table : DeclarationTable) (name other : String) : Prop :=
  ∃ d, table.known.get? name = some d ∧ other ∈ table.before name d ++ table.after name d

/-- No cycle of references can be reached from `names`. -/
def AcyclicFrom (table : DeclarationTable) (names : List String) : Prop :=
  ∀ name ∈ names, ∀ other, ReflTransGen table.Refers name other →
    ¬ TransGen table.Refers other other

/-- The failure names a repeated name, which can be reached from `names`. -/
def CycleFrom (table : DeclarationTable) (names : List String) (failure : ExtractionFailure) :
    Prop :=
  ∃ name ∈ names, ∃ repeated, ReflTransGen table.Refers name repeated ∧
    TransGen table.Refers repeated repeated ∧ failure = .cycle repeated

/-- A rank that falls along every reference rules cycles out. -/
theorem acyclicFrom_of_rank {table : DeclarationTable} (rank : String → Nat)
    (hFalls : ∀ entry ∈ table.known.entries,
      ∀ other ∈ table.before entry.1 entry.2 ++ table.after entry.1 entry.2,
        rank other < rank entry.1) (names : List String) : table.AcyclicFrom names := by
  have hStep : ∀ name other, table.Refers name other → rank other < rank name := by
    rintro name other ⟨d, hKnown, hOther⟩
    exact hFalls (name, d) (Entries.mem_of_find hKnown) other hOther
  have hPath : ∀ name other, TransGen table.Refers name other → rank other < rank name := by
    intro name other hPath
    induction hPath with
    | single hRefers => exact hStep _ _ hRefers
    | tail _ hRefers ih => exact Nat.lt_trans (hStep _ _ hRefers) ih
  intro name _ other _ hCycle
  exact Nat.lt_irrefl _ (hPath other other hCycle)

/-! ## Expansions -/

/-- The modules of `calls` as they are meant inside `name`, those of the latest call first. -/
def latestFirst (table : DeclarationTable) (name : String) (calls : List (List String)) :
    List String :=
  calls.reverse.flatMap fun call => call.map (table.resolve (Scope.outward name))

/-- `Expands names expansion`: the expansions of `names` one after the other.  A name of which
    nothing is known stands for itself; for any other, the prepended modules come first, then the
    name, then the included modules and at last the superclass, each of them expanded in turn. -/
inductive Expands (table : DeclarationTable) : List String → List String → Prop
  | nil : Expands table [] []
  | unknown {name : String} {rest others : List String}
      (hUnknown : table.known.get? name = none) (hRest : Expands table rest others) :
      Expands table (name :: rest) (name :: others)
  | declared {name : String} {d : Declaration}
      {rest prepended included inherited others : List String}
      (hKnown : table.known.get? name = some d)
      (hPrepended : Expands table (table.latestFirst name d.prepends) prepended)
      (hIncluded : Expands table (table.latestFirst name d.includes) included)
      (hInherited : Expands table (table.superclassOf name d).toList inherited)
      (hRest : Expands table rest others) :
      Expands table (name :: rest) ((prepended ++ name :: (included ++ inherited)) ++ others)

/-- `latestFirst` spells out the model's `mixedIn`. -/
theorem latestFirst_eq_mixedIn (table : DeclarationTable) (name : String)
    (calls : List (List String)) : table.latestFirst name calls = table.mixedIn name calls := by
  rw [latestFirst, mixedIn, List.map_flatten, List.flatMap]

namespace Expands

variable {table : DeclarationTable}

/-- Expansions of two lists of names, one after the other, expand the lists together. -/
theorem append {xs ys l m : List String} (hx : table.Expands xs l) (hy : table.Expands ys m) :
    table.Expands (xs ++ ys) (l ++ m) := by
  induction hx with
  | nil => exact hy
  | unknown hUnknown _ ih => exact .unknown hUnknown ih
  | declared hKnown hPrepended hIncluded hInherited _ _ _ _ ih =>
    rw [List.append_assoc]
    exact .declared hKnown hPrepended hIncluded hInherited ih

/-- The expansion of several names falls into the expansions of any two parts of them. -/
theorem of_append {xs ys l : List String} (h : table.Expands (xs ++ ys) l) :
    ∃ x y, l = x ++ y ∧ table.Expands xs x ∧ table.Expands ys y := by
  induction xs generalizing l with
  | nil => exact ⟨[], l, rfl, .nil, h⟩
  | cons name rest ih =>
    rw [List.cons_append] at h
    cases h with
    | unknown hUnknown hRest =>
      obtain ⟨x, y, rfl, hx, hy⟩ := ih hRest
      exact ⟨name :: x, y, rfl, .unknown hUnknown hx, hy⟩
    | declared hKnown hPrepended hIncluded hInherited hRest =>
      obtain ⟨x, y, rfl, hx, hy⟩ := ih hRest
      exact ⟨_, y, (List.append_assoc _ x y).symm,
        .declared hKnown hPrepended hIncluded hInherited hx, hy⟩

/-- Names have at most one expansion. -/
theorem unique {names l m : List String} (hl : table.Expands names l) (hm : table.Expands names m) :
    l = m := by
  induction hl generalizing m with
  | nil =>
    cases hm
    rfl
  | unknown hUnknown _ ih =>
    cases hm with
    | unknown _ hRest => rw [ih hRest]
    | declared hKnown => rw [hUnknown] at hKnown; cases hKnown
  | declared hKnown _ _ _ _ ihPrepended ihIncluded ihInherited ihRest =>
    cases hm with
    | unknown hUnknown => rw [hUnknown] at hKnown; cases hKnown
    | declared hKnown' hPrepended hIncluded hInherited hRest =>
      rw [hKnown] at hKnown'
      cases hKnown'
      rw [ihPrepended hPrepended, ihIncluded hIncluded, ihInherited hInherited, ihRest hRest]

/-- The expansion of a known name, from those of the references before and after it. -/
theorem of_before_after {name : String} {d : Declaration} {b a : List String}
    (hKnown : table.known.get? name = some d) (hBefore : table.Expands (table.before name d) b)
    (hAfter : table.Expands (table.after name d) a) : table.Expands [name] (b ++ name :: a) := by
  obtain ⟨included, inherited, rfl, hIncluded, hInherited⟩ := of_append hAfter
  rw [before, ← latestFirst_eq_mixedIn] at hBefore
  rw [← latestFirst_eq_mixedIn] at hIncluded
  have hName := Expands.declared hKnown hBefore hIncluded hInherited .nil
  rwa [List.append_nil] at hName

end Expands

/-! ## The walk, case by case -/

section

variable {table : DeclarationTable} {visiting : List String} {memo : Memo} {name : String}

theorem chain_of_finished {finished : List String} (hFinished : memo.get? name = some finished) :
    table.chain visiting memo name = .ok (finished, memo) := by
  rw [chain, hFinished]

/-- A name of which nothing is known is its own chain. -/
theorem chain_of_unknown (hMemo : memo.get? name = none) (hUnknown : table.known.get? name = none) :
    table.chain visiting memo name = .ok ([name], memo) := by
  rw [chain, hMemo]
  dsimp only
  split
  · rfl
  · rename_i d hKnown
    rw [hUnknown] at hKnown
    cases hKnown

/-- A name that comes up while its own chain is under way is a cycle. -/
theorem chain_of_busy {d : Declaration} (hMemo : memo.get? name = none)
    (hKnown : table.known.get? name = some d) (hBusy : name ∈ visiting) :
    table.chain visiting memo name = .error (.cycle name) := by
  rw [chain, hMemo]
  dsimp only
  split
  · rename_i hUnknown
    rw [hUnknown] at hKnown
    cases hKnown
  · rw [dif_pos hBusy]

/-- Any other known name gets its chain from those of its neighbours, and the chain is kept. -/
theorem chain_of_idle {d : Declaration} (hMemo : memo.get? name = none)
    (hKnown : table.known.get? name = some d) (hIdle : name ∉ visiting) :
    table.chain visiting memo name = (do
      let (before, memo) ← table.chains (name :: visiting) memo (table.before name d)
      let (after, memo) ← table.chains (name :: visiting) memo (table.after name d)
      let linear := keepLast (before ++ name :: after)
      return (linear, memo.insert name linear)) := by
  rw [chain, hMemo]
  dsimp only
  split
  · rename_i hUnknown
    rw [hUnknown] at hKnown
    cases hKnown
  · rename_i d' hKnown'
    obtain rfl : d = d' := Option.some.inj (hKnown.symm.trans hKnown')
    rw [dif_neg hIdle]

end

/-! ## What the walk computes -/

/-- Every finished chain is the expansion of its name, collapsed once. -/
def MemoSound (table : DeclarationTable) (memo : Memo) : Prop :=
  ∀ name finished, memo.get? name = some finished →
    ∃ expansion, table.Expands [name] expansion ∧ finished = keepLast expansion

theorem memoSound_empty (table : DeclarationTable) : table.MemoSound .empty := by
  intro name finished hFinished
  cases hFinished

/-- A memo of finished chains may take in one more that is right. -/
theorem MemoSound.insert {table : DeclarationTable} {memo : Memo} (hMemo : table.MemoSound memo)
    {name : String} {expansion : List String} (hName : table.Expands [name] expansion) :
    table.MemoSound (memo.insert name (keepLast expansion)) := by
  intro other finished hFinished
  rw [OrderedMap.get?_insert] at hFinished
  by_cases hOther : other = name
  · rw [if_pos hOther] at hFinished
    cases hFinished
    exact ⟨expansion, hOther ▸ hName, rfl⟩
  · rw [if_neg hOther] at hFinished
    exact hMemo other finished hFinished

/-- What has been made of `names`: a list that collapses to the same as their expansion, and a memo
    that is as sound as before; or a failure, which names a cycle. -/
def Walked (table : DeclarationTable) (names : List String) :
    Except ExtractionFailure (List String × Memo) → Prop
  | .ok (linear, memo) => table.MemoSound memo ∧
      ∃ expansion, table.Expands names expansion ∧ keepLast linear = keepLast expansion
  | .error failure => table.CycleFrom names failure

/-- A walk ends in a cycle that its names reach, or in chains that agree with an expansion. -/
theorem Walked.cases {table : DeclarationTable} {names : List String}
    {outcome : Except ExtractionFailure (List String × Memo)}
    (hWalked : table.Walked names outcome) :
    (∃ failure, outcome = .error failure ∧ table.CycleFrom names failure) ∨
      ∃ linear memo expansion, outcome = .ok (linear, memo) ∧ table.MemoSound memo ∧
        table.Expands names expansion ∧ keepLast linear = keepLast expansion := by
  cases outcome with
  | error failure => exact .inl ⟨failure, rfl, hWalked⟩
  | ok result =>
    obtain ⟨hMemo, expansion, hExpands, hLinear⟩ := hWalked
    exact .inr ⟨result.1, result.2, expansion, rfl, hMemo, hExpands, hLinear⟩

/-- A path into a name goes on along each of its references. -/
theorem forall_visiting_cons {table : DeclarationTable} {visiting names : List String}
    {name : String} (hVisiting : ∀ other ∈ visiting, TransGen table.Refers other name)
    (hNames : ∀ other ∈ names, table.Refers name other) :
    ∀ start ∈ name :: visiting, ∀ other ∈ names, TransGen table.Refers start other := by
  intro start hStart other hOther
  rcases List.mem_cons.1 hStart with rfl | hStart
  · exact .single (hNames other hOther)
  · exact (hVisiting start hStart).tail (hNames other hOther)

namespace CycleFrom

variable {table : DeclarationTable} {names more : List String} {name : String}
  {failure : ExtractionFailure}

theorem mono (hCycle : table.CycleFrom names failure) (hSubset : names ⊆ more) :
    table.CycleFrom more failure := by
  obtain ⟨other, hOther, hRepeated⟩ := hCycle
  exact ⟨other, hSubset hOther, hRepeated⟩

/-- A cycle behind a reference is a cycle behind the name that has it. -/
theorem of_refers (hCycle : table.CycleFrom names failure)
    (hNames : ∀ other ∈ names, table.Refers name other) : table.CycleFrom [name] failure := by
  obtain ⟨other, hOther, repeated, hReach, hRepeated, rfl⟩ := hCycle
  exact ⟨name, List.mem_singleton_self name, repeated, hReach.head (hNames other hOther), hRepeated,
    rfl⟩

end CycleFrom

/-- **The walk.**  With a sound memo, and if all names under way lead to the name that is asked
    for, its chain is its expansion, collapsed once, or there is a cycle. -/
theorem chain_spec (table : DeclarationTable) :
    (∀ (visiting : List String) (memo : Memo) (name : String),
      (∀ other ∈ visiting, TransGen table.Refers other name) → table.MemoSound memo →
        table.Walked [name] (table.chain visiting memo name) ∧
        ∀ linear memo', table.chain visiting memo name = .ok (linear, memo') →
          keepLast linear = linear) ∧
    (∀ (visiting : List String) (memo : Memo) (names : List String),
      (∀ start ∈ visiting, ∀ other ∈ names, TransGen table.Refers start other) →
        table.MemoSound memo → table.Walked names (table.chains visiting memo names)) := by
  have hOnce : ∀ l : List String, keepLast (keepLast l) = keepLast l := by
    rw [keepLast_eq_dedup]
    exact fun _ => List.dedup_idem
  refine chain.mutual_induct table _ _ ?finished ?unknown ?busy ?idle ?nil ?cons
  case finished =>
    intro visiting memo name finished hFinished hVisiting hMemo
    obtain ⟨expansion, hExpands, rfl⟩ := hMemo name finished hFinished
    rw [chain_of_finished hFinished]
    refine ⟨⟨hMemo, expansion, hExpands, hOnce expansion⟩, ?_⟩
    rintro linear memo' ⟨⟩
    exact hOnce expansion
  case unknown =>
    intro visiting memo name hNone hUnknown hVisiting hMemo
    rw [chain_of_unknown hNone hUnknown]
    refine ⟨⟨hMemo, [name], .unknown hUnknown .nil, rfl⟩, ?_⟩
    rintro linear memo' ⟨⟩
    rfl
  case busy =>
    -- The name is under way, so it leads to itself.
    intro visiting memo name hNone d hKnown hBusy hVisiting hMemo
    rw [chain_of_busy hNone hKnown hBusy]
    refine ⟨⟨name, List.mem_singleton_self name, name, .refl, hVisiting name hBusy, rfl⟩, ?_⟩
    rintro linear memo' ⟨⟩
  case idle =>
    intro visiting memo name hNone d hKnown hIdle ihBefore ihAfter hVisiting hMemo
    have hBefore : ∀ other ∈ table.before name d, table.Refers name other := fun other hOther =>
      ⟨d, hKnown, List.mem_append_left _ hOther⟩
    have hAfter : ∀ other ∈ table.after name d, table.Refers name other := fun other hOther =>
      ⟨d, hKnown, List.mem_append_right _ hOther⟩
    rw [chain_of_idle hNone hKnown hIdle]
    rcases (ihBefore (forall_visiting_cons hVisiting hBefore) hMemo).cases with
      ⟨failure, hFirst, hCycle⟩ | ⟨before, memo₁, b, hFirst, hMemo₁, hExpandsB, hB⟩
    · rw [hFirst]
      refine ⟨hCycle.of_refers hBefore, ?_⟩
      rintro linear memo' ⟨⟩
    rw [hFirst]
    dsimp only [bind, Except.bind]
    rcases (ihAfter memo₁ (forall_visiting_cons hVisiting hAfter) hMemo₁).cases with
      ⟨failure, hSecond, hCycle⟩ | ⟨after, memo₂, a, hSecond, hMemo₂, hExpandsA, hA⟩
    · rw [hSecond]
      refine ⟨hCycle.of_refers hAfter, ?_⟩
      rintro linear memo' ⟨⟩
    -- Both parts may be replaced by their expansions under the collapsing of this level.
    have hLinear : keepLast (before ++ name :: after) = keepLast (b ++ name :: a) :=
      keepLast_append_congr hB (keepLast_cons_congr name hA)
    have hName := Expands.of_before_after hKnown hExpandsB hExpandsA
    rw [hSecond]
    dsimp only [pure, Except.pure]
    rw [hLinear]
    refine ⟨⟨hMemo₂.insert hName, _, hName, hOnce _⟩, ?_⟩
    rintro linear memo' ⟨⟩
    exact hOnce _
  case nil =>
    intro visiting memo hVisiting hMemo
    rw [chains]
    exact ⟨hMemo, [], .nil, rfl⟩
  case cons =>
    intro visiting memo name rest ihName ihRest hVisiting hMemo
    have hName : ∀ start ∈ visiting, TransGen table.Refers start name := fun start hStart =>
      hVisiting start hStart name List.mem_cons_self
    have hRest : ∀ start ∈ visiting, ∀ other ∈ rest, TransGen table.Refers start other :=
      fun start hStart other hOther =>
        hVisiting start hStart other (List.mem_cons_of_mem name hOther)
    rw [chains]
    rcases (ihName hName hMemo).1.cases with
      ⟨failure, hFirst, hCycle⟩ | ⟨first, memo₁, x, hFirst, hMemo₁, hExpandsX, hX⟩
    · rw [hFirst]
      exact hCycle.mono (List.cons_subset_cons name (List.nil_subset rest))
    rw [hFirst]
    dsimp only [bind, Except.bind]
    rcases (ihRest memo₁ hRest hMemo₁).cases with
      ⟨failure, hSecond, hCycle⟩ | ⟨others, memo₂, y, hSecond, hMemo₂, hExpandsY, hY⟩
    · rw [hSecond]
      exact hCycle.mono (List.subset_cons_self name rest)
    rw [hSecond]
    exact ⟨hMemo₂, x ++ y, hExpandsX.append hExpandsY, keepLast_append_congr hX hY⟩

end Lineage.DeclarationTable
