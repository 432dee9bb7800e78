/-
  What a class inherits.

  The chain of a class ends with the chain of its superclass, whole and in order: what comes in
  front of it may be collapsed, but takes nothing out of it (`exists_suffix_of_chainOf`).  So all
  that is left to say is which class the superclass is.

  A superclass is referred to by a name, and in every scope around the class that name could mean
  something.  The CANDIDATES are these meanings, innermost first, and the first of them that is
  known is the one; where none is known, the name is taken as it is written.  A class is not its own
  superclass, though it may well be the first candidate: `Api::V1::Base < Base` finds itself.  Then
  the name is taken as it is written, too, and the candidates further out are not looked at.

  Two laws that one may expect do not hold, each for a reason of its own:

      a class that finds itself skips the scopes further out, so `Api::V1::Base < Base` does not
      inherit from `Api::Base` (`not_forall_inherits_nearestOther`);

      `Object`, which a class without a superclass inherits from, is looked up like any name that
      is written, so inside `Schema` it may mean `Schema::Object`
      (`not_forall_inherits_object`).
-/
import Lineage.Proofs.Ancestry.Cycles
import Lineage.Proofs.Ancestry.Facts

namespace Lineage.DeclarationTable

open Relation

/-! ## Chains by themselves -/

/-- The chain of a name, made with nothing under way and nothing finished before. -/
def chainOf (table : DeclarationTable) (name : String) :
    Except ExtractionFailure (List String) :=
  (table.chain [] .empty name).map Prod.fst

section

variable {table : DeclarationTable} {name : String} {linear : List String}

/-- **A chain is the collapsed expansion of its name.** -/
theorem chainOf_eq_ok_iff : table.chainOf name = .ok linear ↔
    ∃ expansion, table.Expands [name] expansion ∧ linear = keepLast expansion := by
  obtain ⟨hWalked, hCollapsed⟩ :=
    (chain_spec table).1 [] .empty name (List.forall_mem_nil _) table.memoSound_empty
  rw [chainOf]
  rcases hWalked.cases with
    ⟨failure, hChain, hCycle⟩ | ⟨ancestors, memo, expansion, hChain, -, hExpands, hLinear⟩
  · rw [hChain]
    refine iff_of_false nofun ?_
    -- What has an expansion reaches no cycle.
    rintro ⟨expansion, hExpands, -⟩
    obtain ⟨start, hStart, repeated, hReach, hRepeated, -⟩ := hCycle
    exact hExpands.acyclicFrom start hStart repeated hReach hRepeated
  · rw [hCollapsed ancestors memo hChain] at hLinear
    rw [hChain, hLinear]
    constructor
    · rintro ⟨⟩
      exact ⟨expansion, hExpands, rfl⟩
    · rintro ⟨other, hOther, rfl⟩
      rw [hOther.unique hExpands]
      rfl

/-- The records of a table hold the chains of their names. -/
theorem chainOf_of_mem_records {names : List String} {records : List AncestorRecord}
    (hRecords : table.records .empty names = .ok records) {record : AncestorRecord}
    (hRecord : record ∈ records) : table.chainOf record.name = .ok record.ancestors := by
  have hSpec := records_spec table table.memoSound_empty names
  rw [hRecords] at hSpec
  exact chainOf_eq_ok_iff.2 (hSpec.2 record hRecord)

/-- A chain holds the name it is of. -/
theorem mem_of_chainOf (hChain : table.chainOf name = .ok linear) : name ∈ linear := by
  obtain ⟨expansion, hExpands, rfl⟩ := chainOf_eq_ok_iff.1 hChain
  rw [keepLast_eq_dedup, List.mem_dedup]
  cases hExpands with
  | unknown => exact List.mem_cons_self
  | declared => simp

theorem chainOf_of_unknown (hUnknown : table.known.get? name = none) :
    table.chainOf name = .ok [name] :=
  chainOf_eq_ok_iff.2 ⟨[name], .unknown hUnknown .nil, rfl⟩

/-- **The parts of a chain**: in front of the chain of the superclass stand what is prepended, the
    name and what is included. -/
theorem chainOf_eq_ok_iff_parts {d : Declaration} {superclass : String}
    (hKnown : table.known.get? name = some d)
    (hSuperclass : table.superclassOf name d = some superclass) :
    table.chainOf name = .ok linear ↔ ∃ prepended included inherited,
      table.Expands (table.latestFirst name d.prepends) prepended ∧
      table.Expands (table.latestFirst name d.includes) included ∧
      table.chainOf superclass = .ok inherited ∧
      linear = keepLast (prepended ++ name :: (included ++ inherited)) := by
  -- The part of the superclass may be collapsed before the whole is.
  have hCollapsed : ∀ prepended included inherited : List String,
      keepLast (prepended ++ name :: (included ++ keepLast inherited)) =
        keepLast (prepended ++ name :: (included ++ inherited)) := by
    intro prepended included inherited
    have hOnce : keepLast (keepLast inherited) = keepLast inherited := by
      rw [keepLast_eq_dedup]
      exact List.dedup_idem
    exact keepLast_append_congr rfl (keepLast_cons_congr name
      (keepLast_append_congr rfl hOnce))
  rw [chainOf_eq_ok_iff]
  constructor
  · rintro ⟨expansion, hExpands, rfl⟩
    cases hExpands with
    | unknown hUnknown =>
      rw [hKnown] at hUnknown
      cases hUnknown
    | @declared _ d' _ prepended included inherited _ hKnown' hPrepended hIncluded hInherited
        hRest =>
      obtain rfl : d = d' := Option.some.inj (hKnown.symm.trans hKnown')
      cases hRest
      rw [hSuperclass, Option.toList_some] at hInherited
      refine ⟨prepended, included, keepLast inherited, hPrepended, hIncluded,
        chainOf_eq_ok_iff.2 ⟨inherited, hInherited, rfl⟩, ?_⟩
      rw [List.append_nil, hCollapsed]
  · rintro ⟨prepended, included, _, hPrepended, hIncluded, hInherited, rfl⟩
    obtain ⟨inherited, hExpands, rfl⟩ := chainOf_eq_ok_iff.1 hInherited
    have hSuper : table.Expands (table.superclassOf name d).toList inherited := by
      rwa [hSuperclass]
    refine ⟨_, .declared hKnown hPrepended hIncluded hSuper .nil, ?_⟩
    rw [List.append_nil, hCollapsed]

/-- **A chain ends with the chain of the superclass.** -/
theorem exists_suffix_of_chainOf {d : Declaration} {superclass : String}
    (hKnown : table.known.get? name = some d)
    (hSuperclass : table.superclassOf name d = some superclass)
    (hChain : table.chainOf name = .ok linear) :
    ∃ inherited, table.chainOf superclass = .ok inherited ∧ inherited <:+ linear := by
  obtain ⟨prepended, included, inherited, -, -, hInherited, rfl⟩ :=
    (chainOf_eq_ok_iff_parts hKnown hSuperclass).1 hChain
  refine ⟨inherited, hInherited, ?_⟩
  obtain ⟨expansion, -, rfl⟩ := chainOf_eq_ok_iff.1 hInherited
  have hSuffix := keepLast_suffix_keepLast_append (prepended ++ name :: included)
    (keepLast expansion)
  rw [List.append_assoc, List.cons_append, keepLast_eq_dedup, List.dedup_idem] at hSuffix
  rwa [keepLast_eq_dedup]

/-- The chain of a class into which nothing is mixed. -/
theorem chainOf_of_plain {d : Declaration} {superclass : String} {inherited : List String}
    (hKnown : table.known.get? name = some d) (hIncludes : d.includes = [])
    (hPrepends : d.prepends = []) (hSuperclass : table.superclassOf name d = some superclass)
    (hInherited : table.chainOf superclass = .ok inherited) :
    table.chainOf name = .ok (keepLast (name :: inherited)) := by
  refine (chainOf_eq_ok_iff_parts hKnown hSuperclass).2 ⟨[], [], inherited, ?_, ?_, hInherited, rfl⟩
  · rw [hPrepends]
    exact .nil
  · rw [hIncludes]
    exact .nil

end

/-! ## Which class is meant -/

/-- What `reference` could mean in the scopes around `name`, innermost first. -/
def candidates (name reference : String) : List String :=
  (Scope.around name).map (Scope.qualify · reference)

/-- The nearest candidate that is known and is not `name` itself. -/
def nearestOther (table : DeclarationTable) (name reference : String) : String :=
  ((candidates name reference).find? fun candidate =>
    table.isKnown candidate && candidate ≠ name).getD reference

section

variable {table : DeclarationTable} {name written : String} {d : Declaration}

/-- Where no candidate is known, the superclass is the one that is written. -/
theorem superclassOf_of_none (hWritten : d.superclassOrDefault = some written)
    (hNone : (candidates name written).find? table.isKnown = none) :
    table.superclassOf name d = some written := by
  have hMeant : table.resolve (Scope.around name) written = written := by
    rw [resolve, Scope.resolve, ← candidates, hNone]
    rfl
  rw [superclassOf, hWritten, Option.map_some, hMeant, ite_self]

/-- The first candidate that is known is the superclass, unless it is the class itself: then the
    superclass is the one that is written. -/
theorem superclassOf_of_found (hWritten : d.superclassOrDefault = some written) {found : String}
    (hFound : (candidates name written).find? table.isKnown = some found) :
    table.superclassOf name d = some (if found = name then written else found) := by
  have hMeant : table.resolve (Scope.around name) written = found := by
    rw [resolve, Scope.resolve, ← candidates, hFound]
    rfl
  rw [superclassOf, hWritten, Option.map_some, hMeant]

/-- A candidate is longer than the name it comes from. -/
theorem ne_of_mem_candidates {candidate : String} (hMem : candidate ∈ candidates name written) :
    candidate ≠ written := by
  obtain ⟨scope, -, rfl⟩ := List.mem_map.1 hMem
  intro hSame
  have hLength := congrArg String.length hSame
  rw [Scope.qualify, String.length_append, String.length_append] at hLength
  have hColons : "::".length = 2 := rfl
  omega

/-- The first candidate that is known is the nearest other one, unless it is the class itself. -/
theorem nearestOther_of_found {found : String}
    (hFound : (candidates name written).find? table.isKnown = some found) (hOther : found ≠ name) :
    table.nearestOther name written = found := by
  obtain ⟨hKnown, front, behind, hSplit, hFront⟩ := List.find?_eq_some_iff_append.1 hFound
  have hNext : (candidates name written).find? (fun candidate =>
      table.isKnown candidate && candidate ≠ name) = some found := by
    refine List.find?_eq_some_iff_append.2 ⟨?_, front, behind, hSplit, fun candidate hMem => ?_⟩
    · rw [hKnown, Bool.true_and, decide_eq_true hOther]
    · have hUnknown : table.isKnown candidate = false := by
        simpa using hFront candidate hMem
      rw [hUnknown, Bool.false_and, Bool.not_false]
  rw [nearestOther, hNext, Option.getD_some]

/-- What is written is what is left where no other candidate is known. -/
theorem nearestOther_eq_written_iff : table.nearestOther name written = written ↔
    ¬ ∃ other ∈ candidates name written, table.isKnown other = true ∧ other ≠ name := by
  rw [nearestOther]
  cases hNext : (candidates name written).find? fun candidate =>
      table.isKnown candidate && candidate ≠ name with
  | none =>
    refine iff_of_true rfl ?_
    rintro ⟨other, hMem, hKnown, hOther⟩
    refine List.find?_eq_none.1 hNext other hMem ?_
    rw [hKnown, Bool.true_and, decide_eq_true hOther]
  | some next =>
    have hMem := List.mem_of_find?_eq_some hNext
    have hNextOther := List.find?_some hNext
    rw [Bool.and_eq_true, decide_eq_true_eq] at hNextOther
    exact iff_of_false (ne_of_mem_candidates hMem) (not_not_intro ⟨next, hMem, hNextOther⟩)

/-- **A class that finds itself skips the others**, and for no other reason is its superclass not
    the nearest one that is known. -/
theorem superclassOf_eq_nearestOther_iff (hWritten : d.superclassOrDefault = some written) :
    table.superclassOf name d = some (table.nearestOther name written) ↔
      ¬ ((candidates name written).find? table.isKnown = some name ∧
        ∃ other ∈ candidates name written, table.isKnown other = true ∧ other ≠ name) := by
  cases hFound : (candidates name written).find? table.isKnown with
  | none =>
    have hNothing : table.nearestOther name written = written := by
      rw [nearestOther_eq_written_iff]
      rintro ⟨other, hMem, hKnown, -⟩
      exact List.find?_eq_none.1 hFound other hMem hKnown
    rw [superclassOf_of_none hWritten hFound, hNothing]
    exact iff_of_true rfl nofun
  | some found =>
    rw [superclassOf_of_found hWritten hFound]
    by_cases hSelf : found = name
    · subst hSelf
      rw [if_pos rfl, Option.some.injEq, eq_comm, nearestOther_eq_written_iff, and_iff_right rfl]
    · rw [if_neg hSelf, nearestOther_of_found hFound hSelf]
      exact iff_of_true rfl fun hOwn => hSelf (Option.some.inj hOwn.1)

end

/-! ## A superclass that is written -/

/-- **Where a written superclass is looked for.**  The superclass is the first candidate that is
    known, in the scopes around the class from the innermost outward; it is taken as written where
    none is known, and also where the first one is the class itself.  It is the nearest OTHER class
    of that name unless the class finds itself first and a scope further out has another one.  Its
    chain is what comes last in the chain of the class, after the modules that are included. -/
theorem inherits_written (table : DeclarationTable) (name written : String) (d : Declaration)
    (hKnown : table.known.get? name = some d) (hWritten : d.superclass = some written) :
    ∃ superclass,
      ((candidates name written).find? table.isKnown = none → superclass = written) ∧
      (∀ found, (candidates name written).find? table.isKnown = some found →
        superclass = if found = name then written else found) ∧
      (superclass = table.nearestOther name written ↔
        ¬ ((candidates name written).find? table.isKnown = some name ∧
          ∃ other ∈ candidates name written, table.isKnown other = true ∧ other ≠ name)) ∧
      table.after name d = table.latestFirst name d.includes ++ [superclass] ∧
      ∀ linear, table.chainOf name = .ok linear → ∃ prepended included inherited,
        table.Expands (table.latestFirst name d.prepends) prepended ∧
        table.Expands (table.latestFirst name d.includes) included ∧
        table.chainOf superclass = .ok inherited ∧
        linear = keepLast (prepended ++ name :: (included ++ inherited)) ∧
        inherited <:+ linear := by
  have hOrDefault : d.superclassOrDefault = some written := by
    rw [Declaration.superclassOrDefault, hWritten]
  obtain ⟨superclass, hSuperclass⟩ : ∃ superclass, table.superclassOf name d = some superclass := by
    rw [superclassOf, hOrDefault]
    exact ⟨_, rfl⟩
  have hNearest := @superclassOf_eq_nearestOther_iff table name written d hOrDefault
  rw [hSuperclass, Option.some.injEq] at hNearest
  -- What the superclass is if nothing is found, if something is; then how the chain is made of it.
  refine ⟨superclass, ?_, ?_, hNearest, ?_, ?_⟩
  · intro hNone
    rw [superclassOf_of_none hOrDefault hNone] at hSuperclass
    exact (Option.some.inj hSuperclass).symm
  · intro found hFound
    rw [superclassOf_of_found hOrDefault hFound] at hSuperclass
    exact (Option.some.inj hSuperclass).symm
  · rw [after, hSuperclass, ← latestFirst_eq_mixedIn]
    rfl
  · intro linear hChain
    obtain ⟨prepended, included, inherited, hPrepended, hIncluded, hInherited, hLinear⟩ :=
      (chainOf_eq_ok_iff_parts hKnown hSuperclass).1 hChain
    obtain ⟨_, hSame, hSuffix⟩ := exists_suffix_of_chainOf hKnown hSuperclass hChain
    rw [hInherited] at hSame
    cases hSame
    exact ⟨prepended, included, inherited, hPrepended, hIncluded, hInherited, hLinear, hSuffix⟩

/-- A base for all versions of an interface; the first version has a base of its own over it, the
    second has a page. -/
def apiDump : String := "class Api::Base\nclass Api::V1::Base Base\nclass Api::V2::Page Base"

/-- A class that is written over `Base`. -/
def overBase : Declaration where
  kind := .ordinary
  superclass := some "Base"

/-- What `apiDump` declares: two classes over `Base`, and one that is called `Base` in their
    scope. -/
def api : DeclarationTable where
  known := (OrderedMap.ofList core).insert "Api::Base" { kind := .ordinary }
    |>.insert "Api::V1::Base" overBase |>.insert "Api::V2::Page" overBase
  declared := ["Api::Base", "Api::V1::Base", "Api::V2::Page"]

theorem ofDump_apiDump : ofDump apiDump = .ok api := by rfl

/-- The second version has no base of its own, so its page is over the one for all. -/
theorem inherits_written_apiPage :
    ofDump apiDump = .ok api ∧
      api.known.get? "Api::V2::Page" = some overBase ∧ overBase.superclass = some "Base" ∧
      candidates "Api::V2::Page" "Base" = ["Api::V2::Base", "Api::Base"] ∧
      api.after "Api::V2::Page" overBase = ["Api::Base"] := by
  have hFound : (candidates "Api::V2::Page" "Base").find? api.isKnown = some "Api::Base" := by
    decide +kernel
  obtain ⟨superclass, -, hMeant, -, hAfter, -⟩ :=
    inherits_written api "Api::V2::Page" "Base" overBase rfl rfl
  rw [hMeant _ hFound, if_neg (by decide)] at hAfter
  exact ⟨ofDump_apiDump, rfl, rfl, by decide +kernel, hAfter⟩

/-- The base of the first version finds itself, and is not over the base for all. -/
theorem not_forall_inherits_nearestOther : ¬ ∀ (dump : String) (table : DeclarationTable)
    (name written : String) (d : Declaration) (linear : List String),
    ofDump dump = .ok table → table.known.get? name = some d → d.superclass = some written →
    table.chainOf name = .ok linear →
      ∃ inherited, table.chainOf (table.nearestOther name written) = .ok inherited ∧
        inherited <:+ linear := by
  intro hInherits
  have hSuperclass : api.superclassOf "Api::V1::Base" overBase = some "Base" := by decide +kernel
  have hNearest : api.nearestOther "Api::V1::Base" "Base" = "Api::Base" := by decide +kernel
  have hChain : api.chainOf "Api::V1::Base" = .ok ["Api::V1::Base", "Base"] :=
    chainOf_of_plain rfl rfl rfl hSuperclass (chainOf_of_unknown rfl)
  obtain ⟨inherited, hInherited, hSuffix⟩ :=
    hInherits apiDump api "Api::V1::Base" "Base" overBase _ ofDump_apiDump rfl rfl hChain
  rw [hNearest] at hInherited
  exact absurd (hSuffix.subset (mem_of_chainOf hInherited)) (by decide)

/-! ## A superclass that nobody gives -/

/-- A class to which neither a fact nor the core gives a superclass, and which is not the class
    above all others. -/
structure WithoutSuperclass (facts : List Fact) (name : String) : Prop where
  isClass : .isClass name none ∈ facts
  unwritten : ∀ written, .isClass name (some written) ∉ facts
  core : ∀ entry ∈ core, entry.1 = name → entry.2.superclass = none
  notRoot : name ≠ "BasicObject"

theorem entries_initial : initial.known.entries = core := rfl

/-- The class above all others is the only one of its kind. -/
theorem eq_of_root_initial {name : String}
    (hRoot : (initial.known.get? name).map (·.kind) = some .root) : name = "BasicObject" := by
  obtain ⟨d, hKnown, hKind⟩ := Option.map_eq_some_iff.1 hRoot
  have hOnly : ∀ entry ∈ core, entry.2.kind = .root → entry.1 = "BasicObject" := by decide +kernel
  exact hOnly (name, d) (entries_initial ▸ OrderedMap.get?_eq_some_iff_mem.1 hKnown) hKind

/-- **A class that nobody gives a superclass goes on with `Object`**, as it is looked up. -/
theorem WithoutSuperclass.superclassOrDefault {dump : String} {table : DeclarationTable}
    {name : String} (hClass : WithoutSuperclass (facts dump) name)
    (hDump : ofDump dump = .ok table) :
    ∃ d, table.known.get? name = some d ∧ d.superclassOrDefault = some "Object" := by
  have hAbout : .isClass name none ∈ (facts dump).filter (·.subject = name) :=
    List.mem_filter.2 ⟨hClass.isClass, decide_eq_true rfl⟩
  have hRevisions := revisions_of_addAll (addAll_of_ofDump hDump) name
  obtain ⟨d, hKnown, hAccount⟩ := hRevisions.account (List.ne_nil_of_mem hAbout)
  rw [hKnown] at hRevisions
  -- A superclass could only come from the core or from a line, and `WithoutSuperclass` excludes
  -- both.
  have hSuperclass : d.superclass = none := by
    refine Option.eq_none_iff_forall_ne_some.2 fun written hWritten => ?_
    rcases (hAccount.superclass written).1 hWritten with hBefore | ⟨fact, hFact, hFactWrites⟩
    · obtain ⟨known, hInitial, hCore⟩ := Option.bind_eq_some_iff.1 hBefore
      have hMem := entries_initial ▸ OrderedMap.get?_eq_some_iff_mem.1 hInitial
      rw [hClass.core _ hMem rfl] at hCore
      cases hCore
    · obtain ⟨hStated, hSubject⟩ := List.mem_filter.1 hFact
      cases fact with
      | isClass other superclass =>
        obtain rfl : superclass = some written := hFactWrites
        obtain rfl : other = name := of_decide_eq_true hSubject
        exact hClass.unwritten written hStated
      | isModule _ | includes _ _ | prepends _ _ => cases hFactWrites
  have hKind : d.kind = .ordinary := by
    cases hKind : d.kind with
    | ordinary => rfl
    | root => exact absurd (eq_of_root_initial (hAccount.isRoot.1 hKind)) hClass.notRoot
    | mixin => exact absurd hKind (hRevisions.kind_ne_mixin hAbout)
  refine ⟨d, hKnown, ?_⟩
  rw [Declaration.superclassOrDefault, hSuperclass, hKind]
  rfl

/-- **The superclass that nobody gives.**  In a dump that linearizes, the chain of a class without a
    superclass ends with the whole chain of `Object`, provided that no scope around the class has an
    `Object` of its own, or that the innermost one that has is found to have the class itself.
    Otherwise it ends with the whole chain of that other `Object`. -/
theorem inherits_object (dump : String) (records : List AncestorRecord)
    (hLinearize : linearize dump = .ok records) :
    ∃ table, ofDump dump = .ok table ∧ ∀ name, WithoutSuperclass (facts dump) name →
      ∃ ancestors, ⟨name, ancestors⟩ ∈ records ∧
        ((∀ found, (candidates name "Object").find? table.isKnown = some found → found = name) →
          ∃ inherited, table.chainOf "Object" = .ok inherited ∧ inherited <:+ ancestors) ∧
        (∀ found, (candidates name "Object").find? table.isKnown = some found → found ≠ name →
          ∃ inherited, table.chainOf found = .ok inherited ∧ inherited <:+ ancestors) := by
  cases hDump : ofDump dump with
  | error failure =>
    rw [linearize, hDump] at hLinearize
    cases hLinearize
  | ok table =>
    rw [linearize_of_ofDump hDump] at hLinearize
    refine ⟨table, rfl, fun name hClass => ?_⟩
    have hDeclared : name ∈ table.declared :=
      ((declared_of_addAll (addAll_of_ofDump hDump)).2 name).2
        (.inr ⟨_, hClass.isClass, rfl, rfl⟩)
    have hSpec := records_spec table table.memoSound_empty table.declared
    rw [hLinearize] at hSpec
    rw [← hSpec.1] at hDeclared
    obtain ⟨⟨_, ancestors⟩, hRecord, rfl⟩ := List.mem_map.1 hDeclared
    have hChain := chainOf_of_mem_records hLinearize hRecord
    obtain ⟨d, hKnown, hObject⟩ := hClass.superclassOrDefault hDump
    -- The superclass is what the innermost match stands for, or `Object` as written if there is
    -- none.
    refine ⟨ancestors, hRecord, fun hFree => ?_, fun found hFound hNe => ?_⟩
    · refine exists_suffix_of_chainOf hKnown ?_ hChain
      cases hFound : (candidates _ "Object").find? table.isKnown with
      | none => exact superclassOf_of_none hObject hFound
      | some found => rw [superclassOf_of_found hObject hFound, if_pos (hFree found hFound)]
    · refine exists_suffix_of_chainOf hKnown ?_ hChain
      rw [superclassOf_of_found hObject hFound, if_neg hNe]

/-- A scope with an `Object` of its own, over a class that nothing is known of. -/
def schemaDump : String :=
  "class Schema::Object Member\nclass Schema::Field\nclass Page"

/-- What `schemaDump` declares: a `Schema::Object` beside the `Object` of the core. -/
def schema : DeclarationTable where
  known := (OrderedMap.ofList core).insert "Schema::Object"
      { kind := .ordinary, superclass := some "Member" }
    |>.insert "Schema::Field" { kind := .ordinary } |>.insert "Page" { kind := .ordinary }
  declared := ["Schema::Object", "Schema::Field", "Page"]

theorem ofDump_schemaDump : ofDump schemaDump = .ok schema := by rfl

theorem facts_schemaDump : facts schemaDump = [
    .isClass "Schema::Object" (some "Member"), .isClass "Schema::Field" none,
    .isClass "Page" none] := by
  decide +kernel

/-- For two of its classes no superclass is written. -/
theorem withoutSuperclass_schema {name : String} (hName : name ∈ ["Schema::Field", "Page"]) :
    WithoutSuperclass (facts schemaDump) name := by
  rw [facts_schemaDump]
  rcases List.mem_pair.1 hName with rfl | rfl
  all_goals exact ⟨by decide, by simp, by decide +kernel, by decide⟩

/-- A name refers only to names before it, if what nothing is known of comes first. -/
theorem schema_falls : ∀ entry ∈ schema.known.entries,
    ∀ other ∈ schema.before entry.1 entry.2 ++ schema.after entry.1 entry.2,
      ("Member" :: schema.known.keys).idxOf other <
        ("Member" :: schema.known.keys).idxOf entry.1 := by
  decide +kernel

theorem exists_records_schemaDump : ∃ records, linearize schemaDump = .ok records := by
  have hAcyclic := acyclicFrom_of_rank _ schema_falls schema.declared
  obtain ⟨records, hRecords⟩ := exists_records_of_acyclicFrom hAcyclic
  exact ⟨records, (linearize_of_ofDump ofDump_schemaDump).trans hRecords⟩

/-- Outside of that scope a class inherits from `Object`. -/
theorem inherits_object_page : ∃ records ancestors inherited,
    linearize schemaDump = .ok records ∧ WithoutSuperclass (facts schemaDump) "Page" ∧
      ⟨"Page", ancestors⟩ ∈ records ∧ schema.chainOf "Object" = .ok inherited ∧
      inherited <:+ ancestors := by
  obtain ⟨records, hRecords⟩ := exists_records_schemaDump
  obtain ⟨table, hDump, hInherits⟩ := inherits_object schemaDump records hRecords
  obtain rfl : schema = table := Except.ok.inj (ofDump_schemaDump.symm.trans hDump)
  have hPage := withoutSuperclass_schema (List.mem_pair.2 (.inr (rfl : "Page" = "Page")))
  obtain ⟨ancestors, hRecord, hObject, -⟩ := hInherits "Page" hPage
  have hNone : (candidates "Page" "Object").find? schema.isKnown = none := by decide +kernel
  obtain ⟨inherited, hInherited, hSuffix⟩ := hObject (by simp [hNone])
  exact ⟨records, ancestors, inherited, hRecords, hPage, hRecord, hInherited, hSuffix⟩

/-- Inside of it a class inherits from the `Object` of the scope, and from nothing else. -/
theorem not_forall_inherits_object : ¬ ∀ (dump : String) (records : List AncestorRecord)
    (table : DeclarationTable) (name : String) (ancestors : List String),
    linearize dump = .ok records → ofDump dump = .ok table →
    WithoutSuperclass (facts dump) name → ⟨name, ancestors⟩ ∈ records →
      ∃ inherited, table.chainOf "Object" = .ok inherited ∧ inherited <:+ ancestors := by
  intro hInherits
  obtain ⟨records, hRecords⟩ := exists_records_schemaDump
  have hSchema : schema.records .empty schema.declared = .ok records :=
    (linearize_of_ofDump ofDump_schemaDump).symm.trans hRecords
  have hSpec := records_spec schema schema.memoSound_empty schema.declared
  rw [hSchema] at hSpec
  have hDeclared : "Schema::Field" ∈ records.map (·.name) := by
    rw [hSpec.1]
    decide
  obtain ⟨⟨name, ancestors⟩, hRecord, hName⟩ := List.mem_map.1 hDeclared
  obtain rfl : name = "Schema::Field" := hName
  have hField := withoutSuperclass_schema
    (List.mem_pair.2 (.inl (rfl : "Schema::Field" = "Schema::Field")))
  obtain ⟨inherited, hInherited, hSuffix⟩ := hInherits schemaDump records schema "Schema::Field"
    ancestors hRecords ofDump_schemaDump hField hRecord
  -- `Schema::Field` is over `Schema::Object`, whose own superclass is not the `Object` of the core.
  have hOther : schema.superclassOf "Schema::Field" { kind := .ordinary } =
      some "Schema::Object" := by decide +kernel
  have hMember : schema.superclassOf "Schema::Object"
      { kind := .ordinary, superclass := some "Member" } = some "Member" := by decide +kernel
  have hChain :
      schema.chainOf "Schema::Field" = .ok ["Schema::Field", "Schema::Object", "Member"] :=
    chainOf_of_plain rfl rfl rfl hOther
      (chainOf_of_plain rfl rfl rfl hMember (chainOf_of_unknown rfl))
  rw [chainOf_of_mem_records hSchema hRecord] at hChain
  cases hChain
  exact absurd (hSuffix.subset (mem_of_chainOf hInherited)) (by decide)

end Lineage.DeclarationTable
