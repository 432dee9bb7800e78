/-
  The order in which declarations are loaded does not matter.

  Two dumps may state the same facts in different orders: a class may be opened again before or
  after its superclass is given, and a name may be referred to before or after it is declared.  Only
  the `include`s of one name among themselves, and its `prepend`s, have to keep their order, because
  that order is part of what they say.

  The two readings are not compared line by line, since a dump whose lines are swapped one pair at a
  time may be refused on the way.  They are compared by what is known of each name in the end
  (`known_eq_of_reordered`).  References and expansions depend on nothing else, and a chain is the
  collapsed expansion of its name; so the memo, which sees the names in another order, does not
  matter either.
-/
import Lineage.Proofs.Ancestry.Cycles
import Lineage.Proofs.Ancestry.Facts

namespace Lineage

/-! ## The same facts in another order -/

/-- Is the fact an `include` into `name`? -/
def Fact.includesInto (name : String) : Fact → Bool
  | includes subject _ => subject = name
  | _ => false

/-- Is the fact a `prepend` to `name`? -/
def Fact.prependsTo (name : String) : Fact → Bool
  | prepends subject _ => subject = name
  | _ => false

/-- The same facts in another order, in which the `include`s into each name come as they did, and
    so do its `prepend`s. -/
structure Reordered (facts others : List Fact) : Prop where
  perm : facts.Perm others
  includes : ∀ name, facts.filter (·.includesInto name) = others.filter (·.includesInto name)
  prepends : ∀ name, facts.filter (·.prependsTo name) = others.filter (·.prependsTo name)

/-- Of the facts about a name, those that a property picks out are enough to read off what only
    they have. -/
theorem Fact.filterMap_about {α : Type} {name : String} {read : Fact → Option α} {p : Fact → Bool}
    (hPicks : ∀ fact, p fact = (fact.subject = name && (read fact).isSome)) (facts : List Fact) :
    (facts.filter (·.subject = name)).filterMap read = (facts.filter p).filterMap read := by
  rw [List.filterMap_filter, List.filterMap_filter]
  refine List.filterMap_congr fun fact _ => ?_
  rw [hPicks]
  by_cases hSubject : fact.subject = name
  · cases hRead : read fact <;> simp [hSubject]
  · simp [hSubject]

/-- A fact includes into its subject only. -/
theorem Fact.includesInto_eq (name : String) (fact : Fact) :
    fact.includesInto name = (fact.subject = name && fact.included?.isSome) := by
  cases fact with
  | includes _ _ => exact (Bool.and_true _).symm
  | _ => exact (Bool.and_false _).symm

/-- A fact prepends to its subject only. -/
theorem Fact.prependsTo_eq (name : String) (fact : Fact) :
    fact.prependsTo name = (fact.subject = name && fact.prepended?.isSome) := by
  cases fact with
  | prepends _ _ => exact (Bool.and_true _).symm
  | _ => exact (Bool.and_false _).symm

/-- **The facts decide what is known**: two accounts of the same facts agree, if they agree on the
    mixin calls, whose order the facts do not give away. -/
theorem Account.unique {before : Option Declaration} {facts others : List Fact}
    {d d' : Declaration} (h : Account before facts d) (h' : Account before others d')
    (hMem : ∀ fact, fact ∈ facts ↔ fact ∈ others) (hIncludes : d.includes = d'.includes)
    (hPrepends : d.prepends = d'.prepends) : d = d' := by
  have hRoot : d.kind = .root ↔ d'.kind = .root := by rw [h.isRoot, h'.isRoot]
  have hMixin : d.kind = .mixin ↔ d'.kind = .mixin := by
    rw [h.isMixin, h'.isMixin]
    simp only [hMem]
  have hSuperclass : d.superclass = d'.superclass := by
    refine Option.ext fun written => ?_
    rw [h.superclass, h'.superclass]
    simp only [hMem]
  have hKind : d.kind = d'.kind := by
    cases hd : d.kind <;> cases hd' : d'.kind <;> simp_all
  obtain ⟨kind, superclass, includes, prepends⟩ := d
  cases d'
  cases hKind
  cases hSuperclass
  cases hIncludes
  cases hPrepends
  rfl

namespace DeclarationTable

/-- Does the line state a fact with this property? -/
def states (p : Fact → Bool) (line : List Char) : Bool :=
  (Fact.ofLine? (Text.trim line)).any p

/-- The facts of a kind are those of the lines that state one of this kind. -/
theorem filter_facts (p : Fact → Bool) (dump : String) :
    (facts dump).filter p = ((Text.lines dump.toList).filter (states p)).filterMap
      fun line => Fact.ofLine? (Text.trim line) := by
  rw [facts, List.filter_filterMap, List.filterMap_filter]
  refine List.filterMap_congr fun line _ => ?_
  rw [states]
  cases Fact.ofLine? (Text.trim line) with
  | none => rfl
  | some fact => cases hp : p fact <;> simp [hp]

/-- **Lines in another order** state their facts in another order. -/
theorem reordered_of_lines {dump dump' : String}
    (hPerm : (Text.lines dump.toList).Perm (Text.lines dump'.toList))
    (hIncludes : ∀ name, (Text.lines dump.toList).filter (states (·.includesInto name)) =
      (Text.lines dump'.toList).filter (states (·.includesInto name)))
    (hPrepends : ∀ name, (Text.lines dump.toList).filter (states (·.prependsTo name)) =
      (Text.lines dump'.toList).filter (states (·.prependsTo name))) :
    Reordered (facts dump) (facts dump') where
  perm := hPerm.filterMap _
  includes name := by rw [filter_facts, filter_facts, hIncludes]
  prepends name := by rw [filter_facts, filter_facts, hPrepends]

/-! ## What is known in the end -/

theorem known_eq_of_reordered {start table other : DeclarationTable} {facts facts' : List Fact}
    (hTable : start.addAll facts = some table) (hOther : start.addAll facts' = some other)
    (hReordered : Reordered facts facts') (name : String) :
    table.known.get? name = other.known.get? name := by
  have hRevisions := revisions_of_addAll hTable name
  have hRevisions' := revisions_of_addAll hOther name
  -- Only the facts about the name count, and they are reordered in the same way.
  have hPerm := hReordered.perm.filter (·.subject = name)
  by_cases hNone : facts.filter (·.subject = name) = []
  · -- Of a name without facts nothing has changed.
    rw [hNone] at hRevisions hPerm
    rw [← hPerm.nil_eq] at hRevisions'
    rw [hRevisions.eq_of_nil, hRevisions'.eq_of_nil]
  · have hNone' : facts'.filter (·.subject = name) ≠ [] := fun hNil =>
      hNone (List.perm_nil.1 (hNil ▸ hPerm))
    obtain ⟨d, hKnown, hAccount⟩ := hRevisions.account hNone
    obtain ⟨d', hKnown', hAccount'⟩ := hRevisions'.account hNone'
    rw [hKnown, hKnown']
    refine congrArg some (hAccount.unique hAccount' (fun _ => hPerm.mem_iff) ?_ ?_)
    · have hAbout := Fact.filterMap_about (Fact.includesInto_eq name)
      rw [hAccount.includes, hAccount'.includes, hAbout, hAbout, hReordered.includes name]
    · have hAbout := Fact.filterMap_about (Fact.prependsTo_eq name)
      rw [hAccount.prepends, hAccount'.prepends, hAbout, hAbout, hReordered.prepends name]

/-- The same names are declared, though not in the same order. -/
theorem declared_perm_of_reordered {start table other : DeclarationTable}
    {facts facts' : List Fact} (hStart : start.declared.Nodup)
    (hTable : start.addAll facts = some table) (hOther : start.addAll facts' = some other)
    (hReordered : Reordered facts facts') : table.declared.Perm other.declared := by
  obtain ⟨hNodup, hMem⟩ := declared_of_addAll hTable
  obtain ⟨hNodup', hMem'⟩ := declared_of_addAll hOther
  refine (List.perm_ext_iff_of_nodup (hNodup hStart) (hNodup' hStart)).2 fun name => ?_
  rw [hMem, hMem']
  simp only [hReordered.perm.mem_iff]

/-! ## What depends on it -/

section

variable {table other : DeclarationTable}
  (hKnown : ∀ name, table.known.get? name = other.known.get? name)

include hKnown

/-- What a reference means depends on which names are known, and not on their order. -/
theorem resolve_congr : table.resolve = other.resolve := by
  have hIsKnown : table.isKnown = other.isKnown := by
    funext name
    rw [isKnown, isKnown, OrderedMap.contains, OrderedMap.contains, hKnown]
  funext scopes reference
  rw [resolve, resolve, hIsKnown]

theorem superclassOf_congr (name : String) (d : Declaration) :
    table.superclassOf name d = other.superclassOf name d := by
  rw [superclassOf, superclassOf, resolve_congr hKnown]

theorem latestFirst_congr (name : String) (calls : List (List String)) :
    table.latestFirst name calls = other.latestFirst name calls := by
  rw [latestFirst, latestFirst, resolve_congr hKnown]

/-- A name refers to the same names in both tables. -/
theorem refers_congr : table.Refers = other.Refers := by
  funext name reference
  simp only [Refers, before, after, ← latestFirst_eq_mixedIn, hKnown, latestFirst_congr hKnown,
    superclassOf_congr hKnown]

/-- Tables that know the same expand names alike. -/
theorem Expands.congr {names expansion : List String} (hExpands : table.Expands names expansion) :
    other.Expands names expansion := by
  induction hExpands with
  | nil => exact .nil
  | unknown hUnknown _ ih => exact .unknown (hKnown _ ▸ hUnknown) ih
  | declared hName _ _ _ _ ihPrepended ihIncluded ihInherited ih =>
    rw [latestFirst_congr hKnown] at ihPrepended ihIncluded
    rw [superclassOf_congr hKnown] at ihInherited
    exact .declared (hKnown _ ▸ hName) ihPrepended ihIncluded ihInherited ih

end

/-! ## What is reported -/

/-- Every record of the one reading is a record of the other. -/
theorem records_subset {table other : DeclarationTable}
    (hKnown : ∀ name, table.known.get? name = other.known.get? name) {names names' : List String}
    (hNames : names ⊆ names') {records records' : List AncestorRecord}
    (hRecords : table.Recorded names (.ok records))
    (hRecords' : other.Recorded names' (.ok records')) : records ⊆ records' := by
  obtain ⟨rfl, hChains⟩ := hRecords
  obtain ⟨rfl, hChains'⟩ := hRecords'
  intro record hRecord
  obtain ⟨record', hRecord', hName⟩ := List.mem_map.1 (hNames (List.mem_map_of_mem hRecord))
  obtain ⟨expansion, hExpands, hAncestors⟩ := hChains record hRecord
  obtain ⟨expansion', hExpands', hAncestors'⟩ := hChains' record' hRecord'
  -- A name has one expansion, whichever of the two tables is asked.
  rw [hName] at hExpands'
  obtain rfl := (hExpands.congr hKnown).unique hExpands'
  obtain ⟨name, ancestors⟩ := record
  obtain ⟨name', ancestors'⟩ := record'
  obtain rfl : name' = name := hName
  obtain rfl : ancestors' = ancestors := hAncestors'.trans hAncestors.symm
  exact hRecord'

/-- A cycle that the one reading meets is there for the other one too. -/
theorem CycleFrom.congr {table other : DeclarationTable}
    (hKnown : ∀ name, table.known.get? name = other.known.get? name) {names names' : List String}
    (hNames : names ⊆ names') {failure : ExtractionFailure}
    (hCycle : table.CycleFrom names failure) : ¬ other.AcyclicFrom names' := by
  obtain ⟨name, hName, repeated, hReach, hRepeated, -⟩ := hCycle
  rw [refers_congr hKnown] at hReach hRepeated
  exact fun hAcyclic => hAcyclic name (hNames hName) repeated hReach hRepeated

/-- Where no name is asked for twice, no record is given twice. -/
theorem Recorded.nodup {table : DeclarationTable} {names : List String}
    {records : List AncestorRecord} (hRecords : table.Recorded names (.ok records))
    (hNames : names.Nodup) : records.Nodup := by
  refine List.Nodup.of_map (·.name) ?_
  rwa [hRecords.1]

/-- Two dumps that give the same knowledge and the same declared names are linearized alike: both
    meet a cycle, or both give the same records. -/
theorem linearize_perm_of_known {dump dump' : String} {table table' : DeclarationTable}
    (hDump : ofDump dump = .ok table) (hDump' : ofDump dump' = .ok table')
    (hKnown : ∀ name, table.known.get? name = table'.known.get? name)
    (hDeclared : table.declared.Perm table'.declared) (hNodup : table.declared.Nodup) :
    (∃ name name', linearize dump = .error (.cycle name) ∧
      linearize dump' = .error (.cycle name')) ∨
    ∃ records records', linearize dump = .ok records ∧ linearize dump' = .ok records' ∧
      records.map (·.name) = table.declared ∧ records.Perm records' := by
  have hKnown' : ∀ name, table'.known.get? name = table.known.get? name := fun name =>
    (hKnown name).symm
  have hSpec := records_spec table (memoSound_empty table) table.declared
  have hSpec' := records_spec table' (memoSound_empty table') table'.declared
  rw [linearize_of_ofDump hDump, linearize_of_ofDump hDump']
  cases hRecords : table.records .empty table.declared with
  | error failure =>
    rw [hRecords] at hSpec
    cases hRecords' : table'.records .empty table'.declared with
    | error failure' =>
      rw [hRecords'] at hSpec'
      obtain ⟨-, -, name, -, -, rfl⟩ := hSpec
      obtain ⟨-, -, name', -, -, rfl⟩ := hSpec'
      exact .inl ⟨name, name', rfl, rfl⟩
    | ok records' =>
      -- What was recorded reaches no cycle, and the other reading reaches the same.
      exact absurd (acyclicFrom_of_records hRecords')
        (CycleFrom.congr hKnown hDeclared.subset hSpec)
  | ok records =>
    rw [hRecords] at hSpec
    cases hRecords' : table'.records .empty table'.declared with
    | error failure' =>
      rw [hRecords'] at hSpec'
      exact absurd (acyclicFrom_of_records hRecords)
        (CycleFrom.congr hKnown' hDeclared.symm.subset hSpec')
    | ok records' =>
      rw [hRecords'] at hSpec'
      refine .inr ⟨records, records', rfl, rfl, hSpec.1, ?_⟩
      have hNodup' := hDeclared.nodup_iff.1 hNodup
      exact (List.perm_ext_iff_of_nodup (hSpec.nodup hNodup) (hSpec'.nodup hNodup')).2 fun record =>
        ⟨fun h => records_subset hKnown hDeclared.subset hSpec hSpec' h,
          fun h => records_subset hKnown' hDeclared.symm.subset hSpec' hSpec h⟩

/-- **The order of loading does not matter.**  Let two dumps state the same facts in different
    orders, but the `include`s into each name in one order, and its `prepend`s too; they do if the
    lines of the one are those of the other (`reordered_of_lines`), and lines that state nothing may
    come and go.  If both can be read, then either both fail with a cycle, or both give each
    declared name its one record, the same from both; only the order of the records may be
    another. -/
theorem linearize_of_reordered (dump dump' : String) (table table' : DeclarationTable)
    (hDump : ofDump dump = .ok table) (hDump' : ofDump dump' = .ok table')
    (hReordered : Reordered (facts dump) (facts dump')) :
    (∃ name name', linearize dump = .error (.cycle name) ∧
      linearize dump' = .error (.cycle name')) ∨
    ∃ records records', linearize dump = .ok records ∧ linearize dump' = .ok records' ∧
      records.map (·.name) = table.declared ∧ table.declared.Nodup ∧ records.Perm records' := by
  have hTable := addAll_of_ofDump hDump
  have hTable' := addAll_of_ofDump hDump'
  have hKnown := known_eq_of_reordered hTable hTable' hReordered
  have hDeclared := declared_perm_of_reordered List.nodup_nil hTable hTable' hReordered
  have hNodup : table.declared.Nodup := (declared_of_addAll hTable).1 List.nodup_nil
  refine (linearize_perm_of_known hDump hDump' hKnown hDeclared hNodup).imp_right ?_
  rintro ⟨records, records', hRecords, hRecords', hNames, hPerm⟩
  exact ⟨records, records', hRecords, hRecords', hNames, hNodup, hPerm⟩

/-- **The order of the lines does not matter**, as long as the lines that `include` into one name
    stay in order, and those that `prepend` to it. -/
theorem linearize_of_permuted_lines {dump dump' : String} {table table' : DeclarationTable}
    (hDump : ofDump dump = .ok table) (hDump' : ofDump dump' = .ok table')
    (hPerm : (Text.lines dump.toList).Perm (Text.lines dump'.toList))
    (hIncludes : ∀ name, (Text.lines dump.toList).filter (states (·.includesInto name)) =
      (Text.lines dump'.toList).filter (states (·.includesInto name)))
    (hPrepends : ∀ name, (Text.lines dump.toList).filter (states (·.prependsTo name)) =
      (Text.lines dump'.toList).filter (states (·.prependsTo name))) :
    (∃ name name', linearize dump = .error (.cycle name) ∧
      linearize dump' = .error (.cycle name')) ∨
    ∃ records records', linearize dump = .ok records ∧ linearize dump' = .ok records' ∧
      records.map (·.name) = table.declared ∧ records.Perm records' := by
  have hReordered := reordered_of_lines hPerm hIncludes hPrepends
  have hTable := addAll_of_ofDump hDump
  have hTable' := addAll_of_ofDump hDump'
  exact linearize_perm_of_known hDump hDump' (known_eq_of_reordered hTable hTable' hReordered)
    (declared_perm_of_reordered List.nodup_nil hTable hTable' hReordered)
    ((declared_of_addAll hTable).1 List.nodup_nil)

/-- A class that is opened before its superclass is given and before a module it includes is
    declared, and a class of the core that includes this module too. -/
def pageDump : String :=
  "class Page\ninclude Page Box\nmodule Box\nclass Page Base\ninclude String Box\ninclude Page Tag"

/-- The lines of that dump in another order, and an empty one. -/
def pageDumpReordered : String :=
  "include String Box\nmodule Box\n\nclass Page Base\n" ++
    "include Page Box\ninclude Page Tag\nclass Page"

/-- What is known of the class of the core after either of them. -/
def stringWithBox : Declaration where
  kind := .ordinary
  superclass := some "Object"
  includes := [["Comparable"], ["Box"]]

/-- What is known of the class they declare. -/
def pageClass : Declaration where
  kind := .ordinary
  superclass := some "Base"
  includes := [["Box"], ["Tag"]]

/-- What `pageDump` declares, in its order. -/
def page : DeclarationTable where
  known := (OrderedMap.ofList core).insert "String" stringWithBox |>.insert "Page" pageClass
    |>.insert "Box" { kind := .mixin }
  declared := ["Page", "Box"]

/-- What the same lines declare in another order. -/
def pageReordered : DeclarationTable where
  known := (OrderedMap.ofList core).insert "String" stringWithBox
    |>.insert "Box" { kind := .mixin } |>.insert "Page" pageClass
  declared := ["Box", "Page"]

theorem facts_pageDump : facts pageDump = [
    .isClass "Page" none, .includes "Page" ["Box"], .isModule "Box", .isClass "Page" (some "Base"),
    .includes "String" ["Box"], .includes "Page" ["Tag"]] := by
  decide +kernel

theorem facts_pageDumpReordered : facts pageDumpReordered = [
    .includes "String" ["Box"], .isModule "Box", .isClass "Page" (some "Base"),
    .includes "Page" ["Box"], .includes "Page" ["Tag"], .isClass "Page" none] := by
  decide +kernel

/-- The second order moves no inclusion past another into the same name. -/
theorem reordered_pageDump : Reordered (facts pageDump) (facts pageDumpReordered) := by
  rw [facts_pageDump, facts_pageDumpReordered]
  refine ⟨by decide, fun name => ?_, fun _ => rfl⟩
  by_cases hPage : "Page" = name
  · subst hPage
    decide
  · by_cases hString : "String" = name
    · subst hString
      decide
    · simp [Fact.includesInto, hPage, hString]

/-- A name refers only to names before it, if the names that the dump adds come first. -/
theorem page_falls : ∀ entry ∈ page.known.entries,
    ∀ other ∈ page.before entry.1 entry.2 ++ page.after entry.1 entry.2,
      (["Box", "Tag", "Base"] ++ page.known.keys).idxOf other <
        (["Box", "Tag", "Base"] ++ page.known.keys).idxOf entry.1 := by
  decide +kernel

theorem linearize_of_reordered_pageDump :
    ofDump pageDump = .ok page ∧ ofDump pageDumpReordered = .ok pageReordered ∧
      Reordered (facts pageDump) (facts pageDumpReordered) ∧
      ∃ records records', linearize pageDump = .ok records ∧
        linearize pageDumpReordered = .ok records' ∧ records.map (·.name) = ["Page", "Box"] ∧
        records.Perm records' := by
  have hDump : ofDump pageDump = .ok page := rfl
  have hDump' : ofDump pageDumpReordered = .ok pageReordered := rfl
  refine ⟨hDump, hDump', reordered_pageDump, ?_⟩
  rcases linearize_of_reordered pageDump pageDumpReordered page pageReordered hDump hDump'
      reordered_pageDump with
    ⟨name, -, hFails, -⟩ | ⟨records, records', hRecords, hRecords', hNames, -, hPerm⟩
  · have hSpec := records_spec page (memoSound_empty page) page.declared
    rw [← linearize_of_ofDump hDump, hFails] at hSpec
    exact absurd (acyclicFrom_of_rank _ page_falls page.declared)
      (CycleFrom.congr (fun _ => rfl) (List.Subset.refl _) hSpec)
  · exact ⟨records, records', hRecords, hRecords', hNames, hPerm⟩

end DeclarationTable

end Lineage
