/-
  Names in records stand on one line, and names on chains are without white space.

  Both readers take what they read from lines.  A printed chain is read word by word; the name in
  front of it may have blanks in it, but ends before the line does (`ObjectSpace.parse_names`).

  Declarations are read word by word altogether, and a chain is made of what references lead to.  A
  reference is taken for a known name or as it is written (`isKnown_resolve_or`), and either is a
  word of the dump or of the core.  So no chain goes outside of these words (`linearize_names`),
  though the names that are looked up on the way are put together anew.
-/
import Lineage.Proofs.Ancestry.Language
import Lineage.Proofs.Ancestry.PrintedChains

namespace Lineage

/-- There is no white space in the name. -/
def Plain (name : String) : Prop := ∀ c ∈ name.toList, Text.isBlank c = false

instance (name : String) : Decidable (Plain name) := List.decidableBAll _ name.toList

theorem Text.IsWord.plain {word : List Char} (hWord : IsWord word) :
    Plain (String.ofList word) := by
  rw [Plain, String.toList_ofList]
  exact hWord.unbroken

theorem Plain.not_mem {name : String} (hName : Plain name) {c : Char}
    (hBlank : Text.isBlank c = true) : c ∉ name.toList := by
  intro hMem
  exact Bool.false_ne_true ((hName c hMem).symm.trans hBlank)

/-! ## Printed chains -/

namespace ObjectSpace

/-- A record that can be read from a line: its name stands on the line, its ancestors are words. -/
structure FromLine (name : String) (ancestors : List String) : Prop where
  name : '\n' ∉ name.toList
  ancestors : ∀ ancestor ∈ ancestors, Plain ancestor

/-- The part before the colon is made of characters of the line. -/
theorem splitAtColon_subset {text before after : List Char}
    (hSplit : splitAtColon text = some (before, after)) : before ⊆ text := by
  fun_induction splitAtColon text generalizing before after with
  | case1 rest =>
    cases hSplit
    exact List.nil_subset _
  | case2 c rest hOther ih =>
    obtain ⟨⟨front, behind⟩, hRest, hParts⟩ := Option.map_eq_some_iff.1 hSplit
    cases hParts
    exact List.cons_subset_cons c (ih hRest)
  | case3 => cases hSplit

/-- What is read from a line stands on it. -/
theorem fromLine_of_entry? {line name : List Char} {ancestors : List (List Char)}
    (hLine : '\n' ∉ line) (hEntry : entry? line = some (name, ancestors)) :
    FromLine (String.ofList name) (ancestors.map String.ofList) := by
  -- A line with `: ` and one that ends in `:` differ only in what is taken for the chain.
  have hParts : ∀ front chain, front ⊆ line → (if Text.trim front = [] then none else
      some (Text.trim front, (Text.words chain).filter fun word => !isAnonymous word)) =
        some (name, ancestors) → FromLine (String.ofList name) (ancestors.map String.ofList) := by
    intro front chain hFront hBoth
    split at hBoth
    · cases hBoth
    · cases hBoth
      constructor
      case name =>
        rw [String.toList_ofList]
        exact fun hMem => hLine (hFront (Text.trim_subset front hMem))
      case ancestors =>
        refine List.forall_mem_map.2 fun word hWord => ?_
        exact (Text.isWord_of_mem_words (List.mem_filter.1 hWord).1).plain
  unfold entry? at hEntry
  split at hEntry
  · rename_i parts hSplit
    exact hParts _ _ (splitAtColon_subset hSplit) hEntry
  · split at hEntry
    · exact hParts _ _ (List.dropLast_subset line) hEntry
    · cases hEntry

/-- Reading on keeps what has been read so far. -/
theorem fromLine_of_addLines {lines : List (List Char)} (hLines : ∀ line ∈ lines, '\n' ∉ line)
    {chains last : OrderedMap String (List String)} {number : Nat}
    (hChains : ∀ name ancestors, chains.get? name = some ancestors → FromLine name ancestors)
    (hAdd : addLines chains number lines = .ok last) :
    ∀ name ancestors, last.get? name = some ancestors → FromLine name ancestors := by
  -- On the lines, for any chains that come from lines already.
  induction lines generalizing chains number with
  | nil =>
    cases hAdd
    exact hChains
  | cons line rest ih =>
    obtain ⟨hLine, hRest⟩ := List.forall_mem_cons.1 hLines
    have hContent : '\n' ∉ Text.trim line := fun hMem => hLine (Text.trim_subset line hMem)
    rw [addLines] at hAdd
    split at hAdd
    · exact ih hRest hChains hAdd
    · split at hAdd
      · cases hAdd
      · rename_i name ancestors hEntry
        split at hAdd
        · exact ih hRest hChains hAdd
        · refine ih hRest (fun other chain hChain => ?_) hAdd
          rw [OrderedMap.get?_insert] at hChain
          split at hChain
          · rename_i hSame
            cases hChain
            rw [hSame]
            exact fromLine_of_entry? hContent hEntry
          · exact hChains other chain hChain

/-- **The records of printed chains** are read from lines. -/
theorem parse_names {output : String} {records : List AncestorRecord}
    (hParse : parse output = .ok records) :
    ∀ record ∈ records, FromLine record.name record.ancestors := by
  rw [parse] at hParse
  cases hAdd : addLines .empty 1 (Text.lines output.toList) with
  | error failure =>
    rw [hAdd] at hParse
    cases hParse
  | ok chains =>
    rw [hAdd] at hParse
    cases hParse
    intro record hRecord
    obtain ⟨⟨name, ancestors⟩, hEntry, rfl⟩ :=
      List.mem_map.1 ((List.mergeSort_perm _ _).mem_iff.1 hRecord)
    have hNothing : ∀ name ancestors, OrderedMap.empty.get? name = some ancestors →
        FromLine name ancestors := by
      intro name ancestors hChain
      cases hChain
    exact fromLine_of_addLines (fun _ => Text.newline_not_mem_of_mem_lines) hNothing hAdd name
      ancestors (OrderedMap.get?_eq_some_iff_mem.2 hEntry)

end ObjectSpace

/-! ## Declarations -/

/-- The names that a fact is made of. -/
def Fact.names : Fact → List String
  | isClass name superclass => name :: superclass.toList
  | isModule name => [name]
  | includes name modules => name :: modules
  | prepends name modules => name :: modules

/-- The names that a declaration refers to, as they are written. -/
def Declaration.references (d : Declaration) : List String :=
  d.prepends.flatten ++ d.includes.flatten ++ d.superclassOrDefault.toList

namespace Fact

theorem subject_mem_names (fact : Fact) : fact.subject ∈ fact.names := by
  cases fact <;> exact List.mem_cons_self

/-- All names in a fact are words of the line that spells it. -/
theorem Spelled.names_subset {words : List String} {fact : Fact} (hSpelled : Spelled words fact) :
    fact.names ⊆ words := by
  cases hSpelled <;> simp [names]

theorem subset_names_of_included? {fact : Fact} {modules : List String}
    (hModules : fact.included? = some modules) : modules ⊆ fact.names := by
  cases fact with
  | includes _ _ =>
    cases hModules
    exact List.subset_cons_self _ _
  | _ => cases hModules

theorem subset_names_of_prepended? {fact : Fact} {modules : List String}
    (hModules : fact.prepended? = some modules) : modules ⊆ fact.names := by
  cases fact with
  | prepends _ _ =>
    cases hModules
    exact List.subset_cons_self _ _
  | _ => cases hModules

theorem mem_names_of_superclass? {fact : Fact} {written : String}
    (hWritten : fact.superclass? = some written) : written ∈ fact.names := by
  cases fact with
  | isClass _ _ =>
    cases hWritten
    simp [names]
  | _ => cases hWritten

end Fact

namespace DeclarationTable

variable {table : DeclarationTable} {name : String} {d : Declaration}

/-- The words of a fact are words. -/
theorem plain_of_mem_facts {dump : String} {fact : Fact} (hFact : fact ∈ facts dump) :
    ∀ name ∈ fact.names, Plain name := by
  intro name hName
  obtain ⟨line, -, hLine⟩ := List.mem_filterMap.1 hFact
  rw [Fact.ofLine?] at hLine
  split at hLine
  · cases hLine
  · have hWords := (Fact.ofWords?_eq_some_iff.1 hLine).names_subset hName
    obtain ⟨word, hWord, rfl⟩ := List.mem_map.1 hWords
    exact (Text.isWord_of_mem_words hWord).plain

theorem plain_of_mem_core : ∀ entry ∈ core,
    Plain entry.1 ∧ ∀ reference ∈ entry.2.references, Plain reference := by
  decide +kernel

/-- The calls of a known name have been written in the core or in a fact. -/
theorem plain_of_mem_calls {before : Option Declaration} {about : List Fact}
    {calls : Declaration → List (List String)} {read : Fact → Option (List String)}
    (hCalls : calls d = before.elim [] calls ++ about.filterMap read)
    (hBefore : ∀ first, before = some first → ∀ reference ∈ (calls first).flatten, Plain reference)
    (hAbout : ∀ fact ∈ about, ∀ modules, read fact = some modules →
      ∀ reference ∈ modules, Plain reference) :
    ∀ reference ∈ (calls d).flatten, Plain reference := by
  intro reference hReference
  obtain ⟨call, hCall, hMem⟩ := List.mem_flatten.1 hReference
  rw [hCalls] at hCall
  rcases List.mem_append.1 hCall with hCall | hCall
  · cases hFirst : before with
    | none =>
      rw [hFirst] at hCall
      cases hCall
    | some first =>
      rw [hFirst] at hCall
      exact hBefore first hFirst reference (List.mem_flatten.2 ⟨call, hCall, hMem⟩)
  · obtain ⟨fact, hFact, hRead⟩ := List.mem_filterMap.1 hCall
    exact hAbout fact hFact call hRead reference hMem

/-- **What is known of a name** is put in words, and so is the name. -/
theorem plain_of_known {dump : String} (hDump : ofDump dump = .ok table)
    (hKnown : table.known.get? name = some d) :
    Plain name ∧ ∀ reference ∈ d.references, Plain reference := by
  have hTable := addAll_of_ofDump hDump
  have hRevisions := revisions_of_addAll hTable name
  rw [hKnown] at hRevisions
  have hAccount := hRevisions.account_of_some
  -- A reference comes from the core, from a fact, or is the implicit `Object`.
  have hCore : ∀ first, initial.known.get? name = some first →
      ∀ reference ∈ first.references, Plain reference := fun first hFirst =>
    (plain_of_mem_core (name, first) (get?_initial_eq_some_iff.1 hFirst)).2
  have hAbout : ∀ fact ∈ (facts dump).filter (·.subject = name),
      ∀ other ∈ fact.names, Plain other := fun fact hFact =>
    plain_of_mem_facts (List.mem_filter.1 hFact).1
  refine ⟨?_, fun reference hReference => ?_⟩
  · rcases names_iff.1 ((known_iff_names hTable).1 ⟨d, hKnown⟩) with ⟨first, hEntry⟩ |
      ⟨fact, hFact, rfl, -⟩
    · exact (plain_of_mem_core _ hEntry).1
    · exact plain_of_mem_facts hFact _ fact.subject_mem_names
  · rw [Declaration.references, List.mem_append, List.mem_append] at hReference
    rcases hReference with (hPrepended | hIncluded) | hSuperclass
    · refine plain_of_mem_calls hAccount.prepends (fun first hFirst other hOther => ?_)
        (fun fact hFact modules hModules other hOther => ?_) reference hPrepended
      · exact hCore first hFirst other (by simp [Declaration.references, hOther])
      · exact hAbout fact hFact other (Fact.subset_names_of_prepended? hModules hOther)
    · refine plain_of_mem_calls hAccount.includes (fun first hFirst other hOther => ?_)
        (fun fact hFact modules hModules other hOther => ?_) reference hIncluded
      · exact hCore first hFirst other (by simp [Declaration.references, hOther])
      · exact hAbout fact hFact other (Fact.subset_names_of_included? hModules hOther)
    · rw [Option.mem_toList, Declaration.superclassOrDefault] at hSuperclass
      split at hSuperclass
      · rename_i written hWritten
        cases hSuperclass
        rcases (hAccount.superclass reference).1 hWritten with hBefore | ⟨fact, hFact, hGiven⟩
        · obtain ⟨first, hFirst, hGiven⟩ := Option.bind_eq_some_iff.1 hBefore
          refine hCore first hFirst reference ?_
          simp [Declaration.references, Declaration.superclassOrDefault, hGiven]
        · exact hAbout fact hFact reference (Fact.mem_names_of_superclass? hGiven)
      · cases hSuperclass
        decide
      · cases hSuperclass

/-- A reference means something known, or is taken as it is written. -/
theorem isKnown_resolve_or (table : DeclarationTable) (scopes : List String) (reference : String) :
    table.isKnown (table.resolve scopes reference) = true ∨
      table.resolve scopes reference = reference := by
  rw [resolve, Scope.resolve]
  cases hFound : (scopes.map (Scope.qualify · reference)).find? table.isKnown with
  | none => exact .inr rfl
  | some found => exact .inl (List.find?_some hFound)

/-- A name that another one refers to is known, or is one of its references. -/
theorem isKnown_or_mem_references {other : String}
    (hOther : other ∈ table.before name d ++ table.after name d) :
    table.isKnown other = true ∨ other ∈ d.references := by
  -- What is resolved is a known name, or the reference as it was written.
  have hMixedIn : ∀ calls : List (List String), other ∈ table.mixedIn name calls →
      table.isKnown other = true ∨ other ∈ calls.flatten := by
    intro calls hMem
    obtain ⟨reference, hReference, rfl⟩ := List.mem_map.1 hMem
    refine (table.isKnown_resolve_or _ reference).imp_right fun hWritten => ?_
    rw [hWritten]
    simpa using hReference
  rw [before, after, List.mem_append, List.mem_append] at hOther
  rw [Declaration.references, List.mem_append, List.mem_append]
  rcases hOther with hPrepended | hIncluded | hSuperclass
  · exact (hMixedIn _ hPrepended).imp_right fun hMem => .inl (.inl hMem)
  · exact (hMixedIn _ hIncluded).imp_right fun hMem => .inl (.inr hMem)
  · rw [Option.mem_toList, superclassOf, Option.map_eq_some_iff] at hSuperclass
    obtain ⟨written, hWritten, rfl⟩ := hSuperclass
    have hMem : written ∈ d.superclassOrDefault.toList := Option.mem_toList.2 hWritten
    dsimp only
    split
    · exact .inr (.inr hMem)
    · refine (table.isKnown_resolve_or _ written).imp_right fun hAsWritten => ?_
      rw [hAsWritten]
      exact .inr hMem

theorem plain_of_isKnown {dump : String} (hDump : ofDump dump = .ok table)
    (hKnown : table.isKnown name = true) : Plain name := by
  obtain ⟨d, hEntry⟩ := Option.isSome_iff_exists.1 hKnown
  exact (plain_of_known hDump hEntry).1

/-- **A chain that starts with a plain name has plain names only.** -/
theorem plain_of_mem_chain {dump : String} {linear : List String} (hDump : ofDump dump = .ok table)
    (hName : Plain name) (hChain : table.chainOf name = .ok linear) :
    ∀ other ∈ linear, Plain other := by
  intro other hOther
  induction (mem_chainOf_iff hChain).1 hOther with
  | refl => exact hName
  | tail hReach hRefers ih =>
    obtain ⟨d, hKnown, hMem⟩ := hRefers
    rcases isKnown_or_mem_references hMem with hOtherKnown | hReference
    · exact plain_of_isKnown hDump hOtherKnown
    · exact (plain_of_known hDump hKnown).2 _ hReference

/-- **The records of declarations** have plain names, and plain ancestors. -/
theorem linearize_names {dump : String} {records : List AncestorRecord}
    (hLinearize : linearize dump = .ok records) :
    ∀ record ∈ records, Plain record.name ∧ ∀ ancestor ∈ record.ancestors, Plain ancestor := by
  obtain ⟨table, hDump, hNames, hChains⟩ := exists_table_of_linearize hLinearize
  intro record hRecord
  have hDeclared : record.name ∈ table.declared := hNames ▸ List.mem_map_of_mem hRecord
  obtain hNone | ⟨fact, hFact, -, hSubject⟩ :=
    ((declared_of_addAll (addAll_of_ofDump hDump)).2 record.name).1 hDeclared
  · cases hNone
  · have hName : Plain record.name :=
      hSubject ▸ plain_of_mem_facts hFact _ fact.subject_mem_names
    exact ⟨hName, plain_of_mem_chain hDump hName (hChains record hRecord)⟩

end DeclarationTable

end Lineage
