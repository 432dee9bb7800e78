/-
  The language of dumps.

  The reader goes through a dump once, line by line, and holds what it knows against each line.
  What it accepts can be said without a reader and without a table, of the dump as a whole
  (`InLanguage`):

      every line is silent or SPELLS a fact,
      and the facts are CONSISTENT, with each other and with the core.

  Most rules of consistency do not know which fact came first: a name is called a class by one fact
  and a module by another, or two facts give one class different superclasses.  Only a mixin looks
  back, for what has named its target before.

  The crux is that one more fact is refused exactly where it spoils the consistency
  (`isSome_add?_iff`, `consistent_concat`).  The reader sees one entry of its table, while the rules
  speak of all facts so far; so the entry has to tell of them all that matters, which is what
  `Portrait` says.
-/
import Lineage.Proofs.Ancestry.Shape

namespace Lineage

/-! ## The lines that state something -/

/-- `Spelled words fact`: this is how the fact is written. -/
inductive Fact.Spelled : List String → Fact → Prop
  | newClass (name : String) : Spelled ["class", name] (.isClass name none)
  | inherits (name superclass : String) :
      Spelled ["class", name, superclass] (.isClass name (some superclass))
  | isModule (name : String) : Spelled ["module", name] (.isModule name)
  | includes (name : String) {modules : List String} (hSome : modules ≠ []) :
      Spelled ("include" :: name :: modules) (.includes name modules)
  | prepends (name : String) {modules : List String} (hSome : modules ≠ []) :
      Spelled ("prepend" :: name :: modules) (.prepends name modules)

/-- The words of a line state a fact if and only if they spell it. -/
theorem Fact.ofWords?_eq_some_iff {words : List String} {fact : Fact} :
    Fact.ofWords? words = some fact ↔ Spelled words fact := by
  constructor
  · intro hFact
    rw [ofWords?.eq_def] at hFact
    split at hFact
    case h_6 => cases hFact
    all_goals
      cases hFact
      first
        | exact .newClass _
        | exact .inherits _ _
        | exact .isModule _
        | exact .includes _ (List.cons_ne_nil _ _)
        | exact .prepends _ (List.cons_ne_nil _ _)
  · rintro (_ | _ | _ | @⟨name, modules, hSome⟩ | @⟨name, modules, hSome⟩)
    case newClass | inherits | isModule => rfl
    all_goals
      obtain ⟨first, rest, rfl⟩ := List.exists_cons_of_ne_nil hSome
      rfl

theorem Fact.saysModule_iff {fact : Fact} {name : String} :
    fact.subject = name ∧ fact.saysModule = true ↔ fact = .isModule name := by
  cases fact <;> simp [subject]

theorem Fact.superclass?_iff {fact : Fact} {name written : String} :
    fact.subject = name ∧ fact.superclass? = some written ↔
      fact = .isClass name (some written) := by
  cases fact <;> simp [subject]

theorem Fact.declares_iff {fact : Fact} {name : String} :
    fact.subject = name ∧ fact.declares = true ↔
      fact = .isModule name ∨ ∃ superclass, fact = .isClass name superclass := by
  cases fact <;> simp [subject, declares]

namespace DeclarationTable

/-- The line is blank or a comment, or its words spell a fact. -/
def IsSpelled (line : List Char) : Prop :=
  isSilent (Text.trim line) = true ∨
    ∃ fact, Fact.Spelled ((Text.words (Text.trim line)).map String.ofList) fact

/-- The facts that some lines state. -/
def stated (lines : List (List Char)) : List Fact :=
  lines.filterMap fun line => Fact.ofLine? (Text.trim line)

/-! ## What facts say of a name -/

/-- The core or a fact calls the name a class. -/
def CallsClass (facts : List Fact) (name : String) : Prop :=
  (∃ d, (name, d) ∈ core ∧ d.kind ≠ .mixin) ∨ ∃ superclass, .isClass name superclass ∈ facts

/-- The core or a fact calls the name a module. -/
def CallsModule (facts : List Fact) (name : String) : Prop :=
  (∃ d, (name, d) ∈ core ∧ d.kind = .mixin) ∨ .isModule name ∈ facts

/-- The core or a fact calls the name something. -/
def Names (facts : List Fact) (name : String) : Prop :=
  CallsClass facts name ∨ CallsModule facts name

/-- The core or a fact gives the class this superclass. -/
def Gives (facts : List Fact) (name written : String) : Prop :=
  (∃ d, (name, d) ∈ core ∧ d.superclass = some written) ∨ .isClass name (some written) ∈ facts

/-- **The rules of a dump**, as rules for all of its facts. -/
structure Consistent (facts : List Fact) : Prop where
  /-- No name is both a class and a module. -/
  oneKind : ∀ name, CallsClass facts name → ¬ CallsModule facts name
  /-- All superclasses of a class are the same. -/
  oneSuperclass : ∀ name first second, Gives facts name first → Gives facts name second →
    first = second
  /-- The class above all others is given none. -/
  root : ∀ written, .isClass "BasicObject" (some written) ∉ facts
  /-- What something is mixed into has been named before. -/
  targets : ∀ earlier fact later, facts = earlier ++ fact :: later → fact.declares = false →
    Names earlier fact.subject

/-- **The language**: each line is spelled, and together their facts obey the rules. -/
structure InLanguage (lines : List (List Char)) : Prop where
  spelled : ∀ line ∈ lines, IsSpelled line
  consistent : Consistent (stated lines)

section

variable {facts : List Fact} {fact : Fact} {name written : String} {table : DeclarationTable}

theorem get?_initial_eq_some_iff {d : Declaration} :
    initial.known.get? name = some d ↔ (name, d) ∈ core :=
  OrderedMap.get?_eq_some_iff_mem

/-- A name has one entry in the core at most. -/
theorem eq_of_mem_core {first second : Declaration} (hFirst : (name, first) ∈ core)
    (hSecond : (name, second) ∈ core) : first = second := by
  rw [← get?_initial_eq_some_iff] at hFirst hSecond
  exact Option.some.inj (hFirst.symm.trans hSecond)

/-- Something calls the name something if the core does or a fact declares it. -/
theorem names_iff : Names facts name ↔
    (∃ d, (name, d) ∈ core) ∨ ∃ fact ∈ facts, fact.subject = name ∧ fact.declares = true := by
  constructor
  · rintro ((⟨d, hEntry, -⟩ | ⟨superclass, hFact⟩) | (⟨d, hEntry, -⟩ | hFact))
    · exact .inl ⟨d, hEntry⟩
    · exact .inr ⟨_, hFact, rfl, rfl⟩
    · exact .inl ⟨d, hEntry⟩
    · exact .inr ⟨_, hFact, rfl, rfl⟩
  · rintro (⟨d, hEntry⟩ | ⟨fact, hFact, hDeclares⟩)
    · by_cases hKind : d.kind = .mixin
      · exact .inr (.inl ⟨d, hEntry, hKind⟩)
      · exact .inl (.inl ⟨d, hEntry, hKind⟩)
    · rcases Fact.declares_iff.1 hDeclares with rfl | ⟨superclass, rfl⟩
      · exact .inr (.inr hFact)
      · exact .inl (.inr ⟨superclass, hFact⟩)

theorem callsClass_concat : CallsClass (facts ++ [fact]) name ↔
    CallsClass facts name ∨ ∃ superclass, fact = .isClass name superclass := by
  simp only [CallsClass, List.mem_append, List.mem_singleton, exists_or, or_assoc,
    eq_comm (a := fact)]

theorem callsModule_concat : CallsModule (facts ++ [fact]) name ↔
    CallsModule facts name ∨ fact = .isModule name := by
  simp only [CallsModule, List.mem_append, List.mem_singleton, or_assoc, eq_comm (a := fact)]

theorem gives_concat : Gives (facts ++ [fact]) name written ↔
    Gives facts name written ∨ fact = .isClass name (some written) := by
  simp only [Gives, List.mem_append, List.mem_singleton, or_assoc, eq_comm (a := fact)]

/-- What is given a superclass is called a class. -/
theorem Gives.callsClass (hGives : Gives facts name written) : CallsClass facts name := by
  have hCore : ∀ entry ∈ core, entry.2.superclass ≠ none → entry.2.kind ≠ .mixin := by
    decide +kernel
  rcases hGives with ⟨d, hEntry, hSuperclass⟩ | hFact
  · exact .inl ⟨d, hEntry, hCore _ hEntry (by simp [hSuperclass])⟩
  · exact .inr ⟨_, hFact⟩

/-! ## One more fact -/

/-- What a fact has to respect of the facts before it. -/
def Admits (facts : List Fact) : Fact → Prop
  | .isClass name superclass => ¬ CallsModule facts name ∧
      ∀ written, superclass = some written → name ≠ "BasicObject" ∧
        ∀ other, Gives facts name other → other = written
  | .isModule name => ¬ CallsClass facts name
  | .includes name _ => Names facts name
  | .prepends name _ => Names facts name

/-- The core obeys the rules. -/
theorem consistent_nil : Consistent [] where
  oneKind name hClass hModule := by
    rcases hClass with ⟨d, hEntry, hKind⟩ | ⟨_, hFact⟩
    · rcases hModule with ⟨other, hOther, hMixin⟩ | hFact
      · exact hKind (eq_of_mem_core hEntry hOther ▸ hMixin)
      · cases hFact
    · cases hFact
  oneSuperclass name first second hFirst hSecond := by
    rcases hFirst with ⟨d, hEntry, hSuperclass⟩ | hFact
    · rcases hSecond with ⟨other, hOther, hToo⟩ | hFact
      · rw [eq_of_mem_core hEntry hOther, hToo] at hSuperclass
        exact (Option.some.inj hSuperclass).symm
      · cases hFact
    · cases hFact
  root _ := List.not_mem_nil
  targets earlier fact later hFacts := by simp at hFacts

/-- Rules that hold of many facts hold of the first ones. -/
theorem Consistent.front {more : List Fact} (hConsistent : Consistent (facts ++ more)) :
    Consistent facts where
  oneKind name hClass hModule := hConsistent.oneKind name
    (hClass.imp_right fun ⟨superclass, hFact⟩ => ⟨superclass, List.mem_append_left _ hFact⟩)
    (hModule.imp_right (List.mem_append_left _))
  oneSuperclass name first second hFirst hSecond := hConsistent.oneSuperclass name first second
    (hFirst.imp_right (List.mem_append_left _)) (hSecond.imp_right (List.mem_append_left _))
  root written hFact := hConsistent.root written (List.mem_append_left _ hFact)
  targets earlier fact later hFacts hMixin := by
    refine hConsistent.targets earlier fact (later ++ more) ?_ hMixin
    rw [hFacts, List.append_assoc, List.cons_append]

/-- A mixin respects the facts before it if they name its target. -/
theorem admits_of_mixin (hMixin : fact.declares = false) :
    Admits facts fact ↔ Names facts fact.subject := by
  cases fact with
  | isClass _ _ | isModule _ => cases hMixin
  | includes _ _ | prepends _ _ => exact Iff.rfl

/-- In a consistent list the last fact is one that those before it admit. -/
theorem Consistent.admits (hConsistent : Consistent (facts ++ [fact])) : Admits facts fact := by
  cases fact with
  | isClass name superclass =>
    refine ⟨fun hModule => hConsistent.oneKind name (callsClass_concat.2 (.inr ⟨_, rfl⟩))
      (callsModule_concat.2 (.inl hModule)), ?_⟩
    rintro written rfl
    refine ⟨?_, fun other hOther => hConsistent.oneSuperclass name other written
      (gives_concat.2 (.inl hOther)) (gives_concat.2 (.inr rfl))⟩
    rintro rfl
    exact hConsistent.root written (List.mem_append_right _ (List.mem_singleton_self _))
  | isModule name =>
    exact fun hClass => hConsistent.oneKind name (callsClass_concat.2 (.inl hClass))
      (callsModule_concat.2 (.inr rfl))
  | includes _ _ | prepends _ _ => exact hConsistent.targets facts _ [] rfl rfl

/-- A consistent list stays consistent by a fact that it admits. -/
theorem Consistent.concat (hConsistent : Consistent facts) (hAdmits : Admits facts fact) :
    Consistent (facts ++ [fact]) where
  -- In each field: what the earlier facts say is consistent, and the last one is admitted by them.
  oneKind name hClass hModule := by
    rcases callsClass_concat.1 hClass with hEarlier | ⟨superclass, rfl⟩
    · rcases callsModule_concat.1 hModule with hToo | rfl
      · exact hConsistent.oneKind name hEarlier hToo
      · exact hAdmits hEarlier
    · rcases callsModule_concat.1 hModule with hEarlier | hFact
      · exact hAdmits.1 hEarlier
      · cases hFact
  oneSuperclass name first second hFirst hSecond := by
    rcases gives_concat.1 hFirst with hEarlier | rfl
    · rcases gives_concat.1 hSecond with hToo | rfl
      · exact hConsistent.oneSuperclass name first second hEarlier hToo
      · exact (hAdmits.2 second rfl).2 first hEarlier
    · rcases gives_concat.1 hSecond with hEarlier | hFact
      · exact ((hAdmits.2 first rfl).2 second hEarlier).symm
      · cases hFact
        rfl
  root written hFact := by
    rcases List.mem_append.1 hFact with hFact | hFact
    · exact hConsistent.root written hFact
    · obtain rfl := List.mem_singleton.1 hFact
      exact (hAdmits.2 written rfl).1 rfl
  targets earlier other later hFacts hMixin := by
    rcases List.eq_nil_or_concat later with rfl | ⟨later, last, rfl⟩
    · obtain ⟨rfl, hLast⟩ := List.append_inj' hFacts rfl
      cases hLast
      exact (admits_of_mixin hMixin).1 hAdmits
    · rw [List.concat_eq_append, ← List.cons_append, ← List.append_assoc] at hFacts
      exact hConsistent.targets earlier other later (List.append_inj' hFacts rfl).1 hMixin

/-- **One more fact keeps the rules exactly if it respects the facts before it.** -/
theorem consistent_concat :
    Consistent (facts ++ [fact]) ↔ Consistent facts ∧ Admits facts fact :=
  ⟨fun hConsistent => ⟨hConsistent.front, hConsistent.admits⟩,
    fun hBoth => hBoth.1.concat hBoth.2⟩

/-! ## What the table knows of a name -/

/-- What is known of a name after some facts is what they say of it, and the core. -/
structure Portrait (facts : List Fact) (name : String) (d : Declaration) : Prop where
  isClass : d.kind ≠ .mixin ↔ CallsClass facts name
  isModule : d.kind = .mixin ↔ CallsModule facts name
  isRoot : d.kind = .root ↔ name = "BasicObject"
  superclass : ∀ written, d.superclass = some written ↔ Gives facts name written

/-- **Something is known of exactly the names that are called something.** -/
theorem known_iff_names (hTable : initial.addAll facts = some table) :
    (∃ d, table.known.get? name = some d) ↔ Names facts name := by
  have hRevisions := revisions_of_addAll hTable name
  rw [names_iff]
  constructor
  · rintro ⟨d, hKnown⟩
    rw [hKnown] at hRevisions
    cases hInitial : initial.known.get? name with
    | some first => exact .inl ⟨first, get?_initial_eq_some_iff.1 hInitial⟩
    | none =>
      -- The core does not know the name, so the first fact about it says what it is.
      rw [hInitial] at hRevisions
      obtain ⟨fact, hAbout, hDeclares⟩ := hRevisions.exists_declares
      obtain ⟨hFact, hSubject⟩ := List.mem_filter.1 hAbout
      exact .inr ⟨fact, hFact, of_decide_eq_true hSubject, hDeclares⟩
  · rintro (⟨first, hEntry⟩ | ⟨fact, hFact, hSubject, -⟩)
    · rw [get?_initial_eq_some_iff.2 hEntry] at hRevisions
      exact hRevisions.exists_of_some
    · have hAbout : fact ∈ facts.filter (·.subject = name) :=
        List.mem_filter.2 ⟨hFact, decide_eq_true hSubject⟩
      obtain ⟨d, hKnown, -⟩ := hRevisions.account (List.ne_nil_of_mem hAbout)
      exact ⟨d, hKnown⟩

/-- The names that a table knows are those of the core and those that the facts declare. -/
theorem isKnown_iff_names (hTable : initial.addAll facts = some table) :
    table.isKnown name = true ↔ Names facts name := by
  rw [isKnown, OrderedMap.contains, Option.isSome_iff_exists, known_iff_names hTable]

/-- What is called a class is known as one. -/
theorem CallsClass.kind_ne_mixin {d : Declaration}
    (hClass : CallsClass facts name) (hTable : initial.addAll facts = some table)
    (hKnown : table.known.get? name = some d) : d.kind ≠ .mixin := by
  have hRevisions := revisions_of_addAll hTable name
  rw [hKnown] at hRevisions
  rcases hClass with ⟨first, hEntry, hKind⟩ | ⟨superclass, hFact⟩
  · rw [get?_initial_eq_some_iff.2 hEntry] at hRevisions
    rwa [hRevisions.kind_eq]
  · exact hRevisions.kind_ne_mixin (List.mem_filter.2 ⟨hFact, decide_eq_true rfl⟩)

/-- **What the table knows of a name** is a portrait of it. -/
theorem portrait_of_addAll (hTable : initial.addAll facts = some table)
    {d : Declaration} (hKnown : table.known.get? name = some d) : Portrait facts name d := by
  have hRevisions := revisions_of_addAll hTable name
  rw [hKnown] at hRevisions
  have hAccount := hRevisions.account_of_some
  have hNames : Names facts name := (known_iff_names hTable).1 ⟨d, hKnown⟩
  -- `hAccount` says it of the facts about the name; the two filters say that those are all that
  -- count.
  have hModule : d.kind = .mixin ↔ CallsModule facts name := by
    rw [hAccount.isMixin, CallsModule, Option.map_eq_some_iff]
    simp only [get?_initial_eq_some_iff, List.mem_filter, decide_eq_true_iff, and_assoc,
      Fact.saysModule_iff, exists_eq_right]
  have hSuperclass : ∀ written, d.superclass = some written ↔ Gives facts name written := by
    intro written
    rw [hAccount.superclass, Gives, Option.bind_eq_some_iff]
    simp only [get?_initial_eq_some_iff, List.mem_filter, decide_eq_true_iff, and_assoc,
      Fact.superclass?_iff, exists_eq_right]
  have hRoot : d.kind = .root ↔ name = "BasicObject" := by
    rw [hAccount.isRoot]
    constructor
    · exact eq_of_root_initial
    · rintro rfl
      rfl
  exact ⟨⟨fun hKind => hNames.resolve_right (hKind ∘ hModule.2),
    fun hClass => hClass.kind_ne_mixin hTable hKnown⟩, hModule, hRoot, hSuperclass⟩

/-! ## One more fact, as the table sees it -/

/-- A class line is accepted unless the name is a module, or has a superclass that is not the
    written one. -/
theorem isSome_addClass_iff {superclass : Option String} :
    (table.addClass name superclass).isSome = true ↔
      ∀ d, table.known.get? name = some d → d.kind ≠ .mixin ∧
        ∀ written, superclass = some written → d.kind ≠ .root ∧
          ∀ other, d.superclass = some other → other = written := by
  rw [addClass]
  cases table.known.get? name with
  | none => simp
  | some d =>
    simp only [Option.some.injEq, forall_eq']
    cases hKind : d.kind with
    | mixin => simp
    | root => cases superclass <;> simp
    | ordinary =>
      cases superclass with
      | none => simp
      | some written => simp [Option.all_eq_true]

/-- A module line is accepted unless the name is a class. -/
theorem isSome_addModule_iff :
    (table.addModule name).isSome = true ↔
      ∀ d, table.known.get? name = some d → d.kind = .mixin := by
  rw [addModule]
  cases table.known.get? name <;> simp

theorem isSome_amend_iff {change : Declaration → Declaration} :
    (table.amend name change).isSome = true ↔ ∃ d, table.known.get? name = some d := by
  rw [amend, Option.isSome_map, Option.isSome_iff_exists]

/-- A name that nothing calls anything may be called a class, with any superclass. -/
theorem admits_isClass_of_not_names (hNames : ¬ Names facts name) (superclass : Option String) :
    Admits facts (.isClass name superclass) := by
  refine ⟨fun hModule => hNames (.inr hModule), fun written _ => ⟨?_, fun other hOther => ?_⟩⟩
  · rintro rfl
    exact hNames (.inl (.inl ⟨{ kind := .root }, by decide +kernel, nofun⟩))
  · exact absurd (.inl hOther.callsClass) hNames

/-- **The table takes one more fact exactly if it respects the facts before it.** -/
theorem isSome_add?_iff (hTable : initial.addAll facts = some table) :
    (table.add? fact).isSome = true ↔ Admits facts fact := by
  -- A name of which nothing is known is named by no fact, so nothing can speak against a new one.
  have hUnknown : ∀ name, table.known.get? name = none → ¬ Names facts name := by
    intro name hNone hNames
    obtain ⟨d, hKnown⟩ := (known_iff_names hTable).2 hNames
    rw [hNone] at hKnown
    cases hKnown
  cases fact with
  | isClass name superclass =>
    rw [add?, isSome_addClass_iff]
    cases hKnown : table.known.get? name with
    | none =>
      exact iff_of_true nofun (admits_isClass_of_not_names (hUnknown name hKnown) superclass)
    | some d =>
      have hPortrait := portrait_of_addAll hTable hKnown
      simp only [Option.some.injEq, forall_eq', ne_eq, hPortrait.isModule, hPortrait.isRoot,
        hPortrait.superclass, Admits]
  | isModule name =>
    rw [add?, isSome_addModule_iff, Admits]
    cases hKnown : table.known.get? name with
    | none => exact iff_of_true nofun fun hClass => hUnknown name hKnown (.inl hClass)
    | some d =>
      have hPortrait := portrait_of_addAll hTable hKnown
      simp only [Option.some.injEq, forall_eq', ← hPortrait.isClass, ne_eq, Decidable.not_not]
  | includes name modules | prepends name modules =>
    rw [add?, isSome_amend_iff, known_iff_names hTable, Admits]

/-! ## The reader -/

theorem addAll_concat {next : DeclarationTable} (hTable : initial.addAll facts = some table)
    (hNext : table.add? fact = some next) : initial.addAll (facts ++ [fact]) = some next := by
  rw [addAll, List.foldlM_append, ← addAll, hTable, Option.bind_eq_bind, Option.bind_some,
    List.foldlM_cons, hNext]
  rfl

theorem stated_append (lines more : List (List Char)) :
    stated (lines ++ more) = stated lines ++ stated more := List.filterMap_append

theorem stated_singleton (line : List Char) :
    stated [line] = (Fact.ofLine? (Text.trim line)).toList := by
  cases hFact : Fact.ofLine? (Text.trim line) <;> simp [stated, hFact]

/-- The language is closed under taking lines away at the end. -/
theorem InLanguage.front {lines more : List (List Char)} (hLines : InLanguage (lines ++ more)) :
    InLanguage lines where
  spelled line hLine := hLines.spelled line (List.mem_append_left _ hLine)
  consistent := Consistent.front (stated_append lines more ▸ hLines.consistent)

/-- A line that states nothing changes nothing. -/
theorem inLanguage_concat_of_silent {lines : List (List Char)} {line : List Char}
    (hSilent : isSilent (Text.trim line) = true) :
    stated (lines ++ [line]) = stated lines ∧
      (InLanguage lines → InLanguage (lines ++ [line])) := by
  have hStated : stated (lines ++ [line]) = stated lines := by
    rw [stated_append, stated_singleton, Fact.ofLine?, if_pos hSilent, Option.toList_none,
      List.append_nil]
  refine ⟨hStated, fun hLines => ⟨?_, hStated ▸ hLines.consistent⟩⟩
  exact List.forall_mem_append.2 ⟨hLines.spelled, List.forall_mem_singleton.2 (.inl hSilent)⟩

/-- A line that states a fact is in the language if the fact respects those before it. -/
theorem inLanguage_concat_of_spelled {lines : List (List Char)} {line : List Char}
    (hTold : isSilent (Text.trim line) ≠ true)
    (hFact : Fact.Spelled ((Text.words (Text.trim line)).map String.ofList) fact) :
    stated (lines ++ [line]) = stated lines ++ [fact] ∧
      (InLanguage (lines ++ [line]) ↔ InLanguage lines ∧ Admits (stated lines) fact) := by
  have hStated : stated (lines ++ [line]) = stated lines ++ [fact] := by
    rw [stated_append, stated_singleton, Fact.ofLine?, if_neg hTold,
      Fact.ofWords?_eq_some_iff.2 hFact, Option.toList_some]
  refine ⟨hStated, fun hLonger => ?_, ?_⟩
  · exact ⟨hLonger.front, (consistent_concat.1 (hStated ▸ hLonger.consistent)).2⟩
  · rintro ⟨hLines, hAdmits⟩
    refine ⟨List.forall_mem_append.2 ⟨hLines.spelled, ?_⟩, ?_⟩
    · exact List.forall_mem_singleton.2 (.inr ⟨fact, hFact⟩)
    · rw [hStated]
      exact consistent_concat.2 ⟨hLines.consistent, hAdmits⟩

/-- **One more line.**  The table takes it exactly if the lines with it are in the language, and
    goes on to be the table of their facts. -/
theorem addLine?_spec {lines : List (List Char)}
    (hLines : InLanguage lines) (hTable : initial.addAll (stated lines) = some table)
    (line : List Char) :
    (∀ next, table.addLine? (Text.trim line) = some next → InLanguage (lines ++ [line]) ∧
      initial.addAll (stated (lines ++ [line])) = some next) ∧
    (table.addLine? (Text.trim line) = none → ¬ InLanguage (lines ++ [line])) := by
  rw [addLine?]
  -- A line may say nothing, may be no line of the language, or may state a fact.
  by_cases hSilent : isSilent (Text.trim line) = true
  · obtain ⟨hStated, hKeeps⟩ := @inLanguage_concat_of_silent lines line hSilent
    rw [if_pos hSilent, hStated]
    constructor
    · intro next hNext
      cases hNext
      exact ⟨hKeeps hLines, hTable⟩
    · intro hNone
      cases hNone
  · rw [if_neg hSilent]
    cases hWords : Fact.ofWords? ((Text.words (Text.trim line)).map String.ofList) with
    | none =>
      constructor
      · intro next hNext
        cases hNext
      · intro _ hLonger
        rcases hLonger.spelled line (by simp) with hBlank | ⟨fact, hFact⟩
        · exact hSilent hBlank
        · rw [Fact.ofWords?_eq_some_iff.2 hFact] at hWords
          cases hWords
    | some fact =>
      obtain ⟨hStated, hLonger⟩ :=
        inLanguage_concat_of_spelled hSilent (Fact.ofWords?_eq_some_iff.1 hWords)
      rw [Option.bind_some, hLonger, hStated, and_iff_right hLines, ← isSome_add?_iff hTable]
      constructor
      · intro next hAdd
        rw [hAdd]
        exact ⟨rfl, addAll_concat hTable hAdd⟩
      · intro hNone
        rw [hNone]
        exact Bool.false_ne_true

/-- Reading goes on as long as lines are accepted, and stops with the number of the first that is
    not. -/
theorem addLines_cons (table : DeclarationTable) (number : Nat) (line : List Char)
    (rest : List (List Char)) : table.addLines number (line :: rest) =
      (table.addLine? (Text.trim line)).elim
        (.error (.malformed number (String.ofList (Text.trim line))))
        (·.addLines (number + 1) rest) := by
  rw [addLines]
  cases table.addLine? (Text.trim line) <;> rfl

/-- **The reader stops at the first line that is not in the language** with those before it, and
    reads to the end if there is none. -/
theorem addLines_spec {lines : List (List Char)}
    (hLines : InLanguage lines) (hTable : initial.addAll (stated lines) = some table)
    (rest : List (List Char)) :
    match table.addLines (lines.length + 1) rest with
    | .ok last => InLanguage (lines ++ rest) ∧ initial.addAll (stated (lines ++ rest)) = some last
    | .error failure => ∃ more line after, rest = more ++ line :: after ∧
        InLanguage (lines ++ more) ∧ ¬ InLanguage (lines ++ more ++ [line]) ∧
        failure = .malformed ((lines ++ more).length + 1) (String.ofList (Text.trim line)) := by
  -- On the lines still to come, for any lines behind: the invariant is that those were in the
  -- language and gave the table.
  induction rest generalizing lines table with
  | nil =>
    rw [addLines, List.append_nil]
    exact ⟨hLines, hTable⟩
  | cons line rest ih =>
    obtain ⟨hTaken, hRefused⟩ := addLine?_spec hLines hTable line
    rw [addLines_cons]
    cases hAdd : table.addLine? (Text.trim line) with
    -- The first line that is refused: nothing of it has been taken in.
    | none =>
      refine ⟨[], line, rest, rfl, ?_, ?_, ?_⟩
      all_goals rw [List.append_nil]
      · exact hLines
      · exact hRefused hAdd
    | some next =>
      obtain ⟨hLonger, hNext⟩ := hTaken next hAdd
      have hRest := ih hLonger hNext
      simp only [List.length_append, List.length_singleton, List.append_assoc,
        List.singleton_append] at hRest
      rw [Option.elim_some]
      cases hLast : next.addLines (lines.length + 1 + 1) rest with
      | ok last =>
        rw [hLast] at hRest
        exact hRest
      | error failure =>
        rw [hLast] at hRest
        obtain ⟨more, bad, after, rfl, hMore, hBad, hFailure⟩ := hRest
        refine ⟨line :: more, bad, after, rfl, hMore, ?_, ?_⟩
        · rwa [List.append_assoc]
        · rwa [List.length_append]

/-! ## Names in the order of their declarations -/

/-- The declared names are the subjects of the facts that declare one, each where it is declared
    first. -/
theorem declared_eq_of_addAll {last : DeclarationTable} {names : List String}
    (hAdd : table.addAll facts = some last) (hDeclared : table.declared = names.eraseDups) :
    last.declared = (names ++ (facts.filter (·.declares)).map (·.subject)).eraseDups := by
  induction facts generalizing table names with
  | nil =>
    cases hAdd
    simpa using hDeclared
  | cons fact rest ih =>
    obtain ⟨next, hFirst, hRest⟩ := addAll_cons_eq_some hAdd
    obtain ⟨-, -, -, hNext⟩ := revision_of_add? hFirst
    simp only [declaredWith, hDeclared, List.mem_eraseDups] at hNext
    cases hDeclares : fact.declares with
    | false =>
      rw [if_pos (.inl hDeclares)] at hNext
      rw [List.filter_cons_of_neg (by simp [hDeclares])]
      exact ih hRest hNext
    | true =>
      rw [List.filter_cons_of_pos hDeclares, List.map_cons, List.append_cons]
      refine ih hRest ?_
      rw [hNext, OrderedMap.eraseDups_concat]
      simp only [hDeclares, Bool.true_eq_false, false_or]

end

/-! ## Dumps -/

/-- **A dump**: its table is that of its facts, or its first bad line is known. -/
theorem ofDump_spec (dump : String) :
    match ofDump dump with
    | .ok table => InLanguage (Text.lines dump.toList) ∧ initial.addAll (facts dump) = some table
    | .error failure => ∃ before line after, Text.lines dump.toList = before ++ line :: after ∧
        InLanguage before ∧ ¬ InLanguage (before ++ [line]) ∧
        failure = .malformed (before.length + 1) (String.ofList (Text.trim line)) :=
  addLines_spec ⟨List.forall_mem_nil _, consistent_nil⟩ rfl (Text.lines dump.toList)

/-- **The language of dumps.**  A dump is read exactly if its lines are in the language; otherwise
    reading ends with the number and the text of the first line that, with those before it, is not.
    If the dump linearizes, too, its records are those of the names that its facts declare, in the
    order of their first declarations.  The superclass of a class is the one that is given to it, by
    whichever of its lines, and what that resolves to ends the chain of the class. -/
theorem reads_exactly_language (dump : String) :
    ((∃ table, ofDump dump = .ok table) ↔ InLanguage (Text.lines dump.toList)) ∧
    (∀ failure, ofDump dump = .error failure → linearize dump = .error failure ∧
      ∃ before line after, Text.lines dump.toList = before ++ line :: after ∧
        (∀ front, front <+: before → InLanguage front) ∧ ¬ InLanguage (before ++ [line]) ∧
        failure = .malformed (before.length + 1) (String.ofList (Text.trim line))) ∧
    ∀ records, linearize dump = .ok records → ∃ table, ofDump dump = .ok table ∧
      records.map (·.name) = (((facts dump).filter (·.declares)).map (·.subject)).eraseDups ∧
      (∀ name d, table.known.get? name = some d →
        ∀ written, d.superclass = some written ↔ Gives (facts dump) name written) ∧
      ∀ record ∈ records, ∀ written, Gives (facts dump) record.name written →
        ∃ d superclass inherited, table.known.get? record.name = some d ∧
          d.superclass = some written ∧ table.superclassOf record.name d = some superclass ∧
          table.chainOf superclass = .ok inherited ∧ inherited <:+ record.ancestors := by
  have hSpec := ofDump_spec dump
  refine ⟨⟨?_, fun hLines => ?_⟩, ?_, ?_⟩
  · rintro ⟨table, hDump⟩
    rw [hDump] at hSpec
    exact hSpec.1
  · cases hDump : ofDump dump with
    | ok table => exact ⟨table, rfl⟩
    | error failure =>
      rw [hDump] at hSpec
      obtain ⟨before, line, after, hSplit, -, hBad, -⟩ := hSpec
      -- The text is in the language, and then so are the lines up to the bad one.
      rw [hSplit, List.append_cons] at hLines
      exact absurd hLines.front hBad
  · intro failure hDump
    rw [hDump] at hSpec
    obtain ⟨before, line, after, hSplit, hBefore, hBad, hFailure⟩ := hSpec
    refine ⟨by rw [linearize, hDump]; rfl, before, line, after, hSplit, ?_, hBad, hFailure⟩
    rintro front ⟨more, rfl⟩
    exact hBefore.front
  · intro records hLinearize
    obtain ⟨table, hDump, hNames, hChains⟩ := exists_table_of_linearize hLinearize
    rw [hDump] at hSpec
    refine ⟨table, hDump, ?_, fun name d hKnown => (portrait_of_addAll hSpec.2 hKnown).superclass,
      fun record hRecord written hGives => ?_⟩
    · exact hNames.trans (declared_eq_of_addAll hSpec.2 List.eraseDups_nil.symm)
    · obtain ⟨d, hKnown⟩ := (known_iff_names hSpec.2).2 (.inl hGives.callsClass)
      have hWritten := ((portrait_of_addAll hSpec.2 hKnown).superclass written).2 hGives
      have hOrDefault : d.superclassOrDefault = some written := by
        rw [Declaration.superclassOrDefault, hWritten]
      obtain ⟨superclass, inherited, hSuperclass, hInherited⟩ :=
        exists_inherited_of_chainOf hKnown hOrDefault (hChains record hRecord)
      exact ⟨d, superclass, inherited, hKnown, hWritten, hSuperclass, hInherited⟩

/-- All lines count, and the text of a bad one is trimmed. -/
example : ofDump "class Page\n\n include Box Page" =
    .error (.malformed 3 "include Box Page") := by
  rfl

end DeclarationTable

end Lineage
