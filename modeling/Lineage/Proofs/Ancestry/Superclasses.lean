/-
  Which superclasses conflict.

  A line that gives a class a superclass is held against the superclass that the class has, and the
  two have to be the same TEXT.  What a superclass denotes is another matter: it is looked up in the
  scopes around the class, once all lines are read.  One text denotes one class, so superclasses
  that denote different classes always conflict.  But a class may be spelled in several ways, and
  two spellings of one class conflict as well (`not_forall_superclasses_as_denoted`).

  How such spellings differ is known: the scopes around a name lie inside each other, so the longer
  spelling is the shorter one with a scope in front (`spelledAlike_of_denoted_eq`).

  The crux is that nothing but superclasses can be at fault.  In a dump that obeys the other rules,
  the first line that is refused gives its class another text than something before it
  (`exists_other_of_refused`).
-/
import Lineage.Proofs.Ancestry.Language

namespace Lineage

/-! ## Scopes inside each other -/

namespace Scope

/-- The scope of a name is the part of its text before the last `::`. -/
theorem outerChars_eq {name outer : List Char} (hOuter : outerChars name = some outer) :
    ∃ last, name = outer ++ [':', ':'] ++ last := by
  induction name generalizing outer with
  | nil => cases hOuter
  | cons c rest ih =>
    rw [outerChars] at hOuter
    split at hOuter
    · rename_i inner hInner
      cases hOuter
      obtain ⟨last, rfl⟩ := ih hInner
      exact ⟨last, rfl⟩
    · split at hOuter
      · rename_i hPrefix
        cases hOuter
        obtain ⟨last, hLast⟩ := List.isPrefixOf_iff_prefix.1 hPrefix
        exact ⟨last, hLast.symm⟩
      · cases hOuter

/-- A qualified name is a name in its scope. -/
theorem eq_qualify_of_outer? {name outer : String} (hOuter : outer? name = some outer) :
    ∃ last, name = qualify outer last := by
  obtain ⟨chars, hChars, rfl⟩ := Option.map_eq_some_iff.1 hOuter
  obtain ⟨last, hLast⟩ := outerChars_eq hChars
  refine ⟨String.ofList last, String.toList_injective ?_⟩
  simp [hLast, qualify]

/-- Qualifying is appending text, so it does not matter which `::` is put first. -/
theorem qualify_qualify (first second third : String) :
    qualify (qualify first second) third = qualify first (qualify second third) := by
  simp only [qualify, String.append_assoc]

theorem qualify_inj {scope first second : String} :
    qualify scope first = qualify scope second ↔ first = second :=
  String.append_right_inj _

theorem mem_outward_iff {name scope : String} :
    scope ∈ outward name ↔ scope = name ∨ scope ∈ around name := by
  rw [outward, around, List.mem_cons]
  split <;> simp_all

theorem mem_around_iff {name scope : String} :
    scope ∈ around name ↔ ∃ outer, outer? name = some outer ∧ scope ∈ outward outer := by
  rw [around]
  split <;> simp_all

/-- A name is written inside of the scopes around it. -/
theorem eq_qualify_of_mem_around {name scope : String} (hScope : scope ∈ around name) :
    ∃ inner, name = qualify scope inner := by
  induction name using outward.induct with
  | case1 name ih =>
    obtain ⟨outer, hOuter, hOutward⟩ := mem_around_iff.1 hScope
    obtain ⟨last, hLast⟩ := eq_qualify_of_outer? hOuter
    rcases mem_outward_iff.1 hOutward with rfl | hAround
    · exact ⟨last, hLast⟩
    · obtain ⟨inner, hInner⟩ := ih outer hOuter hAround
      exact ⟨qualify inner last, by rw [hLast, hInner, qualify_qualify]⟩

/-- **The scopes around a name lie inside each other.** -/
theorem nested_of_mem_around {name first second : String} (hFirst : first ∈ around name)
    (hSecond : second ∈ around name) :
    first = second ∨ (∃ inner, first = qualify second inner) ∨
      ∃ inner, second = qualify first inner := by
  induction name using outward.induct with
  | case1 name ih =>
    obtain ⟨outer, hOuter, hFirst⟩ := mem_around_iff.1 hFirst
    obtain ⟨_, hSame, hSecond⟩ := mem_around_iff.1 hSecond
    obtain rfl := Option.some.inj (hOuter.symm.trans hSame)
    rcases mem_outward_iff.1 hFirst with rfl | hFirst
    · rcases mem_outward_iff.1 hSecond with rfl | hSecond
      · exact .inl rfl
      · exact .inr (.inl (eq_qualify_of_mem_around hSecond))
    · rcases mem_outward_iff.1 hSecond with rfl | hSecond
      · exact .inr (.inr (eq_qualify_of_mem_around hFirst))
      · exact ih outer hOuter hFirst hSecond

/-- A reference means a name in one of the scopes, or what is written. -/
theorem resolve_eq_or (isDeclared : String → Bool) (scopes : List String) (reference : String) :
    resolve isDeclared scopes reference = reference ∨
      ∃ scope ∈ scopes, resolve isDeclared scopes reference = qualify scope reference := by
  rw [resolve]
  cases hFound : (scopes.map (qualify · reference)).find? isDeclared with
  | none => exact .inl rfl
  | some found =>
    obtain ⟨scope, hScope, rfl⟩ := List.mem_map.1 (List.mem_of_find?_eq_some hFound)
    exact .inr ⟨scope, hScope, rfl⟩

end Scope

namespace DeclarationTable

section

variable {facts : List Fact} {fact : Fact} {name written : String} {table : DeclarationTable}

/-! ## What a superclass denotes -/

/-- Does the core or a fact call the name something? -/
def isNamed (facts : List Fact) (name : String) : Bool :=
  core.any (fun entry => entry.1 = name) ||
    facts.any fun fact => fact.subject = name && fact.declares

/-- The class that a superclass written for `name` denotes among all that is named: what it means
    around `name`, but not `name` itself. -/
def denoted (facts : List Fact) (name written : String) : String :=
  let meant := Scope.resolve (isNamed facts) (Scope.around name) written
  if meant = name then written else meant

/-- `isNamed` decides `Names`. -/
theorem isNamed_iff : isNamed facts name = true ↔ Names facts name := by
  simp [isNamed, names_iff]

/-- **What is denoted is what the finished table goes on with.** -/
theorem superclassOf_eq_denoted (hTable : initial.addAll facts = some table) {d : Declaration}
    (hWritten : d.superclass = some written) :
    table.superclassOf name d = some (denoted facts name written) := by
  have hKnown : table.isKnown = isNamed facts := by
    funext other
    rw [Bool.eq_iff_iff, isNamed_iff, isKnown_iff_names hTable]
  rw [superclassOf, Declaration.superclassOrDefault, hWritten, Option.map_some, resolve, hKnown,
    denoted]

/-- A reference means what is written, or that inside a scope around the class. -/
theorem denoted_eq_or (facts : List Fact) (name written : String) :
    denoted facts name written = written ∨
      ∃ scope ∈ Scope.around name, denoted facts name written = Scope.qualify scope written := by
  rw [denoted]
  split
  · exact .inl rfl
  · exact Scope.resolve_eq_or _ _ _

/-- The texts are the same, or one is the other with a scope in front. -/
def SpelledAlike (first second : String) : Prop :=
  first = second ∨ (∃ scope, first = Scope.qualify scope second) ∨
    ∃ scope, second = Scope.qualify scope first

/-- **Spellings of one class differ by a scope in front.** -/
theorem spelledAlike_of_denoted_eq {first second : String}
    (hSame : denoted facts name first = denoted facts name second) :
    SpelledAlike first second := by
  rcases denoted_eq_or facts name first with hFirst | ⟨scope, hScope, hFirst⟩
  · rcases denoted_eq_or facts name second with hSecond | ⟨other, -, hSecond⟩
    · exact .inl (hFirst.symm.trans (hSame.trans hSecond))
    · exact .inr (.inl ⟨other, hFirst.symm.trans (hSame.trans hSecond)⟩)
  · rcases denoted_eq_or facts name second with hSecond | ⟨other, hOther, hSecond⟩
    · exact .inr (.inr ⟨scope, hSecond.symm.trans (hSame.symm.trans hFirst)⟩)
    · have hQualified := hFirst.symm.trans (hSame.trans hSecond)
      rcases Scope.nested_of_mem_around hScope hOther with rfl | ⟨inner, rfl⟩ | ⟨inner, rfl⟩
      · exact .inl (Scope.qualify_inj.1 hQualified)
      · rw [Scope.qualify_qualify, Scope.qualify_inj] at hQualified
        exact .inr (.inr ⟨inner, hQualified.symm⟩)
      · rw [Scope.qualify_qualify, Scope.qualify_inj] at hQualified
        exact .inr (.inl ⟨inner, hQualified⟩)

/-! ## The other rules -/

/-- The rules of a dump, but for the one on superclasses. -/
structure Coherent (facts : List Fact) : Prop where
  oneKind : ∀ name, CallsClass facts name → ¬ CallsModule facts name
  root : ∀ written, .isClass "BasicObject" (some written) ∉ facts
  targets : ∀ earlier fact later, facts = earlier ++ fact :: later → fact.declares = false →
    Names earlier fact.subject

/-- The lines are well formed, but for the superclasses that they give. -/
structure WellFormed (lines : List (List Char)) : Prop where
  spelled : ∀ line ∈ lines, IsSpelled line
  coherent : Coherent (stated lines)

/-- Lines that are accepted are coherent, so coherence asks for less. -/
theorem Consistent.coherent (hConsistent : Consistent facts) : Coherent facts where
  oneKind := hConsistent.oneKind
  root := hConsistent.root
  targets := hConsistent.targets

/-- Coherence does not depend on later lines. -/
theorem Coherent.front {more : List Fact} (hCoherent : Coherent (facts ++ more)) :
    Coherent facts where
  oneKind name hClass hModule := hCoherent.oneKind name
    (hClass.imp_right fun ⟨superclass, hFact⟩ => ⟨superclass, List.mem_append_left _ hFact⟩)
    (hModule.imp_right (List.mem_append_left _))
  root written hFact := hCoherent.root written (List.mem_append_left _ hFact)
  targets earlier fact later hFacts hMixin := by
    refine hCoherent.targets earlier fact (later ++ more) ?_ hMixin
    rw [hFacts, List.append_assoc, List.cons_append]

/-- A text stays well-formed if lines are taken away at its end. -/
theorem WellFormed.front {lines more : List (List Char)} (hLines : WellFormed (lines ++ more)) :
    WellFormed lines where
  spelled line hLine := hLines.spelled line (List.mem_append_left _ hLine)
  coherent := Coherent.front (stated_append lines more ▸ hLines.coherent)

/-- **A fact that is refused for no other reason** gives a class another superclass than it has. -/
theorem exists_other_of_not_admits (hCoherent : Coherent (facts ++ [fact]))
    (hRefused : ¬ Admits facts fact) :
    ∃ name written other, fact = .isClass name (some written) ∧ Gives facts name other ∧
      other ≠ written := by
  -- Coherence leaves a single reason for a refusal, a second superclass; so only a class can be
  -- refused.
  cases fact with
  | isClass name superclass =>
    have hNoModule : ¬ CallsModule facts name := fun hModule =>
      hCoherent.oneKind name (callsClass_concat.2 (.inr ⟨_, rfl⟩))
        (callsModule_concat.2 (.inl hModule))
    by_contra hNone
    refine hRefused ⟨hNoModule, ?_⟩
    rintro written rfl
    refine ⟨?_, fun other hOther => ?_⟩
    · rintro rfl
      exact hCoherent.root written (List.mem_append_right _ (List.mem_singleton_self _))
    · by_contra hDiffer
      exact hNone ⟨name, written, other, rfl, hOther, hDiffer⟩
  | isModule name =>
    refine absurd (fun hClass => ?_) hRefused
    exact hCoherent.oneKind name (callsClass_concat.2 (.inl hClass))
      (callsModule_concat.2 (.inr rfl))
  | includes _ _ | prepends _ _ => exact absurd (hCoherent.targets facts _ [] rfl rfl) hRefused

/-- **A line that is refused for no other reason** gives a class another superclass than it has. -/
theorem exists_other_of_refused {lines : List (List Char)} {line : List Char}
    (hWellFormed : WellFormed (lines ++ [line])) (hLines : InLanguage lines)
    (hRefused : ¬ InLanguage (lines ++ [line])) :
    ∃ name written other,
      Fact.Spelled ((Text.words (Text.trim line)).map String.ofList)
        (.isClass name (some written)) ∧
      stated (lines ++ [line]) = stated lines ++ [.isClass name (some written)] ∧
      Gives (stated lines) name other ∧ other ≠ written := by
  have hTold : isSilent (Text.trim line) ≠ true := fun hSilent =>
    hRefused ((inLanguage_concat_of_silent hSilent).2 hLines)
  obtain ⟨fact, hFact⟩ := (hWellFormed.spelled line (by simp)).resolve_left hTold
  obtain ⟨hStated, hLonger⟩ := inLanguage_concat_of_spelled hTold hFact
  rw [hLonger, and_iff_right hLines] at hRefused
  obtain ⟨name, written, other, rfl, hOther, hDiffer⟩ :=
    exists_other_of_not_admits (hStated ▸ hWellFormed.coherent) hRefused
  exact ⟨name, written, other, hFact, hStated, hOther, hDiffer⟩

theorem Gives.append (hGives : Gives facts name written) (more : List Fact) :
    Gives (facts ++ more) name written :=
  hGives.imp_right (List.mem_append_left _)

/-- All superclasses that are given, each with the class that it is given to. -/
def given (facts : List Fact) : List (String × String) :=
  core.filterMap (fun entry => entry.2.superclass.map (entry.1, ·)) ++
    facts.filterMap fun fact => fact.superclass?.map (fact.subject, ·)

/-- `given` lists what `Gives` says. -/
theorem gives_iff_mem_given : Gives facts name written ↔ (name, written) ∈ given facts := by
  rw [given, List.mem_append]
  refine or_congr (by simp [and_comm]) ⟨fun hFact => ?_, fun hPair => ?_⟩
  · exact List.mem_filterMap.2 ⟨_, hFact, rfl⟩
  · obtain ⟨fact, hFact, hSome⟩ := List.mem_filterMap.1 hPair
    obtain ⟨superclass, hSuperclass, hSame⟩ := Option.map_eq_some_iff.1 hSome
    cases hSame
    rwa [← Fact.superclass?_iff.1 ⟨rfl, hSuperclass⟩]

end

/-! ## Dumps -/

/-- **Superclasses are held against each other as texts.**  A dump that is well formed but for its
    superclasses is read exactly if no class is given two different texts, by its lines or the core.
    What a text denotes in the finished table is then the class that the chain goes on with.
    Otherwise reading ends at the first line with a text that is not the one given before.  The two
    texts denote different classes, unless one is the other with a scope in front. -/
theorem superclasses_as_written (dump : String) (hDump : WellFormed (Text.lines dump.toList)) :
    ((∃ table, ofDump dump = .ok table) ↔ ∀ name first second,
      Gives (facts dump) name first → Gives (facts dump) name second → first = second) ∧
    (∀ table, ofDump dump = .ok table → ∀ name written, Gives (facts dump) name written →
      ∃ d, table.known.get? name = some d ∧
        table.superclassOf name d = some (denoted (facts dump) name written)) ∧
    (∀ failure, ofDump dump = .error failure → ∃ before line after name written other,
      Text.lines dump.toList = before ++ line :: after ∧
      Fact.Spelled ((Text.words (Text.trim line)).map String.ofList)
        (.isClass name (some written)) ∧
      Gives (stated before) name other ∧ other ≠ written ∧
      failure = .malformed (before.length + 1) (String.ofList (Text.trim line)) ∧
      (denoted (facts dump) name other = denoted (facts dump) name written →
        SpelledAlike other written)) := by
  have hSpec := ofDump_spec dump
  cases hRead : ofDump dump with
  | ok table =>
    rw [hRead] at hSpec
    obtain ⟨hLines, hTable⟩ := hSpec
    refine ⟨iff_of_true ⟨table, rfl⟩ hLines.consistent.oneSuperclass, ?_, nofun⟩
    rintro _ ⟨⟩ name written hGives
    obtain ⟨d, hKnown⟩ := (known_iff_names hTable).2 (.inl hGives.callsClass)
    have hWritten := ((portrait_of_addAll hTable hKnown).superclass written).2 hGives
    exact ⟨d, hKnown, superclassOf_eq_denoted hTable hWritten⟩
  | error failure =>
    rw [hRead] at hSpec
    obtain ⟨before, line, after, hSplit, hBefore, hBad, hFailure⟩ := hSpec
    -- The bad line is the first one, and up to it the text is well-formed.
    have hWellFormed : WellFormed (before ++ [line]) := by
      rw [hSplit, List.append_cons] at hDump
      exact hDump.front
    obtain ⟨name, written, other, hFact, hStated, hOther, hDiffer⟩ :=
      exists_other_of_refused hWellFormed hBefore hBad
    refine ⟨iff_of_false nofun fun hOne => hDiffer ?_, nofun, ?_⟩
    · have hFacts : facts dump =
          stated before ++ ([.isClass name (some written)] ++ stated after) := by
        rw [facts, hSplit, ← stated, List.append_cons, stated_append, hStated, List.append_assoc]
      rw [hFacts] at hOne
      exact hOne name other written (hOther.append _) (.inr (by simp))
    · rintro _ ⟨⟩
      exact ⟨before, line, after, name, written, other, hSplit, hFact, hOther, hDiffer, hFailure,
        spelledAlike_of_denoted_eq⟩

/-- A class whose superclass is spelled in two ways. -/
def adminDump : String :=
  "class Admin::Base\nclass Admin::User Base\nclass Admin::User Admin::Base"

theorem facts_adminDump : facts adminDump = [
    .isClass "Admin::Base" none, .isClass "Admin::User" (some "Base"),
    .isClass "Admin::User" (some "Admin::Base")] := by
  decide +kernel

theorem wellFormed_adminDump : WellFormed (Text.lines adminDump.toList) where
  spelled line hLine := by
    have hWords : ∀ line ∈ Text.lines adminDump.toList,
        (Fact.ofWords? ((Text.words (Text.trim line)).map String.ofList)).isSome = true := by
      decide +kernel
    obtain ⟨fact, hFact⟩ := Option.isSome_iff_exists.1 (hWords line hLine)
    exact .inr ⟨fact, Fact.ofWords?_eq_some_iff.1 hFact⟩
  coherent := by
    rw [stated, ← facts, facts_adminDump]
    constructor
    case oneKind =>
      intro name hClass hModule
      obtain ⟨d, hEntry, hMixin⟩ := hModule.resolve_right (by simp)
      rcases hClass with ⟨other, hOther, hKind⟩ | ⟨superclass, hFact⟩
      · exact hKind (eq_of_mem_core hOther hEntry ▸ hMixin)
      · have hOutside : ∀ entry ∈ core, entry.1 ≠ "Admin::Base" ∧ entry.1 ≠ "Admin::User" := by
          decide +kernel
        have hName : name = "Admin::Base" ∨ name = "Admin::User" := by
          simp only [List.mem_cons, Fact.isClass.injEq, List.not_mem_nil, or_false] at hFact
          tauto
        exact hName.elim (hOutside _ hEntry).1 (hOutside _ hEntry).2
    case root => simp
    case targets =>
      intro earlier fact later hFacts hMixin
      have hDeclare : ∀ told ∈ earlier ++ fact :: later, told.declares = true := by
        rw [← hFacts]
        decide
      rw [hDeclare fact (by simp)] at hMixin
      cases hMixin

/-- The second spelling is refused. -/
theorem superclasses_as_written_admin : WellFormed (Text.lines adminDump.toList) ∧
    ¬ ∃ table, ofDump adminDump = .ok table := by
  refine ⟨wellFormed_adminDump, fun hRead => ?_⟩
  have hOne := (superclasses_as_written adminDump wellFormed_adminDump).1.1 hRead
  rw [facts_adminDump] at hOne
  exact absurd (hOne "Admin::User" "Base" "Admin::Base" (.inr (by simp)) (.inr (by simp)))
    (by decide)

/-- **Superclasses that denote one class can conflict.** -/
theorem not_forall_superclasses_as_denoted : ¬ ∀ dump : String,
    WellFormed (Text.lines dump.toList) →
    (∀ name first second, Gives (facts dump) name first → Gives (facts dump) name second →
      denoted (facts dump) name first = denoted (facts dump) name second) →
    ∃ table, ofDump dump = .ok table := by
  intro hRead
  have hDenoted : ∀ first ∈ given (facts adminDump), ∀ second ∈ given (facts adminDump),
      first.1 = second.1 → denoted (facts adminDump) first.1 first.2 =
        denoted (facts adminDump) first.1 second.2 := by
    rw [facts_adminDump]
    decide +kernel
  obtain ⟨table, hTable⟩ := hRead adminDump wellFormed_adminDump
    fun name first second hFirst hSecond =>
      hDenoted _ (gives_iff_mem_given.1 hFirst) _ (gives_iff_mem_given.1 hSecond) rfl
  have hRefused : ofDump adminDump = .error (.malformed 3 "class Admin::User Admin::Base") := rfl
  rw [hRefused] at hTable
  cases hTable

end DeclarationTable

end Lineage
