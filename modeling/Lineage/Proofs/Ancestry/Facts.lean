/-
  What is known of a name once some facts have been told.

  Every fact has a SUBJECT, the one name it is about, and only what is known of its subject changes
  with it.  So what is known of a name in the end is what the facts about that name have made of it,
  whatever was told of other names in between (`revisions_of_addAll`).

  Most of that does not depend on the order either.  A name is a module if some fact says so, and
  its superclass is the one that some fact writes: a table that contradicts itself is refused, so
  the facts of a table agree.  `Account` says this, and that the order shows in the mixin calls
  only.  One step of it is a revision, and accounts of two stretches of facts add up.
-/
import Lineage.Ancestry.Declarations
import Mathlib.Data.List.Nodup

namespace Lineage

/-! ## Facts by themselves -/

namespace Fact

/-- The name that a fact is about. -/
def subject : Fact → String
  | isClass name _ => name
  | isModule name => name
  | includes name _ => name
  | prepends name _ => name

/-- Does the fact declare its subject? -/
def declares : Fact → Bool
  | isClass _ _ => true
  | isModule _ => true
  | includes _ _ => false
  | prepends _ _ => false

/-- Does the fact say that its subject is a module? -/
@[simp] def saysModule : Fact → Bool
  | isModule _ => true
  | _ => false

/-- The superclass that the fact writes. -/
@[simp] def superclass? : Fact → Option String
  | isClass _ superclass => superclass
  | _ => none

/-- The modules of an `include`. -/
@[simp] def included? : Fact → Option (List String)
  | includes _ modules => some modules
  | _ => none

/-- The modules of a `prepend`. -/
@[simp] def prepended? : Fact → Option (List String)
  | prepends _ modules => some modules
  | _ => none

/-- The fact that a trimmed line states, if it states one. -/
def ofLine? (line : List Char) : Option Fact :=
  if DeclarationTable.isSilent line then none
  else ofWords? ((Text.words line).map String.ofList)

end Fact

/-! ## What facts make of what was known -/

/-- `Revision before fact after`: the fact turns what was known of its subject, if anything was,
    into `after`. -/
inductive Revision : Option Declaration → Fact → Declaration → Prop
  | newClass {name : String} {superclass : Option String} :
      Revision none (.isClass name superclass) { kind := .ordinary, superclass }
  | classAgain {name : String} {d : Declaration} (hKind : d.kind ≠ .mixin) :
      Revision (some d) (.isClass name none) d
  | inherits {name written : String} {d : Declaration} (hKind : d.kind = .ordinary)
      (hAgrees : ∀ other, d.superclass = some other → other = written) :
      Revision (some d) (.isClass name (some written)) { d with superclass := some written }
  | newModule {name : String} : Revision none (.isModule name) { kind := .mixin }
  | moduleAgain {name : String} {d : Declaration} (hKind : d.kind = .mixin) :
      Revision (some d) (.isModule name) d
  | includes {name : String} {modules : List String} {d : Declaration} :
      Revision (some d) (.includes name modules) { d with includes := d.includes ++ [modules] }
  | prepends {name : String} {modules : List String} {d : Declaration} :
      Revision (some d) (.prepends name modules) { d with prepends := d.prepends ++ [modules] }

/-- What several facts about one name do, one after the other. -/
inductive Revisions : Option Declaration → List Fact → Option Declaration → Prop
  | nil {known : Option Declaration} : Revisions known [] known
  | cons {before last : Option Declaration} {fact : Fact} {rest : List Fact} {d : Declaration}
      (hFirst : Revision before fact d) (hRest : Revisions (some d) rest last) :
      Revisions before (fact :: rest) last

theorem Revisions.eq_of_nil {before last : Option Declaration}
    (hRevisions : Revisions before [] last) : last = before := by
  cases hRevisions
  rfl

/-- No fact turns a class into a module, or a module into a class. -/
theorem Revision.kind_eq {d after : Declaration} {fact : Fact}
    (hRevision : Revision (some d) fact after) : after.kind = d.kind := by
  cases hRevision <;> rfl

/-- What a name is, class or module, is settled by the first fact about it. -/
theorem Revisions.kind_eq {d after : Declaration} {facts : List Fact}
    (hRevisions : Revisions (some d) facts (some after)) : after.kind = d.kind := by
  induction facts generalizing d with
  | nil => exact congrArg _ (Option.some.inj hRevisions.eq_of_nil)
  | cons fact rest ih =>
    cases hRevisions with
    | cons hFirst hRest => exact (ih hRest).trans hFirst.kind_eq

/-- What a fact calls a class is no module. -/
theorem Revision.kind_ne_mixin {before : Option Declaration} {name : String}
    {superclass : Option String} {after : Declaration}
    (hRevision : Revision before (.isClass name superclass) after) : after.kind ≠ .mixin := by
  cases hRevision with
  | newClass => exact nofun
  | classAgain hKind => exact hKind
  | inherits hKind =>
    rw [hKind]
    exact nofun

/-- **What was called a class stays one.** -/
theorem Revisions.kind_ne_mixin {before : Option Declaration} {facts : List Fact} {name : String}
    {superclass : Option String} {after : Declaration}
    (hRevisions : Revisions before facts (some after))
    (hClass : .isClass name superclass ∈ facts) : after.kind ≠ .mixin := by
  induction facts generalizing before with
  | nil => cases hClass
  | cons fact rest ih =>
    cases hRevisions with
    | cons hFirst hRest =>
      rcases List.mem_cons.1 hClass with rfl | hLater
      · rw [hRest.kind_eq]
        exact hFirst.kind_ne_mixin
      · exact ih hRest hLater

/-- What was known of a name before some facts about it, and what is known after them. -/
structure Account (before : Option Declaration) (facts : List Fact) (after : Declaration) :
    Prop where
  /-- No fact makes a root or unmakes one. -/
  isRoot : after.kind = .root ↔ before.map (·.kind) = some .root
  isMixin : after.kind = .mixin ↔
    before.map (·.kind) = some .mixin ∨ ∃ fact ∈ facts, fact.saysModule = true
  superclass : ∀ written, after.superclass = some written ↔
    before.bind (·.superclass) = some written ∨ ∃ fact ∈ facts, fact.superclass? = some written
  includes : after.includes = before.elim [] (·.includes) ++ facts.filterMap Fact.included?
  prepends : after.prepends = before.elim [] (·.prepends) ++ facts.filterMap Fact.prepended?

/-- One fact accounts for what it changes. -/
theorem Revision.account {before : Option Declaration} {fact : Fact} {after : Declaration}
    (hRevision : Revision before fact after) : Account before [fact] after := by
  cases hRevision
  case inherits hKind hAgrees =>
    constructor
    case superclass =>
      -- A superclass that was known before is the one that is written now.
      intro other
      constructor
      · intro hOther
        exact .inr ⟨_, List.mem_singleton_self _, hOther⟩
      · rintro (hKnown | ⟨fact, hFact, hOther⟩)
        · rw [hAgrees other hKnown]
        · obtain rfl := List.mem_singleton.1 hFact
          exact hOther
    all_goals simp
  case moduleAgain hKind => constructor <;> simp [hKind]
  all_goals constructor <;> simp

/-- Accounts add up. -/
theorem Account.append {before : Option Declaration} {facts more : List Fact}
    {middle after : Declaration} (hFirst : Account before facts middle)
    (hSecond : Account (some middle) more after) : Account before (facts ++ more) after := by
  constructor
  case isRoot =>
    rw [hSecond.isRoot, ← hFirst.isRoot]
    simp
  case isMixin =>
    rw [hSecond.isMixin, Option.map_some, Option.some.injEq, hFirst.isMixin, or_assoc]
    simp only [List.mem_append, or_and_right, exists_or]
  case superclass =>
    intro written
    rw [hSecond.superclass, Option.bind_some, hFirst.superclass, or_assoc]
    simp only [List.mem_append, or_and_right, exists_or]
  case includes =>
    rw [hSecond.includes, Option.elim_some, hFirst.includes, List.filterMap_append,
      List.append_assoc]
  case prepends =>
    rw [hSecond.prepends, Option.elim_some, hFirst.prepends, List.filterMap_append,
      List.append_assoc]

/-- **A name of which facts are told is known after them**, and they account for it. -/
theorem Revisions.account {before last : Option Declaration} {facts : List Fact}
    (hRevisions : Revisions before facts last) (hFacts : facts ≠ []) :
    ∃ d, last = some d ∧ Account before facts d := by
  induction hRevisions with
  | nil => exact absurd rfl hFacts
  | @cons before last fact rest d hFirst hRest ih =>
    by_cases hEmpty : rest = []
    · subst hEmpty
      cases hRest
      exact ⟨d, rfl, hFirst.account⟩
    · obtain ⟨after, hLast, hAccount⟩ := ih hEmpty
      exact ⟨after, hLast, hFirst.account.append hAccount⟩

/-- What is known after some facts, be they none, is accounted for. -/
theorem Revisions.account_of_some {before : Option Declaration} {facts : List Fact}
    {d : Declaration} (hRevisions : Revisions before facts (some d)) : Account before facts d := by
  by_cases hFacts : facts = []
  · subst hFacts
    rw [← hRevisions.eq_of_nil]
    constructor <;> simp
  · obtain ⟨after, hAfter, hAccount⟩ := hRevisions.account hFacts
    obtain rfl : d = after := Option.some.inj hAfter
    exact hAccount

/-- What is known stays known. -/
theorem Revisions.exists_of_some {first : Declaration} {facts : List Fact}
    {last : Option Declaration} (hRevisions : Revisions (some first) facts last) :
    ∃ d, last = some d := by
  by_cases hFacts : facts = []
  · subst hFacts
    exact ⟨first, hRevisions.eq_of_nil⟩
  · obtain ⟨d, hLast, -⟩ := hRevisions.account hFacts
    exact ⟨d, hLast⟩

/-- The first that is known of a name is that it is declared. -/
theorem Revisions.exists_declares {facts : List Fact} {d : Declaration}
    (hRevisions : Revisions none facts (some d)) : ∃ fact ∈ facts, fact.declares = true := by
  cases hRevisions with
  | cons hFirst hRest =>
    refine ⟨_, List.mem_cons_self, ?_⟩
    cases hFirst <;> rfl

namespace DeclarationTable

/-! ## Facts and tables -/

/-- The table with some more facts, unless a rule forbids one of them. -/
def addAll (table : DeclarationTable) (facts : List Fact) : Option DeclarationTable :=
  facts.foldlM add? table

/-- The declared names after one more fact. -/
def declaredWith (table : DeclarationTable) (fact : Fact) : List String :=
  if fact.declares = false ∨ fact.subject ∈ table.declared then table.declared
  else table.declared ++ [fact.subject]

/-- A fact that declares adds its subject to the declared names, any other adds none. -/
theorem mem_declaredWith {table : DeclarationTable} {fact : Fact} {name : String} :
    name ∈ table.declaredWith fact ↔
      name ∈ table.declared ∨ fact.declares = true ∧ fact.subject = name := by
  rw [declaredWith]
  split
  · rename_i hNothing
    constructor
    · exact Or.inl
    · rintro (hMem | ⟨hDeclares, rfl⟩)
      · exact hMem
      · rcases hNothing with hSilent | hMem
        · rw [hSilent] at hDeclares
          cases hDeclares
        · exact hMem
  · rename_i hNew
    rw [not_or, Bool.not_eq_false] at hNew
    rw [List.mem_append, List.mem_singleton, and_iff_right hNew.1, eq_comm]

/-- A name that is declared again is not listed again. -/
theorem nodup_declaredWith {table : DeclarationTable} (fact : Fact)
    (hNodup : table.declared.Nodup) : (table.declaredWith fact).Nodup := by
  rw [declaredWith]
  split
  · exact hNodup
  · rename_i hNew
    rw [not_or] at hNew
    exact List.nodup_append.2 ⟨hNodup, List.nodup_singleton _, fun name hName other hOther =>
      List.mem_singleton.1 hOther ▸ ne_of_mem_of_not_mem hName hNew.2⟩

theorem revision_of_addClass {table next : DeclarationTable} {name : String}
    {superclass : Option String} (hAdd : table.addClass name superclass = some next) :
    ∃ d, Revision (table.known.get? name) (.isClass name superclass) d ∧
      next = table.declare name d := by
  rw [addClass] at hAdd
  -- A new class, a known one, or one that gets its superclass: one case per way out of `addClass`.
  cases hKnown : table.known.get? name with
  | none =>
    rw [hKnown] at hAdd
    exact ⟨_, .newClass, (Option.some.inj hAdd).symm⟩
  | some d =>
    rw [hKnown] at hAdd
    dsimp only at hAdd
    split at hAdd
    · cases hAdd
    · rename_i hKind
      exact ⟨d, .classAgain hKind, (Option.some.inj hAdd).symm⟩
    · cases hAdd
    · rename_i written hKind
      split at hAdd
      · rename_i hAgrees
        refine ⟨_, .inherits hKind fun other hOther => ?_, (Option.some.inj hAdd).symm⟩
        simpa [hOther] using hAgrees
      · cases hAdd

/-- A module line that is accepted revises what is known of its subject. -/
theorem revision_of_addModule {table next : DeclarationTable} {name : String}
    (hAdd : table.addModule name = some next) :
    ∃ d, Revision (table.known.get? name) (.isModule name) d ∧ next = table.declare name d := by
  rw [addModule] at hAdd
  cases hKnown : table.known.get? name with
  | none =>
    rw [hKnown] at hAdd
    exact ⟨_, .newModule, (Option.some.inj hAdd).symm⟩
  | some d =>
    rw [hKnown] at hAdd
    dsimp only at hAdd
    split at hAdd
    · rename_i hKind
      exact ⟨d, .moduleAgain hKind, (Option.some.inj hAdd).symm⟩
    · cases hAdd

theorem exists_of_amend {table next : DeclarationTable} {name : String}
    {change : Declaration → Declaration} (hAmend : table.amend name change = some next) :
    ∃ d, table.known.get? name = some d ∧
      next = { table with known := table.known.insert name (change d) } := by
  obtain ⟨d, hKnown, hNext⟩ := Option.map_eq_some_iff.1 hAmend
  exact ⟨d, hKnown, hNext.symm⟩

/-- **One fact**: what is known of its subject is revised, and all else is left alone. -/
theorem revision_of_add? {table next : DeclarationTable} {fact : Fact}
    (hAdd : table.add? fact = some next) :
    ∃ d, Revision (table.known.get? fact.subject) fact d ∧
      next.known = table.known.insert fact.subject d ∧ next.declared = table.declaredWith fact := by
  cases fact with
  | isClass name superclass =>
    obtain ⟨d, hRevision, rfl⟩ := revision_of_addClass hAdd
    exact ⟨d, hRevision, rfl, by simp [declare, declaredWith, Fact.declares, Fact.subject]⟩
  | isModule name =>
    obtain ⟨d, hRevision, rfl⟩ := revision_of_addModule hAdd
    exact ⟨d, hRevision, rfl, by simp [declare, declaredWith, Fact.declares, Fact.subject]⟩
  | includes name modules =>
    obtain ⟨d, hKnown, rfl⟩ := exists_of_amend hAdd
    exact ⟨_, hKnown ▸ .includes, rfl, rfl⟩
  | prepends name modules =>
    obtain ⟨d, hKnown, rfl⟩ := exists_of_amend hAdd
    exact ⟨_, hKnown ▸ .prepends, rfl, rfl⟩

theorem addAll_cons_eq_some {table last : DeclarationTable} {fact : Fact} {rest : List Fact}
    (hAdd : table.addAll (fact :: rest) = some last) :
    ∃ next, table.add? fact = some next ∧ next.addAll rest = some last := by
  rw [addAll, List.foldlM_cons] at hAdd
  exact Option.bind_eq_some_iff.1 hAdd

/-- **What is known of a name** after some facts is what the facts about it have made of it. -/
theorem revisions_of_addAll {table last : DeclarationTable} {facts : List Fact}
    (hAdd : table.addAll facts = some last) (name : String) :
    Revisions (table.known.get? name) (facts.filter (·.subject = name))
      (last.known.get? name) := by
  induction facts generalizing table with
  | nil =>
    cases hAdd
    exact .nil
  | cons fact rest ih =>
    obtain ⟨next, hFirst, hRest⟩ := addAll_cons_eq_some hAdd
    obtain ⟨d, hRevision, hNext, -⟩ := revision_of_add? hFirst
    have hLater := ih hRest
    rw [hNext, OrderedMap.get?_insert] at hLater
    by_cases hSubject : fact.subject = name
    · rw [if_pos hSubject.symm] at hLater
      rw [List.filter_cons_of_pos (by simpa using hSubject), ← hSubject]
      exact .cons hRevision (hSubject ▸ hLater)
    · rw [if_neg (Ne.symm hSubject)] at hLater
      rwa [List.filter_cons_of_neg (by simpa using hSubject)]

/-- **The declared names** after some facts are those before, and the subjects of the facts that
    declare one, each of them once. -/
theorem declared_of_addAll {table last : DeclarationTable} {facts : List Fact}
    (hAdd : table.addAll facts = some last) :
    (table.declared.Nodup → last.declared.Nodup) ∧
      ∀ name, name ∈ last.declared ↔
        name ∈ table.declared ∨ ∃ fact ∈ facts, fact.declares = true ∧ fact.subject = name := by
  induction facts generalizing table with
  | nil =>
    cases hAdd
    simp
  | cons fact rest ih =>
    obtain ⟨next, hFirst, hRest⟩ := addAll_cons_eq_some hAdd
    obtain ⟨-, -, -, hNext⟩ := revision_of_add? hFirst
    obtain ⟨hNodup, hMem⟩ := ih hRest
    rw [hNext] at hNodup hMem
    refine ⟨fun hBefore => hNodup (nodup_declaredWith fact hBefore), fun name => ?_⟩
    rw [hMem, mem_declaredWith, or_assoc, List.exists_mem_cons_iff]

/-! ## The facts of a dump -/

/-- The facts that a dump states, line by line. -/
def facts (dump : String) : List Fact :=
  (Text.lines dump.toList).filterMap fun line => Fact.ofLine? (Text.trim line)

/-- The table of some lines has exactly their facts. -/
theorem addAll_of_addLines {table last : DeclarationTable} {number : Nat}
    {lines : List (List Char)} (hLines : table.addLines number lines = .ok last) :
    table.addAll (lines.filterMap fun line => Fact.ofLine? (Text.trim line)) = some last := by
  -- On the lines, for any table and number: a silent line adds no fact, any other the one it
  -- states.
  induction lines generalizing table number with
  | nil =>
    cases hLines
    rfl
  | cons line rest ih =>
    rw [addLines] at hLines
    split at hLines
    · rename_i next hLine
      rw [addLine?] at hLine
      split at hLine
      · rename_i hSilent
        cases hLine
        rw [List.filterMap_cons_none (by rw [Fact.ofLine?, if_pos hSilent])]
        exact ih hLines
      · rename_i hTold
        obtain ⟨fact, hFact, hAdd⟩ := Option.bind_eq_some_iff.1 hLine
        have hStated : Fact.ofLine? (Text.trim line) = some fact := by
          rw [Fact.ofLine?, if_neg hTold, hFact]
        rw [List.filterMap_cons, hStated, addAll, List.foldlM_cons, hAdd]
        exact ih hLines
    · cases hLines

theorem addAll_of_ofDump {dump : String} {table : DeclarationTable}
    (hDump : ofDump dump = .ok table) : initial.addAll (facts dump) = some table :=
  addAll_of_addLines hDump

end DeclarationTable

end Lineage
