/-
  The order in which methods are resolved.

  Of the methods of one name on a chain of classes one counts: the first declaration in the nearest
  class that declares the name (`FirstDeclared`).  Its PLACE is how many classes are nearer and how
  many methods stand before it in its own class.  The symbols of the chain are those of all names
  that it declares, ordered by their places (`InResolutionOrder`, which leaves nothing open).  A
  class may stand on a chain twice, and may declare a name twice; what comes later never counts.

  What runs is not told by classes: it goes through the methods of the whole chain and keeps the
  first of each name.  So what is first among these (`mem_firstByName_iff`, `pairwise_firstByName`)
  is carried over to classes and places.  The crux is `FirstDeclared.lt`: a method that stands
  before another one in this row has the lower place, since the class it counts for can only be
  nearer than the one it was seen in.
-/
import Lineage.Proofs.Hierarchy.Run
import Mathlib.Data.List.Infix
import Mathlib.Data.List.Nodup
import Mathlib.Data.Prod.Lex

namespace Lineage

/-! ## What counts on a chain -/

/-- The first declaration of a name in the nearest class that declares it, and its place. -/
def FirstDeclared (members : String → List MethodDescriptor) (chain : List String)
    (m : MethodDescriptor) (place : Nat × Nat) : Prop :=
  ∃ nearer className farther before behind,
    chain = nearer ++ className :: farther ∧ members className = before ++ m :: behind ∧
    (∀ other ∈ nearer, ∀ d ∈ members other, d.name ≠ m.name) ∧
    (∀ d ∈ before, d.name ≠ m.name) ∧ place = (nearer.length, before.length)

/-- A symbol shows the first declaration of its name, which has this place. -/
def Symbol.StandsAt (members : String → List MethodDescriptor) (chain : List String)
    (symbol : Symbol) (place : Nat × Nat) : Prop :=
  ∃ m, FirstDeclared members chain m place ∧ symbol.name = m.name ∧ symbol.owner = m.ownerName ∧
    symbol.visibility = m.visibility ∧ symbol.location = m.location

/-- The symbols of a chain as they are to be resolved. -/
structure InResolutionOrder (members : String → List MethodDescriptor) (chain : List String)
    (root : RootScope) (symbols : List Symbol) : Prop where
  distinct : (symbols.map Symbol.name).Nodup
  complete : ∀ name, (∃ symbol ∈ symbols, symbol.name = name) ↔
    ∃ className ∈ chain, ∃ m ∈ members className, m.name = name
  standing : ∀ symbol ∈ symbols, ∃ place, symbol.StandsAt members chain place
  ordered : symbols.Pairwise fun first second => ∀ p q, first.StandsAt members chain p →
    second.StandsAt members chain q → Prod.Lex (· < ·) (· < ·) p q
  stamped : ∀ symbol ∈ symbols, symbol.root = root

variable {members : String → List MethodDescriptor} {chain : List String}
  {methods : List MethodDescriptor} {m n : MethodDescriptor} {p q : Nat × Nat}

/-! ## The first of each name -/

/-- A method is kept if it is the first of its name. -/
theorem mem_firstByName_iff :
    m ∈ firstByName methods ↔
      ∃ before behind, methods = before ++ m :: behind ∧ ∀ d ∈ before, d.name ≠ m.name := by
  induction methods with
  | nil => simp [firstByName]
  | cons first rest ih =>
    rw [firstByName, List.mem_cons, List.mem_filter, ih, decide_eq_true_eq]
    constructor
    · rintro (rfl | ⟨⟨before, behind, rfl, hBefore⟩, hOther⟩)
      · exact ⟨[], rest, rfl, nofun⟩
      · exact ⟨first :: before, behind, rfl, List.forall_mem_cons.2 ⟨hOther.symm, hBefore⟩⟩
    · rintro ⟨before, behind, hSplit, hBefore⟩
      cases before with
      | nil => exact .inl (List.cons.inj hSplit).1.symm
      | cons c before =>
        obtain ⟨rfl, rfl⟩ := List.cons.inj hSplit
        obtain ⟨hFirst, hBefore⟩ := List.forall_mem_cons.1 hBefore
        exact .inr ⟨⟨before, behind, rfl, hBefore⟩, hFirst.symm⟩

theorem mem_of_mem_firstByName (hm : m ∈ firstByName methods) : m ∈ methods := by
  obtain ⟨before, behind, rfl, -⟩ := mem_firstByName_iff.1 hm
  exact List.mem_append_right _ List.mem_cons_self

/-- No name is kept twice. -/
theorem nodup_names_firstByName (methods : List MethodDescriptor) :
    ((firstByName methods).map (·.name)).Nodup := by
  induction methods with
  | nil => exact List.nodup_nil
  | cons first rest ih =>
    rw [firstByName, List.map_cons, List.nodup_cons]
    refine ⟨?_, ih.sublist (List.filter_sublist.map _)⟩
    simp

/-- Of each name one method is kept. -/
theorem eq_of_mem_firstByName (hm : m ∈ firstByName methods) (hn : n ∈ firstByName methods)
    (hName : m.name = n.name) : m = n :=
  List.inj_on_of_nodup_map (nodup_names_firstByName methods) hm hn hName

/-- The kept methods stand as they were declared. -/
theorem pairwise_firstByName (methods : List MethodDescriptor) :
    (firstByName methods).Pairwise fun m n =>
      ∀ before behind, methods = before ++ n :: behind → m ∈ before := by
  induction methods with
  | nil => exact .nil
  | cons first rest ih =>
    -- What is kept of the rest has another name than the first method, so its place is behind that.
    have hBehind : ∀ n ∈ (firstByName rest).filter (·.name ≠ first.name), ∀ before behind,
        first :: rest = before ++ n :: behind →
          ∃ between, before = first :: between ∧ rest = between ++ n :: behind := by
      intro n hn before behind hSplit
      have hOther : n.name ≠ first.name := of_decide_eq_true (List.mem_filter.1 hn).2
      cases before with
      | nil => exact absurd (congrArg (·.name) (List.cons.inj hSplit).1).symm hOther
      | cons c between =>
        obtain ⟨rfl, hRest⟩ := List.cons.inj hSplit
        exact ⟨between, rfl, hRest⟩
    rw [firstByName]
    refine .cons ?_ ((ih.filter _).imp_of_mem ?_)
    · intro n hn before behind hSplit
      obtain ⟨between, rfl, -⟩ := hBehind n hn before behind hSplit
      exact List.mem_cons_self
    · intro m n _ hn hEarlier before behind hSplit
      obtain ⟨between, rfl, hRest⟩ := hBehind n hn before behind hSplit
      exact List.mem_cons_of_mem _ (hEarlier between behind hRest)

/-! ## From methods to classes -/

/-- What has a member with a property has a first one. -/
theorem exists_first {α : Type} {P : α → Prop} {list : List α} (hSome : ∃ a ∈ list, P a) :
    ∃ before a behind, list = before ++ a :: behind ∧ P a ∧ ∀ b ∈ before, ¬ P b := by
  induction list with
  | nil => simp at hSome
  | cons first rest ih =>
    by_cases hFirst : P first
    · exact ⟨[], first, rest, rfl, hFirst, nofun⟩
    · obtain ⟨before, a, behind, rfl, ha, hBefore⟩ := ih (by simpa [hFirst] using hSome)
      exact ⟨first :: before, a, behind, rfl, ha, List.forall_mem_cons.2 ⟨hFirst, hBefore⟩⟩

/-- Of two beginnings the one without a property is the shorter one if the other one has it. -/
theorem length_lt_of_front {α : Type} {P : α → Prop} {list front other : List α}
    (hFront : front <+: list) (hOther : other <+: list) (hNone : ∀ b ∈ front, ¬ P b) {a : α}
    (hMem : a ∈ other) (hHas : P a) : front.length < other.length := by
  by_contra hLonger
  have hPrefix := List.prefix_of_prefix_length_le hOther hFront (Nat.not_lt.1 hLonger)
  exact hNone a (hPrefix.subset hMem) hHas

/-- A name that is declared has a first declaration. -/
theorem exists_firstDeclared {name : String}
    (hDeclared : ∃ className ∈ chain, ∃ m ∈ members className, m.name = name) :
    ∃ m place, FirstDeclared members chain m place ∧ m.name = name := by
  obtain ⟨nearer, className, farther, hChain, hHere, hNearer⟩ := exists_first hDeclared
  obtain ⟨before, m, behind, hMembers, rfl, hBefore⟩ := exists_first hHere
  refine ⟨m, _, ⟨nearer, className, farther, before, behind, hChain, hMembers, ?_, hBefore, rfl⟩,
    rfl⟩
  exact fun other hOther d hMem hName => hNearer other hOther ⟨d, hMem, hName⟩

/-- The methods of a chain around a method of one of its classes. -/
theorem flatMap_eq_append {nearer farther : List String} {className : String}
    {before behind : List MethodDescriptor} (hChain : chain = nearer ++ className :: farther)
    (hMembers : members className = before ++ m :: behind) :
    chain.flatMap members =
      (nearer.flatMap members ++ before) ++ m :: (behind ++ farther.flatMap members) := by
  rw [hChain, List.flatMap_append, List.flatMap_cons, hMembers]
  simp

/-- A first declaration is kept. -/
theorem FirstDeclared.mem_firstByName (hm : FirstDeclared members chain m p) :
    m ∈ firstByName (chain.flatMap members) := by
  obtain ⟨nearer, className, farther, before, behind, hChain, hMembers, hNearer, hBefore, -⟩ := hm
  refine mem_firstByName_iff.2 ⟨_, _, flatMap_eq_append hChain hMembers, ?_⟩
  refine List.forall_mem_append.2 ⟨fun d hMem => ?_, hBefore⟩
  obtain ⟨other, hOther, hMem⟩ := List.mem_flatMap.1 hMem
  exact hNearer other hOther d hMem

/-- A name has one first declaration. -/
theorem FirstDeclared.unique (hm : FirstDeclared members chain m p)
    (hn : FirstDeclared members chain n q) (hName : m.name = n.name) : m = n :=
  eq_of_mem_firstByName hm.mem_firstByName hn.mem_firstByName hName

/-- What is kept is a first declaration. -/
theorem exists_firstDeclared_of_mem (hm : m ∈ firstByName (chain.flatMap members)) :
    ∃ place, FirstDeclared members chain m place := by
  obtain ⟨className, hClass, hMem⟩ := List.mem_flatMap.1 (mem_of_mem_firstByName hm)
  obtain ⟨n, place, hn, hName⟩ := exists_firstDeclared ⟨className, hClass, m, hMem, rfl⟩
  obtain rfl := eq_of_mem_firstByName hn.mem_firstByName hm hName
  exact ⟨place, hn⟩

/-- **What stands before in the row of methods has the lower place.** -/
theorem FirstDeclared.lt (hm : FirstDeclared members chain m p)
    (hn : FirstDeclared members chain n q)
    (hEarlier : ∀ before behind, chain.flatMap members = before ++ n :: behind → m ∈ before) :
    Prod.Lex (· < ·) (· < ·) p q := by
  obtain ⟨nearer, className, farther, before, behind, hChain, hMembers, hNearer, hBefore, rfl⟩ := hm
  obtain ⟨closer, other, rest, front, back, hSplit, hOther, -, -, rfl⟩ := hn
  have hUndeclared : ∀ c ∈ nearer, ¬ ∃ d ∈ members c, d.name = m.name :=
    fun c hc hDeclared => hDeclared.elim fun d hd => hNearer c hc d hd.1 hd.2
  rcases List.mem_append.1 (hEarlier _ _ (flatMap_eq_append hSplit hOther)) with hCloser | hOwn
  · -- A class that is nearer than that of `n` declares the name of `m`.
    obtain ⟨c, hc, hMem⟩ := List.mem_flatMap.1 hCloser
    exact .left _ _ (length_lt_of_front ⟨_, hChain.symm⟩ ⟨_, hSplit.symm⟩ hUndeclared hc
      ⟨m, hMem, rfl⟩)
  · -- The class of `n` itself does, so that of `m` is not farther away.
    have hMem : m ∈ members other := hOther ▸ List.mem_append_left _ hOwn
    have hLength : nearer.length < (closer ++ [other]).length :=
      length_lt_of_front ⟨_, hChain.symm⟩ ⟨rest, by simp [hSplit]⟩ hUndeclared
        (List.mem_append_right _ List.mem_cons_self) ⟨m, hMem, rfl⟩
    rw [List.length_append, List.length_singleton] at hLength
    rcases Nat.lt_or_eq_of_le (Nat.le_of_lt_succ hLength) with hNear | hSame
    · exact .left _ _ hNear
    · obtain ⟨rfl, hRest⟩ := List.append_inj (hChain.symm.trans hSplit) hSame
      obtain ⟨rfl, -⟩ := List.cons.inj hRest
      exact .right _ (length_lt_of_front ⟨_, hMembers.symm⟩ ⟨_, hOther.symm⟩ hBefore hOwn rfl)

/-! ## Symbols -/

theorem Symbol.standsAt_ofMethod (hm : FirstDeclared members chain m p) (root : RootScope) :
    (Symbol.ofMethod root m).StandsAt members chain p :=
  ⟨m, hm, rfl, rfl, rfl, rfl⟩

/-- The place of a symbol is one of the method that it was made of. -/
theorem Symbol.StandsAt.firstDeclared {root : RootScope}
    (hm : m ∈ firstByName (chain.flatMap members))
    (hPlace : (Symbol.ofMethod root m).StandsAt members chain p) :
    FirstDeclared members chain m p := by
  obtain ⟨n, hn, hName, -⟩ := hPlace
  obtain rfl := eq_of_mem_firstByName hm hn.mem_firstByName hName
  exact hn

/-- **The symbols of a chain are in resolution order.** -/
theorem inResolutionOrder_symbols (members : String → List MethodDescriptor) (chain : List String)
    (root : RootScope) :
    InResolutionOrder members chain root
      ((firstByName (chain.flatMap members)).map (Symbol.ofMethod root)) where
  -- Each field from the matching fact about `firstByName`, with places for positions.
  distinct := by
    rw [List.map_map]
    exact nodup_names_firstByName _
  complete := by
    intro name
    constructor
    · rintro ⟨symbol, hSymbol, rfl⟩
      obtain ⟨m, hm, rfl⟩ := List.mem_map.1 hSymbol
      obtain ⟨className, hClass, hMem⟩ := List.mem_flatMap.1 (mem_of_mem_firstByName hm)
      exact ⟨className, hClass, m, hMem, rfl⟩
    · intro hDeclared
      obtain ⟨m, place, hm, hName⟩ := exists_firstDeclared hDeclared
      exact ⟨_, List.mem_map_of_mem hm.mem_firstByName, hName⟩
  standing := by
    intro symbol hSymbol
    obtain ⟨m, hm, rfl⟩ := List.mem_map.1 hSymbol
    obtain ⟨place, hPlace⟩ := exists_firstDeclared_of_mem hm
    exact ⟨place, Symbol.standsAt_ofMethod hPlace root⟩
  ordered := by
    refine List.pairwise_map.2 ((pairwise_firstByName _).imp_of_mem ?_)
    intro m n hm hn hEarlier p q hp hq
    exact (hp.firstDeclared hm).lt (hq.firstDeclared hn) hEarlier
  stamped := by
    intro symbol hSymbol
    obtain ⟨m, -, rfl⟩ := List.mem_map.1 hSymbol
    rfl

/-- Each symbol is that of a method which is the first of its name. -/
theorem InResolutionOrder.exists_eq_ofMethod {root : RootScope} {symbols : List Symbol}
    (hSymbols : InResolutionOrder members chain root symbols) {symbol : Symbol}
    (hMem : symbol ∈ symbols) :
    ∃ m place, FirstDeclared members chain m place ∧ symbol = Symbol.ofMethod root m := by
  obtain ⟨place, m, hm, hName, hOwner, hVisibility, hLocation⟩ := hSymbols.standing symbol hMem
  refine ⟨m, place, hm, ?_⟩
  rw [Symbol.ofMethod, ← hName, ← hOwner, ← hVisibility, ← hLocation,
    ← hSymbols.stamped symbol hMem]

/-- The resolution order leaves nothing open. -/
theorem InResolutionOrder.unique {root : RootScope} {symbols others : List Symbol}
    (hSymbols : InResolutionOrder members chain root symbols)
    (hOthers : InResolutionOrder members chain root others) : symbols = others := by
  have hSubset : ∀ {symbols others : List Symbol}, InResolutionOrder members chain root symbols →
      InResolutionOrder members chain root others → ∀ symbol ∈ symbols, symbol ∈ others := by
    intro symbols others hSymbols hOthers symbol hMem
    obtain ⟨other, hOther, hName⟩ := (hOthers.complete symbol.name).2
      ((hSymbols.complete symbol.name).1 ⟨symbol, hMem, rfl⟩)
    obtain ⟨m, p, hm, rfl⟩ := hSymbols.exists_eq_ofMethod hMem
    obtain ⟨n, q, hn, rfl⟩ := hOthers.exists_eq_ofMethod hOther
    obtain rfl := hm.unique hn hName.symm
    exact hOther
  -- Each name has one method that is declared first, so both lists have the same symbols.
  have hPerm : symbols.Perm others :=
    (List.perm_ext_iff_of_nodup hSymbols.distinct.of_map hOthers.distinct.of_map).2 fun symbol =>
      ⟨hSubset hSymbols hOthers symbol, hSubset hOthers hSymbols symbol⟩
  -- They also have them in the same order, as two symbols cannot stand before each other.
  refine hPerm.eq_of_pairwise ?_ hSymbols.ordered hOthers.ordered
  intro first second hFirst hSecond hLower hHigher
  obtain ⟨p, hp⟩ := hSymbols.standing first hFirst
  obtain ⟨q, hq⟩ := hOthers.standing second hSecond
  have hLt := Prod.lex_def.1 (hLower p q hp hq)
  have hGt := Prod.lex_def.1 (hHigher q p hq hp)
  omega

/-! ## Queries -/

namespace HierarchyCache

variable {cache : HierarchyCache} {table : AncestorTable} {className : String}

/-- A class with a chain has the first method of each name along it. -/
theorem resolveMembers_of_chain (hTable : cache.ancestorTable.1 = .value table)
    (hChain : table.get? className = some chain) (hSteady : ¬ cache.provider.CrashesOn chain)
    (root : RootScope) :
    (cache.resolveMembers className root).1 =
      .value ((firstByName (chain.flatMap cache.provider.members)).map (Symbol.ofMethod root)) := by
  have hLoaded : cache.ancestorTable = (.value table, cache.ancestorTable.2) := by rw [← hTable]
  have hProvider : cache.ancestorTable.2.provider = cache.provider := rfl
  obtain ⟨outcome, asked, hResolve, hOutcome⟩ := resolveMembers_of_value hLoaded className root
  rw [hProvider] at hOutcome
  rw [hResolve]
  rcases hOutcome with rfl | ⟨-, other, hOther, hCrash⟩
  · rw [AncestorTable.symbols, hChain]
  · rw [hChain, Option.some.injEq] at hOther
    exact absurd (hOther ▸ hCrash) hSteady

/-- **Members are resolved in the order of the chain**: each name once, by the first declaration in
    the nearest class that has one, and the answers for two roots differ in nothing but the root. -/
theorem resolveMembers_inResolutionOrder (hTable : cache.ancestorTable.1 = .value table)
    (hChain : table.get? className = some chain) (hSteady : ¬ cache.provider.CrashesOn chain)
    (root : RootScope) :
    ∃ symbols, (cache.resolveMembers className root).1 = .value symbols ∧
      InResolutionOrder cache.provider.members chain root symbols ∧
      ∀ other, (cache.resolveMembers className other).1 =
        .value (symbols.map fun symbol => { symbol with root := other }) := by
  refine ⟨_, resolveMembers_of_chain hTable hChain hSteady root,
    inResolutionOrder_symbols _ chain root, fun other => ?_⟩
  rw [resolveMembers_of_chain hTable hChain hSteady other, List.map_map]
  rfl

/-- A circle's methods, one of them declared twice, and those that it would inherit. -/
def drawingMembers (className : String) : List MethodDescriptor :=
  let method := fun name visibility => ⟨.ofProject className, name, visibility, none⟩
  if className = "Circle" then
    [method "scale" .isPublic, method "area" .isPublic, method "area" .isPrivate]
  else if className = "Shape" then [method "area" .isProtected, method "draw" .isPublic]
  else [method "draw" .isPrivate, method "scale" .isPrivate, method "inspect" .isPublic]

/-- A chain in which a class occurs twice. -/
def drawingRecords : List AncestorRecord := [⟨"Circle", ["Circle", "Shape", "Circle", "Object"]⟩]

/-- A cache over these records. -/
def drawing : HierarchyCache :=
  fresh ⟨"drawing"⟩ (.materialized drawingRecords) { members := drawingMembers }

/-- A circle stands on its chain twice; its own methods come first, and once. -/
theorem resolveMembers_inResolutionOrder_circle :
    let table := AncestorTable.ofRecords drawingRecords
    let chain := ["Circle", "Shape", "Circle", "Object"]
    let symbols := fun root : RootScope => [⟨"scale", "Circle", .isPublic, none, root⟩,
      ⟨"area", "Circle", .isPublic, none, root⟩, ⟨"draw", "Shape", .isPublic, none, root⟩,
      ⟨"inspect", "Object", .isPublic, none, root⟩]
    drawing.ancestorTable.1 = .value table ∧ table.get? "Circle" = some chain ∧
      ¬ drawing.provider.CrashesOn chain ∧
      (drawing.resolveMembers "Circle" ⟨1⟩).1 = .value (symbols ⟨1⟩) ∧
      InResolutionOrder drawingMembers chain ⟨1⟩ (symbols ⟨1⟩) ∧
      (drawing.resolveMembers "Circle" ⟨2⟩).1 = .value (symbols ⟨2⟩) := by
  intro table chain symbols
  have hTable : drawing.ancestorTable.1 = .value table := rfl
  have hChain : table.get? "Circle" = some chain := by decide
  have hSteady : ¬ drawing.provider.CrashesOn chain := by
    rintro ⟨before, className, behind, -, hCrash⟩
    exact Bool.false_ne_true hCrash
  obtain ⟨answer, hAnswer, hOrder, hOther⟩ :=
    resolveMembers_inResolutionOrder hTable hChain hSteady ⟨1⟩
  have hComputed : (drawing.resolveMembers "Circle" ⟨1⟩).1 = .value (symbols ⟨1⟩) := by decide
  rw [hComputed, Outcome.value.injEq] at hAnswer
  subst hAnswer
  exact ⟨hTable, hChain, hSteady, hComputed, hOrder, hOther ⟨2⟩⟩

end HierarchyCache

end Lineage
