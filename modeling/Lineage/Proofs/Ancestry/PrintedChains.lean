/-
  Printed ancestor chains are read back.

  A console prints a line for each module it looks at: its name, a colon, a blank, and its ancestors
  with blanks between them.  A name may have colons in it and at its end, but no white space, so the
  first colon with a blank behind it is the one that was printed (`splitAtColon_append`); where
  there are no ancestors the blank is lost with the end of the line, and the last colon is the one.

  Reading takes the lines by their contents, so white space around them and blank lines in between
  change nothing.  What is kept of the lines is an ordered map in which later lines replace earlier
  ones, and the records are its entries, sorted: no name comes twice, so they ascend strictly.
-/
import Lineage.Ancestry.ObjectSpace
import Lineage.Proofs.Text.ByteOrder
import Lineage.Proofs.Text.Spacing

namespace Lineage.ObjectSpace

open Text

/-! ## What is printed -/

/-- The line for a module with this name and these ancestors. -/
def printedLine (name : String) (ancestors : List String) : String :=
  name ++ ": " ++ " ".intercalate ancestors

/-- The lines for some modules, one below the other. -/
def printed (modules : List (String × List String)) : String :=
  .join (modules.map fun module => printedLine module.1 module.2 ++ "\n")

/-- A module whose name and ancestors can be told apart on a line. -/
structure IsPrintable (module : String × List String) : Prop where
  name : IsWord module.1.toList
  ancestors : ∀ ancestor ∈ module.2, IsWord ancestor.toList

instance (module : String × List String) : Decidable (IsPrintable module) :=
  decidable_of_iff (IsWord module.1.toList ∧ ∀ ancestor ∈ module.2, IsWord ancestor.toList)
    ⟨fun ⟨hName, hAncestors⟩ => ⟨hName, hAncestors⟩, fun hModule =>
      ⟨hModule.name, hModule.ancestors⟩⟩

/-- Those with a name of their own. -/
def named (names : List String) : List String := names.filter fun name => !isAnonymous name.toList

theorem toList_printedLine (name : String) (ancestors : List String) :
    (printedLine name ancestors).toList =
      name.toList ++ ':' :: ' ' :: [' '].intercalate (ancestors.map String.toList) := by
  simp [printedLine, String.toList_intercalate]

theorem toList_printed (modules : List (String × List String)) :
    (printed modules).toList =
      (modules.map fun module => (printedLine module.1 module.2).toList).flatMap
        fun line => line ++ ['\n'] := by
  simp [printed, String.toList_join, List.flatMap_map]

/-! ## One line -/

theorem ne_space_of_isWord {word : List Char} (hWord : IsWord word) : ∀ c ∈ word, c ≠ ' ' := by
  rintro c hMem rfl
  exact Bool.false_ne_true ((hWord.unbroken ' ' hMem).symm.trans (by decide))

/-- A character without a blank behind it is passed over. -/
theorem splitAtColon_cons (c : Char) {rest : List Char} (hRest : rest.head? ≠ some ' ') :
    splitAtColon (c :: rest) =
      (splitAtColon rest).map fun (before, after) => (c :: before, after) := by
  rw [splitAtColon]
  rintro after - rfl
  exact hRest rfl

/-- **The colon that was printed** is found, whatever colons the name has. -/
theorem splitAtColon_append {name : List Char} (hName : ∀ c ∈ name, c ≠ ' ') (chain : List Char) :
    splitAtColon (name ++ ':' :: ' ' :: chain) = some (name, chain) := by
  induction name with
  | nil => rfl
  | cons c rest ih =>
    obtain ⟨-, hRest⟩ := List.forall_mem_cons.1 hName
    have hNext : (rest ++ ':' :: ' ' :: chain).head? ≠ some ' ' := by
      cases rest with
      | nil => simp
      | cons next others =>
        rw [List.cons_append, List.head?_cons, ne_eq, Option.some.injEq]
        exact hRest next List.mem_cons_self
    rw [List.cons_append, splitAtColon_cons c hNext, ih hRest]
    rfl

/-- Without a space there is no `: ` to split at. -/
theorem splitAtColon_eq_none {text : List Char} (hText : ∀ c ∈ text, c ≠ ' ') :
    splitAtColon text = none := by
  induction text with
  | nil => rfl
  | cons c rest ih =>
    obtain ⟨-, hRest⟩ := List.forall_mem_cons.1 hText
    have hNext : rest.head? ≠ some ' ' := fun hHead =>
      hRest ' ' (List.mem_of_head? hHead) rfl
    rw [splitAtColon_cons c hNext, ih hRest]
    rfl

/-- A name with the colon behind it is still one word. -/
theorem isWord_concat_colon {name : List Char} (hName : IsWord name) : IsWord (name ++ [':']) where
  nonempty := List.concat_ne_nil ':' name
  unbroken c hMem := by
    rcases List.mem_append.1 hMem with hMem | hMem
    · exact hName.unbroken c hMem
    · obtain rfl := List.mem_singleton.1 hMem
      decide

/-- Without ancestors the blank is lost. -/
theorem trim_printedLine_nil {name : String} (hName : IsWord name.toList) :
    trim (printedLine name []).toList = name.toList ++ [':'] := by
  have hColon := isWord_concat_colon hName
  have hSpace : AllBlank [' '] := by
    rw [AllBlank, List.forall_mem_singleton]
    decide
  have hLine : (printedLine name []).toList = name.toList ++ [':'] ++ [' '] := by
    rw [toList_printedLine, List.append_assoc]
    rfl
  rw [hLine, trim_append_allBlank _ hSpace, hColon.trim_eq]

/-- A word or more, with blanks in between, ends as its last word does. -/
theorem getLast?_intercalate {texts : List (List Char)} (hTexts : texts ≠ [])
    (hWords : ∀ text ∈ texts, IsWord text) :
    ∃ last, ([' '].intercalate texts).getLast? = some last ∧ isBlank last = false := by
  induction texts with
  | nil => exact absurd rfl hTexts
  | cons first rest ih =>
    obtain ⟨hFirst, hRest⟩ := List.forall_mem_cons.1 hWords
    cases rest with
    | nil =>
      rw [List.intercalate_singleton, List.getLast?_eq_some_getLast hFirst.nonempty]
      exact ⟨_, rfl, hFirst.unbroken _ (List.getLast_mem _)⟩
    | cons second others =>
      obtain ⟨last, hLast, hEnds⟩ := ih (List.cons_ne_nil second others) hRest
      rw [List.intercalate_cons_cons, List.getLast?_append, hLast]
      exact ⟨last, rfl, hEnds⟩

/-- With ancestors the line is trimmed already. -/
theorem trim_printedLine {name : String} {ancestors : List String} (hName : IsWord name.toList)
    (hAncestors : ∀ ancestor ∈ ancestors, IsWord ancestor.toList) (hSome : ancestors ≠ []) :
    trim (printedLine name ancestors).toList = (printedLine name ancestors).toList := by
  have hTexts : ancestors.map String.toList ≠ [] := by simpa using hSome
  obtain ⟨last, hLast, hEnds⟩ := getLast?_intercalate hTexts (List.forall_mem_map.2 hAncestors)
  have hLineFirst : (printedLine name ancestors).toList.head? =
      some (name.toList.head hName.nonempty) := by
    rw [toList_printedLine, List.head?_append, List.head?_eq_some_head hName.nonempty]
    rfl
  have hLineLast : (printedLine name ancestors).toList.getLast? = some last := by
    rw [toList_printedLine, List.getLast?_append, List.getLast?_cons_cons, List.getLast?_cons,
      hLast]
    rfl
  exact trim_eq_self hLineFirst hLineLast (hName.unbroken _ (List.head_mem _)) hEnds

/-- **A printed line is read back**, without the anonymous ancestors. -/
theorem entry?_printedLine {name : String} {ancestors : List String} (hName : IsWord name.toList)
    (hAncestors : ∀ ancestor ∈ ancestors, IsWord ancestor.toList) :
    entry? (trim (printedLine name ancestors).toList) =
      some (name.toList, (named ancestors).map String.toList) := by
  have hNamed : (ancestors.map String.toList).filter (fun ancestor => !isAnonymous ancestor) =
      (named ancestors).map String.toList := by
    rw [named, List.filter_map]
    rfl
  by_cases hNone : ancestors = []
  · subst hNone
    have hColon := isWord_concat_colon hName
    rw [trim_printedLine_nil hName, entry?, splitAtColon_eq_none (ne_space_of_isWord hColon)]
    simp [hName.trim_eq, hName.nonempty, words, split, named]
  · have hWords := words_intercalate (List.forall_mem_map.2 hAncestors)
    rw [trim_printedLine hName hAncestors hNone, toList_printedLine, entry?,
      splitAtColon_append (ne_space_of_isWord hName)]
    simp [hName.trim_eq, hName.nonempty, hWords, hNamed]

/-! ## All lines -/

/-- What a line does to the chains: it gives the module its chain, or does nothing if the module is
    anonymous. -/
def addModule (chains : OrderedMap String (List String)) (module : String × List String) :
    OrderedMap String (List String) :=
  if isAnonymous module.1.toList then chains else chains.insert module.1 (named module.2)

/-- **Lines that hold what was printed** are read one after the other, each as its module. -/
theorem addLines_of_contents {modules : List (String × List String)}
    (hModules : ∀ module ∈ modules, IsPrintable module) {lines : List (List Char)}
    (hLines : (lines.map trim).filter (· ≠ []) =
      modules.map fun module => trim (printedLine module.1 module.2).toList)
    (chains : OrderedMap String (List String)) (number : Nat) :
    addLines chains number lines = .ok (modules.foldl addModule chains) := by
  -- On the lines and not on the modules: blank lines between them are skipped.
  induction lines generalizing modules chains number with
  | nil =>
    obtain rfl : modules = [] := by simpa using hLines.symm
    rfl
  | cons line rest ih =>
    rw [List.map_cons] at hLines
    rw [addLines]
    by_cases hBlank : trim line = []
    · rw [List.filter_cons_of_neg (by simpa using hBlank)] at hLines
      rw [if_pos hBlank]
      exact ih hModules hLines chains (number + 1)
    · rw [List.filter_cons_of_pos (by simpa using hBlank)] at hLines
      cases modules with
      | nil => cases hLines
      | cons module others =>
        obtain ⟨hModule, hOthers⟩ := List.forall_mem_cons.1 hModules
        rw [List.map_cons, List.cons.injEq] at hLines
        obtain ⟨hLine, hRest⟩ := hLines
        rw [if_neg hBlank, hLine, entry?_printedLine hModule.name hModule.ancestors]
        dsimp only
        rw [List.foldl_cons, addModule]
        split
        · exact ih hOthers hRest chains (number + 1)
        -- The names of the line are read as characters and kept as texts.
        · have hNamed :
              ((named module.2).map String.toList).map String.ofList = named module.2 := by
            simp [Function.comp_def]
          rw [String.ofList_toList, hNamed]
          exact ih hOthers hRest _ (number + 1)

/-- The modules that are kept, each with the ancestors that are. -/
def kept (modules : List (String × List String)) : List (String × List String) :=
  (modules.filter fun module => !isAnonymous module.1.toList).map fun module =>
    (module.1, named module.2)

/-- Adding modules one by one makes the map of those that are kept. -/
theorem foldl_addModule (modules : List (String × List String)) :
    modules.foldl addModule .empty = .ofList (kept modules) := by
  have hStep : addModule = fun chains module =>
      if !isAnonymous module.1.toList then chains.insert module.1 (named module.2) else chains := by
    funext chains module
    rw [addModule]
    cases isAnonymous module.1.toList <;> rfl
  rw [hStep, kept, OrderedMap.ofList, List.foldl_map, List.foldl_filter]

/-- The names that are kept are those with a name of their own. -/
theorem map_fst_kept (modules : List (String × List String)) :
    (kept modules).map Prod.fst = named (modules.map Prod.fst) := by
  rw [kept, List.map_map, named, List.filter_map]
  rfl

/-- What is found last in a list is behind nothing else of its kind. -/
theorem exists_of_getLast?_filter {α : Type} {p : α → Bool} {l : List α} {a : α}
    (hLast : (l.filter p).getLast? = some a) :
    p a = true ∧ ∃ earlier later, l = earlier ++ a :: later ∧ ∀ b ∈ later, p b = false := by
  obtain ⟨front, hFront⟩ := List.getLast?_eq_some_iff.1 hLast
  obtain ⟨before, behind, rfl, -, hBehind⟩ := List.filter_eq_append_iff.1 hFront
  obtain ⟨between, later, rfl, -, hHolds, hNothing⟩ := List.filter_eq_cons_iff.1 hBehind
  refine ⟨hHolds, before ++ between, later, (List.append_assoc _ _ _).symm, fun b hMem => ?_⟩
  simpa using List.filter_eq_nil_iff.1 hNothing b hMem

/-- **The last line of a name holds.** -/
theorem exists_of_get?_kept {modules : List (String × List String)} {name : String}
    {chain : List String} (hChain : (OrderedMap.ofList (kept modules)).get? name = some chain) :
    ∃ earlier ancestors later, modules = earlier ++ (name, ancestors) :: later ∧
      (∀ module ∈ later, module.1 ≠ name) ∧ chain = named ancestors := by
  rw [OrderedMap.get?_ofList, kept, List.filter_map, List.filter_filter, List.getLast?_map,
    Option.map_map] at hChain
  -- `kept` drops lines and shortens others, and the last one left of the name is the last one of
  -- it.
  obtain ⟨⟨other, ancestors⟩, hLast, rfl⟩ := Option.map_eq_some_iff.1 hChain
  obtain ⟨hHolds, earlier, later, hModules, hLater⟩ := exists_of_getLast?_filter hLast
  obtain ⟨hName, hNamed⟩ : other = name ∧ isAnonymous other.toList = false := by
    simpa using hHolds
  subst hName
  refine ⟨earlier, ancestors, later, hModules, fun module hMem hSame => ?_, rfl⟩
  have hOther := hLater module hMem
  simp [hSame, hNamed] at hOther

/-! ## The records -/

/-- Sorted by their names, of which none comes twice, records ascend by the bytes of the names. -/
theorem pairwise_sorted {records : List AncestorRecord}
    (hNames : (records.map (·.name)).Nodup) :
    (records.mergeSort fun a b => a.name ≤ b.name).Pairwise fun a b =>
      compare (Utf8.encode a.name) (Utf8.encode b.name) = .lt := by
  have hSorted : (records.mergeSort fun a b => a.name ≤ b.name).Pairwise
      fun a b => decide (a.name ≤ b.name) = true := by
    refine List.pairwise_mergeSort (fun a b c hFirst hSecond => ?_) (fun a b => ?_) records
    · rw [decide_eq_true_eq] at *
      exact String.le_trans hFirst hSecond
    · rw [Bool.or_eq_true, decide_eq_true_eq, decide_eq_true_eq]
      exact String.le_total a.name b.name
  -- Sorting only gives `≤`; that it is `<` comes from the names being distinct.
  have hApart : (records.mergeSort fun a b => a.name ≤ b.name).Pairwise
      fun a b => a.name ≠ b.name := by
    have hPerm := (records.mergeSort_perm fun a b => a.name ≤ b.name).map (·.name)
    exact List.pairwise_map.1 (hPerm.nodup_iff.2 hNames)
  refine (hSorted.and hApart).imp fun ⟨hOrder, hOther⟩ => Utf8.compare_encode_of_lt ?_
  exact Std.lt_of_le_of_ne (of_decide_eq_true hOrder) hOther

/-- The records that the lines of some modules are read as. -/
def recordsOf (modules : List (String × List String)) : List AncestorRecord :=
  ((OrderedMap.ofList (kept modules)).entries.map fun (name, ancestors) =>
    AncestorRecord.mk name ancestors).mergeSort fun a b => a.name ≤ b.name

/-- A printed line is never blank, so it is never skipped. -/
theorem trim_printedLine_ne_nil {module : String × List String} (hModule : IsPrintable module) :
    trim (printedLine module.1 module.2).toList ≠ [] := by
  intro hNothing
  have hEntry := entry?_printedLine hModule.name hModule.ancestors
  rw [hNothing] at hEntry
  cases hEntry

theorem newline_not_mem_printedLine {module : String × List String} (hModule : IsPrintable module) :
    '\n' ∉ (printedLine module.1 module.2).toList := by
  have hChain := newline_not_mem_intercalate (List.forall_mem_map.2 hModule.ancestors)
  rw [toList_printedLine]
  simp [hModule.name.newline_not_mem, hChain]

/-- **Only the contents of the lines are read.** -/
theorem parse_of_spaced {modules : List (String × List String)}
    (hModules : ∀ module ∈ modules, IsPrintable module) {text : String}
    (hText :
      Spaced (modules.map fun module => (printedLine module.1 module.2).toList) text.toList) :
    parse text = .ok (recordsOf modules) := by
  have hContents := contents_of_spaced hText <| List.forall_mem_map.2 fun module hMem =>
    ⟨newline_not_mem_printedLine (hModules module hMem),
      trim_printedLine_ne_nil (hModules module hMem)⟩
  rw [List.map_map] at hContents
  rw [parse, addLines_of_contents hModules hContents, foldl_addModule]
  rfl

/-- What was printed is read back. -/
theorem parse_of_printed {modules : List (String × List String)}
    (hModules : ∀ module ∈ modules, IsPrintable module) :
    parse (printed modules) = .ok (recordsOf modules) := by
  refine parse_of_spaced hModules ?_
  rw [toList_printed]
  exact spaced_flatMap _

/-- Each named module has one record. -/
theorem map_name_recordsOf_perm (modules : List (String × List String)) :
    ((recordsOf modules).map (·.name)).Perm (named (modules.map Prod.fst)).eraseDups := by
  have hKeys := OrderedMap.keys_ofList (kept modules)
  rw [map_fst_kept] at hKeys
  rw [← hKeys, OrderedMap.keys, Entries.keys]
  have hPerm := (List.mergeSort_perm ((OrderedMap.ofList (kept modules)).entries.map
    fun (name, ancestors) => AncestorRecord.mk name ancestors) fun a b => a.name ≤ b.name).map
      (·.name)
  rwa [List.map_map] at hPerm

/-- **What is printed is read back.**  Let names and ancestors be words.  The lines that are printed
    for some modules are read as records, and they are read as the same records with any white space
    around the lines and any blank lines in between.  There is one record for each name that is
    printed, unless it is anonymous; the records ascend by the bytes of their names; and the
    ancestors of a record are those of the last line of its name, in order, without the anonymous
    ones. -/
theorem parse_printed (modules : List (String × List String))
    (hModules : ∀ module ∈ modules, IsPrintable module) :
    ∃ records, parse (printed modules) = .ok records ∧
      (∀ text : String,
        Spaced (modules.map fun module => (printedLine module.1 module.2).toList) text.toList →
          parse text = .ok records) ∧
      (records.map (·.name)).Perm (named (modules.map Prod.fst)).eraseDups ∧
      (records.Pairwise fun a b => compare (Utf8.encode a.name) (Utf8.encode b.name) = .lt) ∧
      ∀ record ∈ records, ∃ earlier ancestors later,
        modules = earlier ++ (record.name, ancestors) :: later ∧
          (∀ module ∈ later, module.1 ≠ record.name) ∧ record.ancestors = named ancestors := by
  refine ⟨recordsOf modules, parse_of_printed hModules, fun text => parse_of_spaced hModules,
    map_name_recordsOf_perm modules, pairwise_sorted ?_, fun record hRecord => ?_⟩
  · rw [List.map_map]
    exact (OrderedMap.ofList (kept modules)).distinct
  · obtain ⟨⟨name, chain⟩, hEntry, rfl⟩ := List.mem_map.1 (List.mem_mergeSort.1 hRecord)
    exact exists_of_get?_kept (OrderedMap.get?_eq_some_iff_mem.2 hEntry)

/-- A module that is printed twice, an anonymous one, and one without ancestors whose name ends with
    a colon. -/
def printedTwice : List (String × List String) :=
  [("Page", ["Page", "Object"]), ("#<Class:0x1>", ["Object"]), ("A:", []),
    ("Page", ["Page", "#<Module:0x2>", "Box"])]

/-- The same lines with white space around them and between them. -/
def printedTwiceSpaced : String :=
  "\n\u3000Page: Page Object\r\n\n#<Class:0x1>: Object\nA:: \t\n Page: Page #<Module:0x2> Box"

/-- The lines that the example prints; two of them are of one module. -/
theorem lines_printedTwice :
    printedTwice.map (fun module => (printedLine module.1 module.2).toList) =
      ["Page: Page Object".toList, "#<Class:0x1>: Object".toList, "A:: ".toList,
        "Page: Page #<Module:0x2> Box".toList] := by
  decide +kernel

/-- The spaced text differs from them in blanks and empty lines only. -/
theorem spaced_printedTwice :
    Spaced (printedTwice.map fun module => (printedLine module.1 module.2).toList)
      printedTwiceSpaced.toList := by
  have hText : printedTwiceSpaced.toList =
      ['\n', '\u3000'] ++ "Page: Page Object".toList ++ ['\r'] ++ '\n' ::
        (['\n'] ++ "#<Class:0x1>: Object".toList ++ [] ++ '\n' ::
          ([] ++ "A:: ".toList ++ ['\t'] ++ '\n' ::
            ([' '] ++ "Page: Page #<Module:0x2> Box".toList ++ []))) := by
    decide +kernel
  rw [lines_printedTwice, hText]
  refine .cons (by decide +kernel) (by decide +kernel)
    (.cons (by decide +kernel) (by decide +kernel) ?_)
  exact .cons (by decide +kernel) (by decide +kernel)
    (.last (by decide +kernel) (by decide +kernel))

/-- The names are put in order, and the later line of the first module holds. -/
theorem recordsOf_printedTwice :
    recordsOf printedTwice = [⟨"A:", []⟩, ⟨"Page", ["Page", "Box"]⟩] := by
  have hEntries : (OrderedMap.ofList (kept printedTwice)).entries =
      [("Page", ["Page", "Box"]), ("A:", [])] := by
    decide +kernel
  have hOrder : ¬ "Page" ≤ "A:" := by decide +kernel
  rw [recordsOf, hEntries]
  simp [List.mergeSort, List.MergeSort.Internal.splitInTwo, hOrder]

/-- The later line of the first module holds, and white space does not matter. -/
theorem parse_printed_twice : (∀ module ∈ printedTwice, IsPrintable module) ∧
    parse printedTwiceSpaced = .ok [⟨"A:", []⟩, ⟨"Page", ["Page", "Box"]⟩] := by
  have hModules : ∀ module ∈ printedTwice, IsPrintable module := by decide +kernel
  obtain ⟨records, hPrinted, hSpaced, -⟩ := parse_printed printedTwice hModules
  have hRead := hPrinted.symm.trans (parse_of_printed hModules)
  rw [recordsOf_printedTwice] at hRead
  exact ⟨hModules, (hSpaced printedTwiceSpaced spaced_printedTwice).trans hRead⟩

end Lineage.ObjectSpace
