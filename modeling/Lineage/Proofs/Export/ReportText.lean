/-
  The report of ancestors loses nothing.

  The report puts no quotes around names and no lengths in front of them; what keeps it apart is
  that a line end stands behind every name and behind every chain, and a blank behind every
  ancestor.  So a text that begins with the report of a record tells the record and what comes after
  it (`renderRecord_append_inj`), as long as no name of a module holds a line end, and no name of an
  ancestor a line end or a blank.

  An empty chain is written in words that could be ancestors, `Nothing found`.  There is no blank
  behind them, and behind an ancestor there always is one; that alone tells the two apart, whatever
  the ancestors are called.
-/
import Lineage.Export.Ancestors
import Lineage.Proofs.Ancestry.PlainNames

namespace Lineage.AncestorsReport

/-- A record whose names the report can tell apart. -/
structure IsReportable (record : AncestorRecord) : Prop where
  name : '\n' ∉ record.name.toList
  ancestors : ∀ ancestor ∈ record.ancestors, ' ' ∉ ancestor.toList ∧ '\n' ∉ ancestor.toList

/-! ## Chains -/

/-- The ancestors as they are written, with a blank behind each. -/
def spelledOut (ancestors : List String) : List Char :=
  ancestors.flatMap fun ancestor => ancestor.toList ++ [' ']

/-- A chain as it is written. -/
def chainText (ancestors : List String) : List Char :=
  if ancestors = [] then "Nothing found".toList else spelledOut ancestors

theorem toList_renderRecord (record : AncestorRecord) :
    (renderRecord record).toList = "Module: ".toList ++ (record.name.toList ++ '\n' ::
      ("Ancestors: ".toList ++ (chainText record.ancestors ++ '\n' :: ['\n']))) := by
  obtain ⟨name, ancestors⟩ := record
  cases ancestors with
  | nil => simp [renderRecord, chainText]
  | cons first rest =>
    simp [renderRecord, chainText, spelledOut, String.toList_join, List.flatMap_map]

theorem spelledOut_cons (first : String) (rest : List String) :
    spelledOut (first :: rest) = first.toList ++ ' ' :: spelledOut rest := by
  simp [spelledOut]

/-- Ancestors are read back, each up to the blank behind it. -/
theorem spelledOut_inj {first second : List String}
    (hFirst : ∀ ancestor ∈ first, ' ' ∉ ancestor.toList)
    (hSecond : ∀ ancestor ∈ second, ' ' ∉ ancestor.toList)
    (hSame : spelledOut first = spelledOut second) : first = second := by
  induction first generalizing second with
  | nil =>
    cases second with
    | nil => rfl
    | cons other others => simp [spelledOut] at hSame
  | cons ancestor rest ih =>
    cases second with
    | nil => simp [spelledOut] at hSame
    | cons other others =>
      obtain ⟨hAncestor, hRest⟩ := List.forall_mem_cons.1 hFirst
      obtain ⟨hOther, hOthers⟩ := List.forall_mem_cons.1 hSecond
      rw [spelledOut_cons, spelledOut_cons] at hSame
      obtain ⟨hName, hBehind⟩ := Text.append_separator_inj hAncestor hOther hSame
      rw [String.toList_inj.1 hName, ih hRest hOthers hBehind]

/-- Behind the last ancestor there is a blank, too. -/
theorem getLast?_spelledOut {ancestors : List String} (hSome : ancestors ≠ []) :
    (spelledOut ancestors).getLast? = some ' ' := by
  obtain ⟨front, last, rfl⟩ := (List.eq_nil_or_concat ancestors).resolve_left hSome
  simp [spelledOut]

/-- **No ancestors are written like an empty chain**, whatever they are called. -/
theorem chainText_nil_ne {ancestors : List String} (hSome : ancestors ≠ []) :
    chainText [] ≠ chainText ancestors := by
  intro hSame
  rw [chainText, chainText, if_pos rfl, if_neg hSome] at hSame
  have hLast := getLast?_spelledOut hSome
  rw [← hSame] at hLast
  exact absurd hLast (by decide)

/-- Ancestors without spaces can be told apart in the text of their chain. -/
theorem chainText_inj {first second : List String}
    (hFirst : ∀ ancestor ∈ first, ' ' ∉ ancestor.toList)
    (hSecond : ∀ ancestor ∈ second, ' ' ∉ ancestor.toList)
    (hSame : chainText first = chainText second) : first = second := by
  by_cases hNone : first = []
  · subst hNone
    by_contra hOther
    exact chainText_nil_ne (Ne.symm hOther) hSame
  · by_cases hNone' : second = []
    · subst hNone'
      exact absurd hSame.symm (chainText_nil_ne hNone)
    · rw [chainText, chainText, if_neg hNone, if_neg hNone'] at hSame
      exact spelledOut_inj hFirst hSecond hSame

/-- A chain stands on one line. -/
theorem newline_not_mem_chainText {ancestors : List String}
    (hAncestors : ∀ ancestor ∈ ancestors, '\n' ∉ ancestor.toList) : '\n' ∉ chainText ancestors := by
  rw [chainText]
  split
  · decide
  · intro hMem
    obtain ⟨ancestor, hAncestor, hMem⟩ := List.mem_flatMap.1 hMem
    rcases List.mem_append.1 hMem with hMem | hMem
    · exact hAncestors ancestor hAncestor hMem
    · exact absurd (List.mem_singleton.1 hMem) (by decide)

/-! ## Reports -/

/-- **A record is told by the report that begins with it**, and so is what comes behind. -/
theorem renderRecord_append_inj {first second : AncestorRecord} (hFirst : IsReportable first)
    (hSecond : IsReportable second) {after after' : List Char}
    (hSame : (renderRecord first).toList ++ after = (renderRecord second).toList ++ after') :
    first = second ∧ after = after' := by
  have hChain : ∀ {record}, IsReportable record → '\n' ∉ chainText record.ancestors :=
    fun hRecord =>
      newline_not_mem_chainText fun ancestor hMem => (hRecord.ancestors ancestor hMem).2
  have hWords : ∀ {record}, IsReportable record → ∀ ancestor ∈ record.ancestors,
      ' ' ∉ ancestor.toList := fun hRecord ancestor hMem => (hRecord.ancestors ancestor hMem).1
  simp only [toList_renderRecord, List.append_assoc, List.cons_append] at hSame
  obtain ⟨hName, hSecondLine⟩ :=
    Text.append_separator_inj hFirst.name hSecond.name (List.append_cancel_left hSame)
  obtain ⟨hChains, hBehind⟩ := Text.append_separator_inj (hChain hFirst) (hChain hSecond)
    (List.append_cancel_left hSecondLine)
  have hAncestors := chainText_inj (hWords hFirst) (hWords hSecond) hChains
  obtain ⟨name, ancestors⟩ := first
  obtain ⟨name', ancestors'⟩ := second
  obtain rfl : name = name' := String.toList_inj.1 hName
  obtain rfl : ancestors = ancestors' := hAncestors
  exact ⟨rfl, List.tail_eq_of_cons_eq hBehind⟩

theorem toList_render (records : List AncestorRecord) :
    (render records).toList = records.flatMap fun record => (renderRecord record).toList := by
  rw [render, String.toList_join, List.flatMap_map]

/-- Two lists of records that can be reported have two reports. -/
theorem render_inj {first second : List AncestorRecord}
    (hFirst : ∀ record ∈ first, IsReportable record)
    (hSecond : ∀ record ∈ second, IsReportable record)
    (hSame : render first = render second) : first = second := by
  rw [← String.toList_inj, toList_render, toList_render] at hSame
  induction first generalizing second with
  | nil =>
    cases second with
    | nil => rfl
    | cons other others => simp [toList_renderRecord] at hSame
  | cons record rest ih =>
    cases second with
    | nil => simp [toList_renderRecord] at hSame
    | cons other others =>
      obtain ⟨hRecord, hRest⟩ := List.forall_mem_cons.1 hFirst
      obtain ⟨hOther, hOthers⟩ := List.forall_mem_cons.1 hSecond
      rw [List.flatMap_cons, List.flatMap_cons] at hSame
      obtain ⟨rfl, hBehind⟩ := renderRecord_append_inj hRecord hOther hSame
      rw [ih hRest hOthers hBehind]

/-! ## Records that are extracted -/

/-- Whatever is read from the output of an interpreter can be reported. -/
theorem isReportable_of_read {strategy : Strategy} {output : String} {records : List AncestorRecord}
    (hRead : strategy.read output = .ok records) : ∀ record ∈ records, IsReportable record := by
  have hPlain : ∀ {name : String}, Plain name → ' ' ∉ name.toList ∧ '\n' ∉ name.toList :=
    fun hName => ⟨hName.not_mem (by decide), hName.not_mem (by decide)⟩
  intro record hRecord
  cases strategy with
  | objectSpace =>
    obtain ⟨hName, hAncestors⟩ := ObjectSpace.parse_names hRead record hRecord
    exact ⟨hName, fun ancestor hMem => hPlain (hAncestors ancestor hMem)⟩
  | declarations =>
    obtain ⟨hName, hAncestors⟩ := DeclarationTable.linearize_names hRead record hRecord
    exact ⟨(hPlain hName).2, fun ancestor hMem => hPlain (hAncestors ancestor hMem)⟩

/-- An extraction that ends with records has read them from what was printed. -/
theorem exists_read_of_extract {σ : Type} {strategy : Strategy} {listener : Listener σ} {heard : σ}
    {console : Console} {project : Project} {interpreter : Interpreter}
    {records : List AncestorRecord}
    (hExtract : (strategy.extract listener heard console project interpreter).result =
      .value records) :
    ∃ output, strategy.read output = .ok records := by
  rw [Strategy.extract, Console.execute] at hExtract
  dsimp only at hExtract
  -- Records come from an output that was read; every other reply fails or crashes.
  cases hReply : console.reply console.log.length with
  | output output =>
    rw [hReply] at hExtract
    dsimp only at hExtract
    refine ⟨output, ?_⟩
    cases hRead : strategy.read output with
    | ok read =>
      rw [hRead] at hExtract
      cases hExtract
      rfl
    | error failure =>
      rw [hRead] at hExtract
      cases hExtract
  | refused _ | unreadable _ | crash =>
    rw [hReply] at hExtract
    cases hExtract

/-- **The report loses nothing.**  Two lists of records with one report are the same list, if no
    name of a module holds a line end, and no name of an ancestor a blank or a line end; all records
    that either strategy extracts, from whatever console and whoever listens, are of this kind.  And
    wherever in a report a module without ancestors stands, with ancestors it would be another
    report, whatever they are called. -/
theorem render_lossless :
    (∀ first second : List AncestorRecord, (∀ record ∈ first, IsReportable record) →
      (∀ record ∈ second, IsReportable record) → render first = render second → first = second) ∧
    (∀ (σ : Type) (listener : Listener σ) (heard : σ) (strategy : Strategy) (console : Console)
      (project : Project) (interpreter : Interpreter) (records : List AncestorRecord),
      (strategy.extract listener heard console project interpreter).result = .value records →
        ∀ record ∈ records, IsReportable record) ∧
    ∀ (before after : List AncestorRecord) (name : String) (ancestors : List String),
      ancestors ≠ [] →
        render (before ++ ⟨name, []⟩ :: after) ≠ render (before ++ ⟨name, ancestors⟩ :: after) := by
  refine ⟨fun first second hFirst hSecond => render_inj hFirst hSecond,
    fun σ listener heard strategy console project interpreter records hExtract => ?_,
    fun before after name ancestors hSome hSame => ?_⟩
  · obtain ⟨output, hRead⟩ := exists_read_of_extract hExtract
    exact isReportable_of_read hRead
  · rw [← String.toList_inj, toList_render, toList_render, List.flatMap_append, List.flatMap_append,
      List.flatMap_cons, List.flatMap_cons] at hSame
    have hRecord := List.append_cancel_right (List.append_cancel_left hSame)
    rw [toList_renderRecord, toList_renderRecord] at hRecord
    -- All but the chain is the same on both sides.
    have hLines := List.tail_eq_of_cons_eq
      (List.append_cancel_left (List.append_cancel_left hRecord))
    exact chainText_nil_ne hSome (List.append_cancel_right (List.append_cancel_left hLines))

example : render [⟨"Box", []⟩] = "Module: Box\nAncestors: Nothing found\n\n" ∧
    render [⟨"Box", ["Nothing", "found"]⟩] = "Module: Box\nAncestors: Nothing found \n\n" := by
  decide

end Lineage.AncestorsReport
