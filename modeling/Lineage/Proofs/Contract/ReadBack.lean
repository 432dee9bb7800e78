/-
  What a registry of calls answers about the release that was recorded just now.

  Signatures are kept by ORIGIN, the name and the version of a library, but asked for by VERSION
  alone, and versions compare by their runs: `4.2` of one library, `4.2` of another and `4-2` are
  three origins of one version.  The signatures of a shape and of an equal version are the RIVALS
  for an answer.  The origin that was recorded first among them answers, with what was recorded for
  it last (`returnType?_of_rivals`).

  So a signature is not always read back (`not_forall_returnType?_record`).  It is if its own origin
  was the first of its rivals, and `returnType?_record` says what is read in every case.
-/
import Lineage.Proofs.Contract.Log
import Lineage.Proofs.Contract.VersionOrder

namespace Lineage

/-! ## Versions that are equal -/

namespace Version

/-- The earliest candidate of an equal version is the nearest one. -/
theorem nearest_of_find? {β : Type} {wanted : String} {candidates : List (String × β)}
    {candidate : String × β}
    (hFound : candidates.find? (fun c => compare c.1 wanted = .eq) = some candidate) :
    nearest wanted candidates = some candidate.2 := by
  rw [nearest, hFound]

end Version

/-! ## Rivals for an answer -/

namespace SignatureRegistry

/-- The signatures of this shape that were recorded under an equal version, earliest first. -/
def rivals (told : List CallSignature) (shape : CallShape) (version : String) :
    List CallSignature :=
  told.filter fun s => s.shape = shape && Version.compare s.origin.version version = .eq

/-- What is kept under an origin was recorded for it. -/
theorem origin_of_mem_observed {told : List CallSignature} {shape : CallShape}
    {entry : LibraryOrigin × CallSignature} (hEntry : entry ∈ (observed told shape).entries) :
    entry.2.origin = entry.1 := by
  have hKept := OrderedMap.get?_eq_some_iff_mem.2 hEntry
  rw [observed, OrderedMap.get?_ofList, Option.map_eq_some_iff] at hKept
  obtain ⟨pair, hPair, hValue⟩ := hKept
  obtain ⟨hTold, hKey⟩ := List.mem_filter.1 (List.mem_of_getLast? hPair)
  obtain ⟨s, -, rfl⟩ := List.mem_map.1 hTold
  rw [← hValue]
  exact of_decide_eq_true hKey

/-- The origin of the first rival is the first one of an equal version. -/
theorem find?_keys_observed {told : List CallSignature} {shape : CallShape} {version : String}
    {first : CallSignature} (hFirst : (rivals told shape version).head? = some first) :
    (observed told shape).keys.find? (fun o => Version.compare o.version version = .eq) =
      some first.origin := by
  rw [rivals, List.head?_filter] at hFirst
  rw [observed, OrderedMap.find?_keys_ofList, List.map_map, List.find?_map, List.find?_filter]
  simpa using ⟨first, hFirst, rfl⟩

/-- What is kept under the first rival's origin is the last rival that has this origin. -/
theorem get?_observed {told : List CallSignature} {shape : CallShape} {version : String}
    {first : CallSignature} (hFirst : (rivals told shape version).head? = some first) :
    (observed told shape).get? first.origin =
      ((rivals told shape version).filter (·.origin = first.origin)).getLast? := by
  have hEqual : Version.compare first.origin.version version = .eq := by
    have hMem := List.mem_filter.1 (List.mem_of_head? hFirst)
    simpa using (Bool.and_eq_true_iff.1 hMem.2).2
  -- One origin has one version, so all signatures of the shape with this origin are rivals.
  have hFilter : (rivals told shape version).filter (·.origin = first.origin) =
      (told.filter (·.shape = shape)).filter (·.origin = first.origin) := by
    rw [rivals, List.filter_filter, List.filter_filter]
    refine List.filter_congr fun s _ => ?_
    by_cases hOrigin : s.origin = first.origin
    · simp [hOrigin, hEqual]
    · simp [hOrigin]
  rw [observed, OrderedMap.get?_ofList, List.filter_map, List.getLast?_map, Option.map_map, hFilter]
  exact Option.map_id'

/-- **The registry's answer** for a version: of the rivals, the origin that was recorded first,
    with what was recorded for it last. -/
theorem returnType?_of_rivals {registry : SignatureRegistry} {told : List CallSignature}
    (hTold : registry.Summarizes told) {shape : CallShape} {version : String}
    {first : CallSignature} (hFirst : (rivals told shape version).head? = some first) :
    registry.returnType? shape.methodName shape.receiverName shape.argumentTypes (some version) =
      ((rivals told shape version).filter (·.origin = first.origin)).getLast?.map
        (·.returnType) := by
  obtain ⟨latest, hLatest, hEntry⟩ := OrderedMap.find?_entries (find?_keys_observed hFirst)
  have hCandidates : ((observed told shape).values.map fun s => (s.origin.version, s.returnType)) =
      (observed told shape).entries.map fun e => (e.1.version, e.2.returnType) := by
    rw [OrderedMap.values, List.map_map]
    refine List.map_congr_left fun entry hEntry => ?_
    rw [Function.comp_apply, origin_of_mem_observed hEntry]
  have hFound : ((observed told shape).entries.map fun e => (e.1.version, e.2.returnType)).find?
      (fun c => Version.compare c.1 version = .eq) =
        some (first.origin.version, latest.returnType) := by
    rw [List.find?_map]
    exact congrArg (Option.map _) hEntry
  rw [returnType?, hTold, Option.getD_some, hCandidates, Version.nearest_of_find? hFound,
    ← get?_observed hFirst, hLatest, Option.map_some]

/-- A signature is the last of its rivals when it was recorded just now. -/
theorem rivals_concat (told : List CallSignature) (signature : CallSignature) :
    rivals (told ++ [signature]) signature.shape signature.origin.version =
      rivals told signature.shape signature.origin.version ++ [signature] := by
  have hEqual : Version.compare signature.origin.version signature.origin.version = .eq :=
    Std.ReflCmp.compare_self
  rw [rivals, List.filter_append, List.filter_cons_of_pos (by simp [hEqual]), List.filter_nil,
    rivals]

/-- **What is read back** of a signature that was recorded just now: what the first origin among its
    rivals has.  That is the signature itself if this origin is its own, and it is its own if
    nothing of an equal version was recorded under another one. -/
theorem returnType?_record (log : List Operation) (signature : CallSignature) :
    ∃ first latest,
      (rivals (recorded log ++ [signature]) signature.shape signature.origin.version).head? =
        some first ∧
      ((rivals (recorded log ++ [signature]) signature.shape signature.origin.version).filter
        (·.origin = first.origin)).getLast? = some latest ∧
      ((performAll log).record signature).returnType? signature.methodName signature.receiverName
        signature.argumentTypes (some signature.origin.version) = some latest.returnType ∧
      (first.origin = signature.origin → latest = signature) ∧
      ((∀ rival ∈ rivals (recorded log) signature.shape signature.origin.version,
        rival.origin = signature.origin) → first.origin = signature.origin) := by
  have hSummary : ((performAll log).record signature).Summarizes (recorded log ++ [signature]) :=
    (performAll_summarizes log).perform (.record signature)
  -- The signature itself is one of the rivals, so there is a first one, and a latest of its origin.
  obtain ⟨first, hFirst⟩ : ∃ first, (rivals (recorded log ++ [signature]) signature.shape
      signature.origin.version).head? = some first := by
    rw [rivals_concat]
    exact ⟨_, List.head?_eq_some_head (by simp)⟩
  have hAnswer := returnType?_of_rivals hSummary hFirst
  have hMem := List.mem_of_head? hFirst
  obtain ⟨latest, hLatest⟩ : ∃ latest, ((rivals (recorded log ++ [signature]) signature.shape
      signature.origin.version).filter (·.origin = first.origin)).getLast? = some latest :=
    ⟨_, List.getLast?_eq_some_getLast
      (List.ne_nil_of_mem (List.mem_filter.2 ⟨hMem, decide_eq_true rfl⟩))⟩
  refine ⟨first, latest, hFirst, hLatest, ?_, ?_, ?_⟩
  · rw [hLatest] at hAnswer
    exact hAnswer
  · intro hOwn
    -- The signature is the last rival, so if it has the origin of the first it is the latest of it.
    rw [rivals_concat, List.filter_append, List.filter_cons_of_pos (by simp [hOwn]),
      List.filter_nil, List.getLast?_concat] at hLatest
    exact (Option.some.inj hLatest).symm
  · intro hAlone
    rw [rivals_concat] at hMem
    rcases List.mem_append.1 hMem with hBefore | hNow
    · exact hAlone first hBefore
    · rw [List.mem_singleton.1 hNow]

/-- A call of `User.find` with an integer, as seen with version `4.2.0` of a library. -/
def findUser (library returnType : String) : CallSignature where
  methodName := "find"
  receiverName := "User"
  returnType := returnType
  origin := ⟨library, "4.2.0"⟩
  visibility := .isPublic
  parameters := [⟨"id", .req⟩]
  argumentTypes := ["Integer"]

/-- A signature is not read back where another library had the version before. -/
theorem not_forall_returnType?_record : ¬ ∀ (log : List Operation) (signature : CallSignature),
    ((performAll log).record signature).returnType? signature.methodName signature.receiverName
      signature.argumentTypes (some signature.origin.version) = some signature.returnType := by
  intro hAlways
  have hSecond := hAlways [.record (findUser "a" "A")] (findUser "b" "B")
  revert hSecond
  decide

end SignatureRegistry

end Lineage
