/-
  The order in which calls are recorded.

  A registry keeps the order of recording, and a look-up goes through the candidates in that order.
  But the order decides only between candidates of one version.  Where the versions that were
  recorded for a shape all differ, each candidate is the earliest of its own, so which one is
  selected depends on the candidates alone (`nearest_eq_of_perm`).  A registry that was told such
  signatures has all of them as candidates, in the order of recording (`values_observed`); told in
  another order it gives the same answers.
-/
import Lineage.Proofs.Contract.Log
import Lineage.Proofs.Contract.Nearest

namespace Lineage

/-! ## Candidates in another order -/

namespace Version

variable {β : Type} {wanted : String} {first second : List (String × β)} {c : String × β}
  {answer : Option β}

/-- No version is among the candidates twice, in whatever spelling. -/
def Apart (candidates : List (String × β)) : Prop :=
  candidates.Pairwise fun c d => compare c.1 d.1 ≠ .eq

theorem Apart.perm (hApart : Apart first) (hPerm : first.Perm second) : Apart second :=
  hPerm.pairwise hApart fun hOther hEqual => hOther (Std.OrientedCmp.eq_symm hEqual)

theorem Apart.isEarliest (hApart : Apart first) (hMem : c ∈ first) : IsEarliest first c := by
  obtain ⟨before, behind, rfl⟩ := List.append_of_mem hMem
  refine ⟨before, behind, rfl, fun d hBefore => ?_⟩
  exact (List.pairwise_append.1 hApart).2.2 d hBefore c List.mem_cons_self

theorem IsExact.perm (hApart : Apart first) (hPerm : first.Perm second)
    (hExact : IsExact wanted first c) : IsExact wanted second c where
  equal := hExact.equal
  earliest := (hApart.perm hPerm).isEarliest (hPerm.subset hExact.earliest.mem)

theorem IsNeighbour.perm {side : Ordering} (hApart : Apart first) (hPerm : first.Perm second)
    (hNeighbour : IsNeighbour side wanted first c) : IsNeighbour side wanted second c where
  here := hNeighbour.here
  closest := fun d hMem => hNeighbour.closest d (hPerm.symm.subset hMem)
  earliest := (hApart.perm hPerm).isEarliest (hPerm.subset hNeighbour.earliest.mem)

/-- So the same answer is to be selected in any order. -/
theorem Selects.perm (hApart : Apart first) (hPerm : first.Perm second)
    (hSelects : Selects wanted first answer) : Selects wanted second answer := by
  have hKept : ∀ {p : String × β → Prop}, (∀ d ∈ first, p d) → ∀ d ∈ second, p d :=
    fun hAll d hMem => hAll d (hPerm.symm.subset hMem)
  -- Each rule speaks of all candidates, or of the earliest of a version; the one is kept by
  -- `hPerm`, the other by `hApart`.
  cases hSelects with
  | nothing hNone =>
    subst hNone
    exact .nothing (List.perm_nil.1 hPerm.symm)
  | exact hExact => exact .exact (hExact.perm hApart hPerm)
  | oneSided hSide hNeighbour hAll =>
    exact .oneSided hSide (hNeighbour.perm hApart hPerm) (hKept hAll)
  | high hOther hLow hHigh hNearer =>
    exact .high (hKept hOther) (hLow.perm hApart hPerm) (hHigh.perm hApart hPerm) hNearer
  | low hOther hLow hHigh hNearer =>
    exact .low (hKept hOther) (hLow.perm hApart hPerm) (hHigh.perm hApart hPerm) hNearer

/-- **Among versions that all differ the order does not count.** -/
theorem nearest_eq_of_perm (hApart : Apart first) (hPerm : first.Perm second) (wanted : String) :
    nearest wanted first = nearest wanted second :=
  (((selects_nearest wanted first).perm hApart hPerm).nearest_eq).symm

end Version

/-! ## Signatures in another order -/

namespace SignatureRegistry

variable {told first second : List CallSignature}

/-- No version was recorded twice for one shape, be it in another spelling or for another library.
    So no origin was either (`VersionsApart.nodup_pairs`), and nothing was replaced. -/
def VersionsApart (told : List CallSignature) : Prop :=
  told.Pairwise fun s t =>
    s.shape = t.shape → Version.compare s.origin.version t.origin.version ≠ .eq

theorem VersionsApart.perm (hApart : VersionsApart first) (hPerm : first.Perm second) :
    VersionsApart second :=
  hPerm.pairwise hApart fun hOther hShape hEqual =>
    hOther hShape.symm (Std.OrientedCmp.eq_symm hEqual)

/-- Where versions are apart no shape is recorded twice from one origin. -/
theorem VersionsApart.nodup_pairs (hApart : VersionsApart told) :
    (told.map fun s => (s.shape, s.origin)).Nodup := by
  refine List.pairwise_map.2 (hApart.imp fun {s t} hOther hSame => ?_)
  obtain ⟨hShape, hOrigin⟩ := Prod.mk.inj hSame
  refine hOther hShape ?_
  rw [hOrigin]
  exact Std.ReflCmp.compare_self

/-- What is so of two signatures if they have one shape is so of any two of a shape. -/
theorem pairwise_filter_shape {R : CallSignature → CallSignature → Prop}
    (hAll : told.Pairwise fun s t => s.shape = t.shape → R s t) (shape : CallShape) :
    (told.filter (·.shape = shape)).Pairwise R := by
  refine (hAll.filter _).imp_of_mem fun {s t} hs ht hSame => hSame ?_
  have hs : s.shape = shape := of_decide_eq_true (List.mem_filter.1 hs).2
  have ht : t.shape = shape := of_decide_eq_true (List.mem_filter.1 ht).2
  exact hs.trans ht.symm

/-- The candidates for a shape have different versions. -/
theorem VersionsApart.apart (hApart : VersionsApart told) (shape : CallShape) :
    Version.Apart ((told.filter (·.shape = shape)).map fun s =>
      (s.origin.version, s.returnType)) :=
  List.pairwise_map.2 (pairwise_filter_shape hApart shape)

/-- All that was recorded for a shape is kept, in the order of recording. -/
theorem VersionsApart.values_observed (hApart : VersionsApart told) (shape : CallShape) :
    (observed told shape).values = told.filter (·.shape = shape) := by
  have hOrigins : told.Pairwise fun s t => s.shape = t.shape → s.origin ≠ t.origin :=
    (List.pairwise_map.1 hApart.nodup_pairs).imp fun hOther hShape hOrigin =>
      hOther (Prod.ext hShape hOrigin)
  have hDistinct : (Entries.keys ((told.filter (·.shape = shape)).map fun s =>
      (s.origin, s))).Nodup := by
    rw [Entries.keys, List.map_map]
    exact List.pairwise_map.2 (pairwise_filter_shape hOrigins shape)
  rw [observed, OrderedMap.values, OrderedMap.entries_ofList hDistinct, List.map_map]
  exact List.map_id _

/-- All that was recorded for a shape is a candidate for the answer. -/
theorem VersionsApart.returnType?_eq (hApart : VersionsApart told)
    (method receiver : String) (argumentTypes : List String) (installed : Option String) :
    (performAll (told.map .record)).returnType? method receiver argumentTypes installed =
      Version.nearest (installed.getD "")
        ((told.filter (·.shape = ⟨method, receiver, argumentTypes⟩)).map fun s =>
          (s.origin.version, s.returnType)) := by
  rw [returnType?, performAll_summarizes, recorded_map_record, hApart.values_observed]

/-- **The order of recording does not matter** where no version was recorded twice for one shape. -/
theorem returnType?_eq_of_perm (hPerm : first.Perm second) (hApart : VersionsApart first)
    (method receiver : String) (argumentTypes : List String) (installed : Option String) :
    (performAll (first.map .record)).returnType? method receiver argumentTypes installed =
      (performAll (second.map .record)).returnType? method receiver argumentTypes installed := by
  rw [hApart.returnType?_eq, (hApart.perm hPerm).returnType?_eq]
  exact Version.nearest_eq_of_perm (hApart.apart _) ((hPerm.filter _).map _) _

/-- A call of a class method of `User` with an integer, as seen with a release of `orm`. -/
def userCall (method version returnType : String) : CallSignature where
  methodName := method
  receiverName := "User"
  visibility := .isPublic
  argumentTypes := ["Integer"]
  origin := ⟨"orm", version⟩
  returnType := returnType

/-- Two releases of one method and one of them of another, told in either order: with `4.9` the
    method returns what it did with `4.2.0`. -/
theorem returnType?_eq_of_perm_twoReleases :
    let told := [userCall "find" "5.0.0" "User", userCall "take" "4.2.0" "Array",
      userCall "find" "4.2.0" "NilClass"]
    told.Perm told.reverse ∧ VersionsApart told ∧
      (performAll (told.map .record)).returnType? "find" "User" ["Integer"] (some "4.9") =
        some "NilClass" ∧
      (performAll (told.map .record)).returnType? "find" "User" ["Integer"] (some "4.9") =
        (performAll (told.reverse.map .record)).returnType? "find" "User" ["Integer"]
          (some "4.9") := by
  intro told
  have hPerm : told.Perm told.reverse := (List.reverse_perm told).symm
  have hApart : VersionsApart told := by
    unfold VersionsApart
    decide
  exact ⟨hPerm, hApart, by decide, returnType?_eq_of_perm hPerm hApart _ _ _ (some "4.9")⟩

end SignatureRegistry

end Lineage
