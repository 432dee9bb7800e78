/-
  All that a registry of calls answers, read off its log.

  Of the signatures that were recorded since the last clearing three things count: the call shapes
  in the order in which they were first seen (`shapesOf`), the origins of a shape in that order
  (`originsOf`), and what was recorded LAST for a shape and an origin (`latest?`).  A shape's first
  origin stands for it, with its latest signature (`standing?`).

  On the side of the log a signature belongs to a shape if its method name, its receiver name and
  its argument types are those of the shape (`IsCall`); how a registry files it is not asked.  That
  the two come to the same is `isCall_iff`, and nothing else is known of the way signatures are
  filed.

  The registry keeps a list of observations for each shape and replaces them in place, so its keys
  stand in these two orders (`keys_shapes_performAll`, `OrderedMap.keys_ofList`).  Its entries then
  say nothing more than its keys, and every answer is one about keys.
-/
import Lineage.Proofs.Contract.Log
import Mathlib.Data.List.Nodup

namespace Lineage.SignatureRegistry

/-! ## What counts of a log -/

/-- The signature is of a call of this shape: method, receiver and argument types agree. -/
def IsCall (shape : CallShape) (s : CallSignature) : Prop :=
  s.methodName = shape.methodName ∧ s.receiverName = shape.receiverName ∧
    s.argumentTypes = shape.argumentTypes

instance (shape : CallShape) (s : CallSignature) : Decidable (IsCall shape s) :=
  inferInstanceAs (Decidable (_ ∧ _))

/-- The shapes that were recorded, each where it was first recorded. -/
def shapesOf (told : List CallSignature) : List CallShape :=
  (told.map fun s => ⟨s.methodName, s.receiverName, s.argumentTypes⟩).eraseDups

/-- The origins that a shape was recorded with, each where it first was. -/
def originsOf (told : List CallSignature) (shape : CallShape) : List LibraryOrigin :=
  ((told.filter (IsCall shape)).map (·.origin)).eraseDups

/-- What was recorded last for a shape and an origin. -/
def latest? (told : List CallSignature) (shape : CallShape) (origin : LibraryOrigin) :
    Option CallSignature :=
  (told.filter fun s => IsCall shape s ∧ s.origin = origin).getLast?

/-- What stands for a shape: the latest signature of its first origin. -/
def standing? (told : List CallSignature) (shape : CallShape) : Option CallSignature :=
  (originsOf told shape).head?.bind (latest? told shape)

/-- The distinct pairs of a shape and an origin that were recorded. -/
def recordedPairs (told : List CallSignature) : List (CallShape × LibraryOrigin) :=
  (told.map fun s => (⟨s.methodName, s.receiverName, s.argumentTypes⟩, s.origin)).eraseDups

variable {told : List CallSignature} {shape : CallShape} {origin : LibraryOrigin}

/-- **A registry files a signature under the shape of its call.** -/
theorem isCall_iff {s : CallSignature} : IsCall shape s ↔ s.shape = shape := by
  obtain ⟨methodName, receiverName, argumentTypes⟩ := shape
  rw [IsCall, CallSignature.shape, CallShape.mk.injEq]

theorem mem_shapesOf : shape ∈ shapesOf told ↔ ∃ s ∈ told, IsCall shape s := by
  obtain ⟨methodName, receiverName, argumentTypes⟩ := shape
  simp only [shapesOf, List.mem_eraseDups, List.mem_map, CallShape.mk.injEq, IsCall]

theorem mem_originsOf :
    origin ∈ originsOf told shape ↔ ∃ s ∈ told, IsCall shape s ∧ s.origin = origin := by
  simp [originsOf, List.mem_eraseDups, and_assoc]

/-- Leaving out repetitions leaves none. -/
theorem nodup_eraseDups {α : Type} [BEq α] [LawfulBEq α] (list : List α) :
    list.eraseDups.Nodup := by
  match list with
  | [] => simp
  | first :: rest =>
    rw [List.eraseDups_cons, List.nodup_cons]
    refine ⟨?_, nodup_eraseDups _⟩
    simp [List.mem_eraseDups]
termination_by list.length
decreasing_by exact Nat.lt_succ_of_le (List.length_filter_le _ _)

theorem eraseDups_eq_nil_iff {α : Type} [BEq α] {list : List α} :
    list.eraseDups = [] ↔ list = [] := by
  cases list <;> simp [List.eraseDups_cons]

/-- Of an origin that was recorded there is a latest signature. -/
theorem exists_latest? (hOrigin : origin ∈ originsOf told shape) :
    ∃ s, latest? told shape origin = some s := by
  obtain ⟨s, hTold, hShape, hOwn⟩ := mem_originsOf.1 hOrigin
  refine ⟨_, List.getLast?_eq_some_getLast (List.ne_nil_of_mem (a := s) ?_)⟩
  simp [hTold, hShape, hOwn]

/-- A shape that was recorded has a signature that stands for it. -/
theorem exists_standing? (hShape : shape ∈ shapesOf told) :
    ∃ s, standing? told shape = some s := by
  obtain ⟨s, hTold, hOwn⟩ := mem_shapesOf.1 hShape
  have hSome : originsOf told shape ≠ [] :=
    List.ne_nil_of_mem (mem_originsOf.2 ⟨s, hTold, hOwn, rfl⟩)
  obtain ⟨s, hLatest⟩ := exists_latest? (List.head_mem hSome)
  exact ⟨s, by rw [standing?, List.head?_eq_some_head hSome, Option.bind_some, hLatest]⟩

/-! ## The observations of a shape -/

/-- What is kept of a shape is kept under the origins that it was recorded with. -/
theorem keys_observed (told : List CallSignature) (shape : CallShape) :
    (observed told shape).keys = originsOf told shape := by
  rw [observed, OrderedMap.keys_ofList, List.map_map, originsOf]
  simp only [isCall_iff]
  rfl

/-- Under an origin, what was recorded last is kept. -/
theorem get?_observed_eq_latest? (told : List CallSignature) (shape : CallShape)
    (origin : LibraryOrigin) :
    (observed told shape).get? origin = latest? told shape origin := by
  rw [observed, OrderedMap.get?_ofList, List.filter_map, List.getLast?_map, Option.map_map,
    List.filter_filter, latest?]
  simp [Function.comp_def, isCall_iff, Bool.and_comm]

/-- **The observations of a shape**: of each of its origins, in order, the latest signature. -/
theorem map_some_values_observed (told : List CallSignature) (shape : CallShape) :
    (observed told shape).values.map some = (originsOf told shape).map (latest? told shape) := by
  rw [OrderedMap.values, List.map_map, ← keys_observed]
  refine OrderedMap.map_entries fun origin s hKept => ?_
  rw [← get?_observed_eq_latest?, hKept]
  rfl

/-- The first observation of a shape is the signature that stands for it. -/
theorem head?_values_observed (told : List CallSignature) (shape : CallShape) :
    (observed told shape).values.head? = standing? told shape := by
  have hValues := congrArg List.head? (map_some_values_observed told shape)
  rw [List.head?_map, List.head?_map] at hValues
  rw [standing?]
  cases hFirst : (originsOf told shape).head? with
  | none =>
    rw [hFirst] at hValues
    simpa using hValues
  | some origin =>
    have hOrigin : origin ∈ originsOf told shape := List.mem_of_head? hFirst
    rw [hFirst, Option.map_some, Option.map_eq_some_iff] at hValues
    obtain ⟨s, hHead, hLatest⟩ := hValues
    rw [hHead, Option.bind_some, hLatest]

/-! ## The shapes of a registry -/

/-- Recording a log is recording what was recorded since the last clearing. -/
theorem performAll_eq (log : List Operation) :
    performAll log = (recorded log).foldl record .empty := by
  rw [← List.reverse_reverse log]
  induction log.reverse with
  | nil => rfl
  | cons operation rest ih =>
    rw [List.reverse_cons, performAll, recorded, List.foldl_append, List.foldl_append]
    cases operation with
    | clear => rfl
    | record signature =>
      show (performAll rest.reverse).record signature =
        (recorded rest.reverse ++ [signature]).foldl record .empty
      rw [List.foldl_append, ih]
      rfl

/-- The shapes stand in the order in which they were first recorded. -/
theorem keys_shapes_performAll (log : List Operation) :
    (performAll log).shapes.keys = shapesOf (recorded log) := by
  rw [performAll_eq, ← List.reverse_reverse (recorded log)]
  induction (recorded log).reverse with
  | nil => rfl
  | cons signature rest ih =>
    rw [List.reverse_cons, List.foldl_append, List.foldl_cons, List.foldl_nil, record,
      OrderedMap.keys_insert, ih, shapesOf, shapesOf, List.map_append, List.map_singleton,
      OrderedMap.eraseDups_concat, CallSignature.shape]
    simp only [List.mem_eraseDups]

/-- Each entry of a registry is a shape with what was observed of it. -/
theorem entries_shapes_performAll (log : List Operation) :
    (performAll log).shapes.entries =
      (shapesOf (recorded log)).map fun shape => (shape, observed (recorded log) shape) := by
  rw [← keys_shapes_performAll, ← OrderedMap.map_entries (f := id) ?_, List.map_id]
  intro shape kept hKept
  rw [← performAll_summarizes log shape, observations, hKept]
  rfl

/-! ## Counting -/

/-- The pairs are counted shape by shape. -/
theorem length_recordedPairs (told : List CallSignature) :
    (recordedPairs told).length =
      ((shapesOf told).flatMap fun shape => originsOf told shape).length := by
  -- Counted shape by shape no pair occurs twice, and the pairs are the same as in the list.
  have hNodup : ((shapesOf told).flatMap fun shape =>
      (originsOf told shape).map (Prod.mk shape)).Nodup := by
    refine List.nodup_flatMap.2 ⟨?_, ?_⟩
    · intro shape _
      exact (nodup_eraseDups _).map fun _ _ hPair => congrArg Prod.snd hPair
    · refine (nodup_eraseDups _).imp ?_
      intro first second hApart pair hFirst hSecond
      obtain ⟨_, -, rfl⟩ := List.mem_map.1 hFirst
      obtain ⟨_, -, hPair⟩ := List.mem_map.1 hSecond
      exact hApart (congrArg Prod.fst hPair).symm
  have hPerm : (recordedPairs told).Perm ((shapesOf told).flatMap fun shape =>
      (originsOf told shape).map (Prod.mk shape)) := by
    refine (List.perm_ext_iff_of_nodup (nodup_eraseDups _) hNodup).2 ?_
    rintro ⟨shape, origin⟩
    obtain ⟨methodName, receiverName, argumentTypes⟩ := shape
    simp only [List.mem_eraseDups, List.mem_map, List.mem_flatMap, mem_shapesOf,
      mem_originsOf, Prod.mk.injEq, CallShape.mk.injEq]
    constructor
    · rintro ⟨s, hTold, hShape, hOrigin⟩
      exact ⟨⟨methodName, receiverName, argumentTypes⟩, ⟨s, hTold, hShape⟩, origin,
        ⟨s, hTold, hShape, hOrigin⟩, rfl, rfl⟩
    · rintro ⟨_, -, _, hOrigin, rfl, rfl⟩
      exact hOrigin
  rw [hPerm.length_eq, List.length_flatMap, List.length_flatMap]
  simp

/-- The size counts shapes with an origin, not signatures. -/
theorem size_performAll (log : List Operation) :
    (performAll log).size = (recordedPairs (recorded log)).length := by
  rw [length_recordedPairs, size, OrderedMap.values, entries_shapes_performAll, List.map_map,
    List.length_flatMap, List.length_flatMap, List.map_map]
  refine congrArg List.sum (List.map_congr_left fun shape _ => ?_)
  have hValues := congrArg List.length (map_some_values_observed (recorded log) shape)
  simpa using hValues

theorem isEmpty_performAll (log : List Operation) :
    (performAll log).isEmpty = true ↔ recorded log = [] := by
  rw [isEmpty, OrderedMap.isEmpty, entries_shapes_performAll, List.isEmpty_iff,
    List.map_eq_nil_iff, shapesOf, eraseDups_eq_nil_iff, List.map_eq_nil_iff]

/-! ## Answers -/

/-- The contracts of a receiver: one for each of its shapes, in the order in which they were first
    seen. -/
theorem onReceiver_performAll (log : List Operation) (receiver : String) :
    ((performAll log).onReceiver receiver).map some =
      ((shapesOf (recorded log)).filter (·.receiverName = receiver)).map
        (standing? (recorded log)) := by
  have hListed : (performAll log).onReceiver receiver =
      ((shapesOf (recorded log)).filter (·.receiverName = receiver)).filterMap
        (standing? (recorded log)) := by
    rw [onReceiver, entries_shapes_performAll, List.filter_map, List.filterMap_map]
    exact List.filterMap_congr fun shape _ => head?_values_observed (recorded log) shape
  -- Every shape that was recorded has a signature, so none is left out.
  rw [hListed, List.map_filterMap, ← List.filterMap_eq_map]
  refine List.filterMap_congr fun shape hShape => ?_
  obtain ⟨s, hStanding⟩ := exists_standing? (List.mem_of_mem_filter hShape)
  simp [hStanding]

/-- The parameters of a method are those of the shape of it that was seen first. -/
theorem parameters_performAll (log : List Operation) (method receiver : String) :
    (performAll log).parameters method receiver =
      (((shapesOf (recorded log)).find? fun shape =>
        shape.methodName = method && shape.receiverName = receiver).bind
          (standing? (recorded log))).elim [] (·.parameters) := by
  rw [parameters, entries_shapes_performAll, List.find?_map, Function.comp_def]
  cases (shapesOf (recorded log)).find? fun shape =>
      shape.methodName = method && shape.receiverName = receiver with
  | none => rfl
  | some shape =>
    rw [Option.map_some, Option.bind_some, ← head?_values_observed]
    dsimp only
    cases (observed (recorded log) shape).values.head? <;> rfl

/-- **All answers of a registry are those of its log**, told since the last clearing.  A signature
    counts for a shape by its own method name, receiver name and argument types:

    * the size is the number of distinct pairs of a shape and an origin, and the registry is empty
      if that is 0;
    * a return type is sought among the origins of the method, receiver and argument types that are
      asked for, in the order of first recording, each with its latest signature; if no signature
      with these three was recorded there is none;
    * on a receiver there is one signature for each shape, in the order of first recording, the one
      that stands for the shape;
    * the parameters are those of the first shape with this method and receiver. -/
theorem performAll_answers (log : List Operation) :
    let registry := performAll log
    let told := recorded log
    registry.size = (recordedPairs told).length ∧
    (registry.isEmpty = true ↔ registry.size = 0) ∧
    (∀ method receiver argumentTypes, ∃ candidates : List CallSignature,
      candidates.map some =
        (originsOf told ⟨method, receiver, argumentTypes⟩).map
          (latest? told ⟨method, receiver, argumentTypes⟩) ∧
      ∀ installed, registry.returnType? method receiver argumentTypes installed =
        Version.nearest (installed.getD "")
          (candidates.map fun s => (s.origin.version, s.returnType))) ∧
    (∀ method receiver argumentTypes installed,
      (∀ s ∈ told, ¬ IsCall ⟨method, receiver, argumentTypes⟩ s) →
        registry.returnType? method receiver argumentTypes installed = none) ∧
    (∀ receiver, (registry.onReceiver receiver).map some =
      ((shapesOf told).filter (·.receiverName = receiver)).map (standing? told)) ∧
    ∀ method receiver, registry.parameters method receiver =
      (((shapesOf told).find? fun shape =>
        shape.methodName = method && shape.receiverName = receiver).bind
          (standing? told)).elim [] (·.parameters) := by
  intro registry told
  -- The fields that are asked for are those of the shape under which `record` has filed a call.
  have hReturnType : ∀ method receiver argumentTypes installed,
      registry.returnType? method receiver argumentTypes installed =
        Version.nearest (installed.getD "")
          ((observed told ⟨method, receiver, argumentTypes⟩).values.map fun s =>
            (s.origin.version, s.returnType)) := by
    intro method receiver argumentTypes installed
    rw [returnType?, performAll_summarizes log]
  refine ⟨size_performAll log, ?_, ?_, ?_, onReceiver_performAll log, parameters_performAll log⟩
  · rw [isEmpty_performAll, size_performAll, List.length_eq_zero_iff, recordedPairs,
      eraseDups_eq_nil_iff, List.map_eq_nil_iff]
  · intro method receiver argumentTypes
    exact ⟨_, map_some_values_observed told _, hReturnType method receiver argumentTypes⟩
  · intro method receiver argumentTypes installed hNever
    -- What was never called has no origins, so there are no candidates for it.
    have hOrigins : originsOf told ⟨method, receiver, argumentTypes⟩ = [] := by
      refine List.eq_nil_iff_forall_not_mem.2 fun origin hOrigin => ?_
      obtain ⟨s, hTold, hOwn, -⟩ := mem_originsOf.1 hOrigin
      exact hNever s hTold hOwn
    have hNone : (observed told ⟨method, receiver, argumentTypes⟩).values = [] := by
      simpa [hOrigins] using map_some_values_observed told ⟨method, receiver, argumentTypes⟩
    rw [hReturnType, hNone]
    rfl

/-- One call of `find` on `User`, observed in two releases. -/
def findLog : List Operation :=
  [("1.0", "User"), ("2.0", "Account")].map fun (version, returnType) =>
    .record { methodName := "find", receiverName := "User", visibility := .isPublic,
              argumentTypes := ["Integer"], origin := ⟨"records", version⟩, returnType }

example : (performAll findLog).returnType? "find" "User" ["Integer"] (some "2.1") =
    some "Account" := by decide
example : (performAll findLog).returnType? "User" "find" ["Integer"] (some "2.1") = none := by
  decide
example : (performAll findLog).returnType? "find" "User" ["String"] (some "2.1") = none := by
  decide

end Lineage.SignatureRegistry
