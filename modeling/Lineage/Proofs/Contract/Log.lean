/-
  A registry of calls is a summary of what was recorded.

  A registry is used by recording signatures and by clearing it.  What it keeps of a call shape can
  be read off the LOG of these uses: of the signatures that were recorded since it was last cleared
  it takes those of the shape, in order, and of two with one origin the later one in the place of
  the earlier one (`performAll_summarizes`).  One use keeps this up, and so does a whole log.
-/
import Lineage.Contract.Registry

namespace Lineage.SignatureRegistry

/-! ## Uses of a registry -/

/-- One use of a registry. -/
inductive Operation where
  | record (signature : CallSignature)
  | clear
  deriving DecidableEq, Repr

/-- What one operation makes of a registry. -/
def perform (registry : SignatureRegistry) : Operation → SignatureRegistry
  | .record signature => registry.record signature
  | .clear => .empty

/-- The registry after these uses of a new one. -/
def performAll (log : List Operation) : SignatureRegistry := log.foldl perform .empty

/-- The signatures that a registry was told, after one more use. -/
def retell (told : List CallSignature) : Operation → List CallSignature
  | .record signature => told ++ [signature]
  | .clear => []

/-- The signatures that were recorded since the registry was last cleared, earliest first. -/
def recorded (log : List Operation) : List CallSignature := log.foldl retell []

/-- Where nothing is cleared, all that was recorded counts. -/
theorem recorded_map_record (told : List CallSignature) : recorded (told.map .record) = told := by
  rw [← List.reverse_reverse told]
  induction told.reverse with
  | nil => rfl
  | cons signature rest ih =>
    rw [List.reverse_cons, List.map_append, recorded, List.foldl_append]
    exact congrArg (· ++ [signature]) ih

/-! ## What a registry keeps -/

/-- What is kept of a shape when these signatures were recorded. -/
def observed (told : List CallSignature) (shape : CallShape) : Observations :=
  .ofList ((told.filter (·.shape = shape)).map fun s => (s.origin, s))

/-- A registry keeps what it was told. -/
def Summarizes (registry : SignatureRegistry) (told : List CallSignature) : Prop :=
  ∀ shape, registry.observations shape = observed told shape

/-- A record adds to the observations of its own shape and leaves those of the others. -/
theorem observations_record (registry : SignatureRegistry) (signature : CallSignature)
    (shape : CallShape) :
    (registry.record signature).observations shape =
      if shape = signature.shape then
        (registry.observations signature.shape).insert signature.origin signature
      else registry.observations shape := by
  rw [observations, record, OrderedMap.get?_insert]
  split
  · rfl
  · rfl

/-- One more signature at the end of a list changes what was observed of its own shape. -/
theorem observed_concat (told : List CallSignature) (signature : CallSignature)
    (shape : CallShape) :
    observed (told ++ [signature]) shape =
      if shape = signature.shape then
        (observed told shape).insert signature.origin signature
      else observed told shape := by
  rw [observed, List.filter_append]
  split
  · rename_i hShape
    rw [List.filter_cons_of_pos (by simp [hShape]), List.filter_nil, List.map_append]
    exact OrderedMap.ofList_concat _ _
  · rename_i hShape
    rw [List.filter_cons_of_neg (by simpa using Ne.symm hShape), List.filter_nil, List.append_nil,
      observed]

/-- **One use**: the registry keeps what it was told. -/
theorem Summarizes.perform {registry : SignatureRegistry} {told : List CallSignature}
    (hTold : registry.Summarizes told) (operation : Operation) :
    (registry.perform operation).Summarizes (retell told operation) := by
  intro shape
  cases operation with
  | clear => rfl
  | record signature =>
    -- Both sides change at the shape of the signature, and in the same way.
    rw [SignatureRegistry.perform, observations_record, retell, observed_concat, hTold, hTold]
    split
    · rename_i hShape
      rw [hShape]
    · rfl

/-- **The registry after a log** keeps what was recorded since the last clearing. -/
theorem performAll_summarizes (log : List Operation) :
    (performAll log).Summarizes (recorded log) := by
  -- From any registry that summarizes what was told before, as the fold starts in the middle of a
  -- log.
  have hAll : ∀ (log : List Operation) (registry : SignatureRegistry) (told : List CallSignature),
      registry.Summarizes told →
        (log.foldl perform registry).Summarizes (log.foldl retell told) := by
    intro log
    induction log with
    | nil => exact fun _ _ hTold => hTold
    | cons operation rest ih => exact fun _ _ hTold => ih _ _ (hTold.perform operation)
  exact hAll log .empty [] fun _ => rfl

end Lineage.SignatureRegistry
