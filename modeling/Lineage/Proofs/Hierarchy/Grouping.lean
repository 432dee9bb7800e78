/-
  A method table groups its methods, and loses none of them.

  However a table came about, it stands for a list of methods: those that it was made of, in order,
  and those that were inserted since.  Under a class it has the methods of this class, in the order
  of the list, and it has no entry for a class without methods (`IsGrouping`).  An insertion keeps
  that for the list with one more method at its end, and so does any number of them.

  The rest is counting.  The lists of the classes are parts of one list, and each method is in
  exactly one part, that of its owner (`perm_flatMap_filter`); so together they are the list again,
  in another order.
-/
import Lineage.Hierarchy.MethodTable
import Mathlib.Data.List.Perm.Basic

namespace Lineage

/-! ## Parts of a list -/

/-- **A list is made up of its parts**: if each element has one of these keys, then the elements of
    each key are together all elements. -/
theorem perm_flatMap_filter {α κ : Type} [DecidableEq κ] (key : α → κ) {keys : List κ}
    (hDistinct : keys.Nodup) {list : List α} (hKeys : ∀ x ∈ list, key x ∈ keys) :
    (keys.flatMap fun k => list.filter (key · = k)).Perm list := by
  induction keys generalizing list with
  | nil =>
    have hNone : list = [] := List.eq_nil_iff_forall_not_mem.2 fun x hMem =>
      List.not_mem_nil (hKeys x hMem)
    rw [hNone]
    exact .nil
  | cons k rest ih =>
    obtain ⟨hNew, hRest⟩ := List.nodup_cons.1 hDistinct
    -- The other parts are parts of what is left without the first one.
    have hOthers : ∀ x ∈ list.filter (key · ≠ k), key x ∈ rest := by
      intro x hMem
      obtain ⟨hList, hOther⟩ := List.mem_filter.1 hMem
      exact (List.mem_cons.1 (hKeys x hList)).resolve_left (of_decide_eq_true hOther)
    have hSame : (rest.flatMap fun other => (list.filter (key · ≠ k)).filter (key · = other)) =
        rest.flatMap fun other => list.filter (key · = other) := by
      refine List.flatMap_congr fun other hOther => ?_
      rw [List.filter_filter]
      refine List.filter_congr fun x _ => ?_
      by_cases hKey : key x = other
      · have hApart : other ≠ k := fun hEq => hNew (hEq ▸ hOther)
        simp [hKey, hApart]
      · simp [hKey]
    have hParts := ih hRest hOthers
    rw [hSame] at hParts
    rw [List.flatMap_cons]
    refine (hParts.append_left _).trans ?_
    simpa using List.filter_append_perm (key · = k) list

namespace MethodTable

/-! ## The lists of the classes -/

/-- The methods of a class among these. -/
def ownedBy (methods : List MethodDescriptor) (className : String) : List MethodDescriptor :=
  methods.filter (·.ownerName = className)

/-- The table has an entry for each class that owns one of the methods: the methods of this class,
    in order. -/
def IsGrouping (table : MethodTable) (methods : List MethodDescriptor) : Prop :=
  ∀ className, table.byOwner.get? className =
    if ownedBy methods className = [] then none else some (ownedBy methods className)

theorem ownedBy_concat (methods : List MethodDescriptor) (method : MethodDescriptor)
    (className : String) :
    ownedBy (methods ++ [method]) className =
      ownedBy methods className ++ if method.ownerName = className then [method] else [] := by
  rw [ownedBy, List.filter_append, List.filter_singleton]
  simp [ownedBy]

theorem ownedBy_eq_nil_iff {methods : List MethodDescriptor} {className : String} :
    ownedBy methods className = [] ↔ ¬ ∃ method ∈ methods, method.ownerName = className := by
  simp [ownedBy, List.filter_eq_nil_iff]

namespace IsGrouping

variable {table : MethodTable} {methods : List MethodDescriptor}

theorem empty : MethodTable.empty.IsGrouping [] := fun _ => rfl

/-- A class has the methods that it owns, in order. -/
theorem membersOf (hGroups : table.IsGrouping methods) (className : String) :
    table.membersOf className = ownedBy methods className := by
  rw [MethodTable.membersOf, hGroups className]
  split
  · rename_i hNone
    rw [hNone]
    rfl
  · rfl

/-- **An insertion** adds its method at the end of the list of its owner. -/
theorem insert (hGroups : table.IsGrouping methods) (method : MethodDescriptor) :
    (table.insert method).IsGrouping (methods ++ [method]) := by
  intro className
  rw [MethodTable.insert, OrderedMap.get?_insert, hGroups.membersOf, ownedBy_concat]
  -- The list of the owner grows; a class that owns nothing yet gets its first list.
  by_cases hOwner : className = method.ownerName
  · rw [if_pos hOwner, if_pos hOwner.symm, hOwner, if_neg (by simp)]
  · rw [if_neg hOwner, if_neg (Ne.symm hOwner), List.append_nil, hGroups className]

/-- And so any number of insertions. -/
theorem insertAll (hGroups : table.IsGrouping methods) (inserted : List MethodDescriptor) :
    (inserted.foldl MethodTable.insert table).IsGrouping (methods ++ inserted) := by
  induction inserted generalizing table methods with
  | nil => rwa [List.append_nil]
  | cons method rest ih =>
    have hRest := ih (hGroups.insert method)
    rwa [List.append_assoc] at hRest

/-- The classes of the table are the owners. -/
theorem mem_classes_iff (hGroups : table.IsGrouping methods) {className : String} :
    className ∈ table.classes ↔ ∃ method ∈ methods, method.ownerName = className := by
  -- A class has no list if and only if it owns nothing, which is what grouping says.
  rw [← not_iff_not, ← ownedBy_eq_nil_iff, classes, ← OrderedMap.get?_eq_none_iff,
    hGroups className]
  split
  · rename_i hNone
    exact iff_of_true rfl hNone
  · rename_i hSome
    exact iff_of_false (by simp) hSome

/-- The lists of a table are those of its classes. -/
theorem values_eq (hGroups : table.IsGrouping methods) :
    table.byOwner.values = table.classes.map (ownedBy methods) := by
  refine OrderedMap.map_entries fun className kept hKept => ?_
  rw [hGroups className] at hKept
  split at hKept
  · cases hKept
  · exact (Option.some.inj hKept).symm

/-- **Nothing is lost**, and nothing is there twice that was not inserted twice. -/
theorem perm (hGroups : table.IsGrouping methods) :
    table.byOwner.values.flatten.Perm methods := by
  rw [hGroups.values_eq, ← List.flatMap_def]
  refine perm_flatMap_filter MethodDescriptor.ownerName table.byOwner.distinct ?_
  intro method hMem
  exact hGroups.mem_classes_iff.2 ⟨method, hMem, rfl⟩

theorem size_eq (hGroups : table.IsGrouping methods) : table.size = methods.length :=
  hGroups.perm.length_eq

/-- A table is empty if and only if it has no methods. -/
theorem isEmpty_iff (hGroups : table.IsGrouping methods) :
    table.isEmpty = true ↔ table.size = 0 := by
  rw [isEmpty, OrderedMap.isEmpty, List.isEmpty_iff, hGroups.size_eq, List.length_eq_zero_iff]
  constructor
  · intro hEmpty
    have hLists := hGroups.perm
    rw [OrderedMap.values, hEmpty] at hLists
    exact hLists.nil_eq.symm
  · intro hNone
    have hClasses : table.classes = [] := by
      refine List.eq_nil_iff_forall_not_mem.2 fun className hMem => ?_
      obtain ⟨method, hMethod, -⟩ := hGroups.mem_classes_iff.1 hMem
      rw [hNone] at hMethod
      cases hMethod
    exact List.map_eq_nil_iff.1 hClasses

end IsGrouping

/-! ## Tables and what they were made of -/

/-- **What a table tells of the methods it was made of.** -/
structure Groups (table : MethodTable) (methods : List MethodDescriptor) : Prop where
  /-- A class has its methods, in the order in which they were inserted. -/
  members : ∀ className, table.membersOf className = methods.filter (·.ownerName = className)
  /-- The classes are the owners, each of them once. -/
  distinct : table.classes.Nodup
  owners : ∀ className, className ∈ table.classes ↔
    ∃ method ∈ methods, method.ownerName = className
  /-- All methods are there, each as often as it was inserted. -/
  contents : table.byOwner.values.flatten.Perm methods
  size : table.size = methods.length
  isEmpty : table.isEmpty = true ↔ table.size = 0

/-- A table that groups some methods has all of the properties in `Groups`. -/
theorem IsGrouping.groups {table : MethodTable} {methods : List MethodDescriptor}
    (hGroups : table.IsGrouping methods) : table.Groups methods where
  members := hGroups.membersOf
  distinct := table.byOwner.distinct
  owners _ := hGroups.mem_classes_iff
  contents := hGroups.perm
  size := hGroups.size_eq
  isEmpty := hGroups.isEmpty_iff

/-- **Grouping by owner loses nothing**: a table that was made of a list of methods or of a
    contract, and extended by any insertions, groups all of these methods in this order. -/
theorem groups_insertAll (inserted : List MethodDescriptor) :
    (∀ methods, (inserted.foldl insert (ofMethods methods)).Groups (methods ++ inserted)) ∧
    ∀ store : Wire.ContractStore,
      (inserted.foldl insert (ofStore store)).Groups (store.methods ++ inserted) := by
  have hMade : ∀ methods, (ofMethods methods).IsGrouping methods := fun methods =>
    IsGrouping.empty.insertAll methods
  exact ⟨fun methods => ((hMade methods).insertAll inserted).groups,
    fun store => ((hMade store.methods).insertAll inserted).groups⟩

end MethodTable

end Lineage
