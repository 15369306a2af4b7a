import PathQuery.Proofs.BoundVariables
/-!
# Pruned selections

A selection may ask for fields of object types on which nothing is selected. Pruning takes such
fields out from the bottom up: a field goes if nothing is left below it, and so on until every
selection set that is left has something in it.
-/

namespace PathQuery.Selection.Node

open Schema (ObjectType)

def children : Node → List Node
  | leaf _ => []
  | branch _ children => children

mutual

/-- Whether every selection set in a node has something in it. -/
def isFilled : Node → Bool
  | leaf _ => true
  | branch _ children => !children.isEmpty && allFilled children

def allFilled : List Node → Bool
  | [] => true
  | node :: rest => isFilled node && allFilled rest

end

mutual

/-- What is left of a node, if anything is left below it. -/
def pruned? : Node → Option Node
  | leaf head => some (leaf head)
  | branch head children =>
    match prune children with
    | [] => none
    | first :: rest => some (branch head (first :: rest))

def prune : List Node → List Node
  | [] => []
  | node :: rest => (pruned? node).toList ++ prune rest

end

theorem isFilled_branch_iff {head : Head} {children : List Node} :
    (branch head children).isFilled = true ↔ children ≠ [] ∧ allFilled children = true := by
  cases children <;> simp [isFilled]

theorem allFilled_cons_iff {node : Node} {rest : List Node} :
    allFilled (node :: rest) = true ↔ node.isFilled = true ∧ allFilled rest = true := by
  simp [allFilled]

theorem allFilled_singleton (node : Node) : allFilled [node] = node.isFilled := by
  simp [allFilled]

theorem allFilled_append (nodes others : List Node) :
    allFilled (nodes ++ others) = (allFilled nodes && allFilled others) := by
  induction nodes with
  | nil => rfl
  | cons node rest ih => rw [List.cons_append, allFilled, allFilled, ih, Bool.and_assoc]

theorem allFilled_append_iff {nodes others : List Node} :
    allFilled (nodes ++ others) = true ↔ allFilled nodes = true ∧ allFilled others = true := by
  rw [allFilled_append, Bool.and_eq_true]

@[simp] theorem allFilled_leavesOf (type : ObjectType) : allFilled (leavesOf type) = true := by
  rw [leavesOf]
  induction type.leafNames with
  | nil => rfl
  | cons name rest ih => simp [allFilled, isFilled, ih]

theorem isFilled_relabel (label : String) (node : Node) :
    (node.relabel label).isFilled = node.isFilled := by
  cases node <;> rfl

theorem pruned?_branch_of_nil {head : Head} {children : List Node} (h : prune children = []) :
    (branch head children).pruned? = none := by
  rw [pruned?, h]

theorem pruned?_branch_of_ne {head : Head} {children : List Node} (h : prune children ≠ []) :
    (branch head children).pruned? = some (branch head (prune children)) := by
  rw [pruned?]
  split
  · contradiction
  · rename_i first rest hprune
    rw [hprune]

theorem prune_singleton (node : Node) : prune [node] = node.pruned?.toList := by
  simp [prune]

theorem prune_append (nodes others : List Node) :
    prune (nodes ++ others) = prune nodes ++ prune others := by
  induction nodes with
  | nil => rfl
  | cons node rest ih => rw [List.cons_append, prune, prune, ih, List.append_assoc]

@[simp] theorem prune_leavesOf (type : ObjectType) : prune (leavesOf type) = leavesOf type := by
  rw [leavesOf]
  induction type.leafNames with
  | nil => rfl
  | cons name rest ih => simp [prune, pruned?, ih]

theorem pruned?_relabel (label : String) (node : Node) :
    (node.relabel label).pruned? = node.pruned?.map (relabel label) := by
  cases node with
  | leaf head => rfl
  | branch head children =>
    by_cases h : prune children = []
    · rw [relabel, pruned?_branch_of_nil h, pruned?_branch_of_nil h]
      rfl
    · rw [relabel, pruned?_branch_of_ne h, pruned?_branch_of_ne h]
      rfl

mutual

theorem pruned?_eq_some_self : ∀ {node : Node}, node.isFilled = true → node.pruned? = some node
  | leaf _, _ => rfl
  | branch head children, h => by
    obtain ⟨hne, hfilled⟩ := isFilled_branch_iff.mp h
    have hprune := prune_eq_self hfilled
    rw [pruned?_branch_of_ne (by rw [hprune]; exact hne), hprune]

/-- Where every selection set has something in it, nothing is taken out. -/
theorem prune_eq_self : ∀ {nodes : List Node}, allFilled nodes = true → prune nodes = nodes
  | [], _ => rfl
  | node :: rest, h => by
    obtain ⟨hnode, hrest⟩ := allFilled_cons_iff.mp h
    rw [prune, pruned?_eq_some_self hnode, prune_eq_self hrest]
    rfl

end

mutual

theorem isFilled_of_pruned? : ∀ {node kept : Node}, node.pruned? = some kept →
    kept.isFilled = true
  | leaf head, kept, h => by
    obtain rfl := Option.some.inj h
    rfl
  | branch head children, kept, h => by
    by_cases hprune : prune children = []
    · rw [pruned?_branch_of_nil hprune] at h
      contradiction
    · rw [pruned?_branch_of_ne hprune] at h
      obtain rfl := Option.some.inj h
      exact isFilled_branch_iff.mpr ⟨hprune, allFilled_prune children⟩

/-- Pruning leaves no selection set empty. -/
theorem allFilled_prune : ∀ nodes : List Node, allFilled (prune nodes) = true
  | [] => rfl
  | node :: rest => by
    rw [prune, allFilled_append_iff]
    refine ⟨?_, allFilled_prune rest⟩
    cases h : node.pruned? with
    | none => rfl
    | some kept => rw [Option.toList_some, allFilled_singleton, isFilled_of_pruned? h]

end

end PathQuery.Selection.Node
