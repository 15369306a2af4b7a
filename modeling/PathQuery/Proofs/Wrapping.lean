import PathQuery.Proofs.References
/-!
# Lists and optionality around a type

Two functions look at a type from different ends: one peels off lists only as far as there are any
and asks whether a leaf is left, the other looks for an object type below everything. The layers
around a type never make them disagree. What is inside all layers decides both, so layers can be put
around a type, taken off or changed, and there is as much to select from it as before.
-/

namespace PathQuery.Schema.TypeRef

inductive Layer where
  | list
  | optional
  deriving DecidableEq, Repr

def Layer.around : Layer → TypeRef → TypeRef
  | list, inner => .list inner
  | optional, inner => .optional inner

/-- A type in layers, the first of which is the outermost. -/
def wrapped (type : TypeRef) (layers : List Layer) : TypeRef := layers.foldr Layer.around type

/-- Both types are leaves once their lists are peeled off, or neither is, and below both is the same
object type, if there is one. -/
structure ClassifiedAlike (type other : TypeRef) : Prop where
  isLeaf_eq : type.element.isLeaf = other.element.isLeaf
  objectName?_eq : type.objectName? = other.objectName?

variable {type other : TypeRef}

theorem base_around (layer : Layer) (type : TypeRef) : (layer.around type).base = type.base := by
  cases layer with
  | list => rfl
  | optional => rfl

theorem base_wrapped (type : TypeRef) (layers : List Layer) :
    (type.wrapped layers).base = type.base := by
  induction layers with
  | nil => rfl
  | cons layer rest ih => exact (base_around layer (type.wrapped rest)).trans ih

/-- Every type is its base in layers. -/
theorem exists_eq_wrapped_base (type : TypeRef) : ∃ layers, type = type.base.wrapped layers := by
  induction type with
  | enumeration name => exact ⟨[], rfl⟩
  | list inner ih =>
    obtain ⟨layers, hlayers⟩ := ih
    exact ⟨.list :: layers, congrArg list hlayers⟩
  | object name => exact ⟨[], rfl⟩
  | optional inner ih =>
    obtain ⟨layers, hlayers⟩ := ih
    exact ⟨.optional :: layers, congrArg optional hlayers⟩
  | scalar kind => exact ⟨[], rfl⟩

theorem base_base (type : TypeRef) : type.base.base = type.base := by
  obtain ⟨layers, hlayers⟩ := type.exists_eq_wrapped_base
  rw [← base_wrapped type.base layers, ← hlayers]

theorem ClassifiedAlike.of_base_eq (h : type.base = other.base) : ClassifiedAlike type other where
  isLeaf_eq := by
    rw [isLeaf, isLeaf, required_element, required_element, h]
  objectName?_eq := by
    rw [objectName?, objectName?, required_element, required_element, h]

/-- The one case excludes the other, and a name is that of the object type inside all layers. -/
theorem leaf_or_object (type : TypeRef) :
    (type.element.isLeaf = true ∧ type.objectName? = none) ∨
      (type.element.isLeaf = false ∧ ∃ layers name,
        type = (object name).wrapped layers ∧ type.objectName? = some name) := by
  cases hleaf : type.element.isLeaf with
  | true => exact .inl ⟨rfl, objectName?_eq_none_iff.mpr hleaf⟩
  | false =>
    obtain ⟨name, hbase⟩ := isLeaf_element_eq_false_iff.mp hleaf
    obtain ⟨layers, hlayers⟩ := type.exists_eq_wrapped_base
    rw [hbase] at hlayers
    exact .inr ⟨rfl, layers, name, hlayers, objectName?_eq_some_iff.mpr hbase⟩

/-- The element type of a type is no list, so peeling again changes nothing, and what is no list is
its own element type. A type either comes down to a leaf or has an object type to select from, never
both, and no layers around it or around its base have a say in this. -/
theorem element_classifies (type : TypeRef) :
    (type.element.isCollection = false ∧ type.element.element = type.element ∧
      (type.element = type ↔ type.isCollection = false)) ∧
    ((type.element.isLeaf = true ∧ type.objectName? = none) ∨
      (type.element.isLeaf = false ∧ ∃ layers name,
        type = (object name).wrapped layers ∧ type.objectName? = some name)) ∧
    ∀ layers, ClassifiedAlike (type.wrapped layers) type ∧
      ClassifiedAlike (type.base.wrapped layers) type := by
  refine ⟨⟨type.isCollection_element, type.element_element, element_eq_self_iff⟩,
    type.leaf_or_object, fun layers => ⟨?_, ?_⟩⟩
  · apply ClassifiedAlike.of_base_eq
    exact base_wrapped type layers
  · apply ClassifiedAlike.of_base_eq
    rw [base_wrapped, base_base]

/-- The optionality below the last list stays, and yet there is an object type to select from. -/
example : element (.optional (.list (.optional (.object "Route")))) = .optional (.object "Route") ∧
    objectName? (.optional (.list (.optional (.object "Route")))) = some "Route" := ⟨rfl, rfl⟩

end PathQuery.Schema.TypeRef
