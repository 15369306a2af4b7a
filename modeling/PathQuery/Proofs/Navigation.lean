import PathQuery.Proofs.Faults
import PathQuery.Proofs.References
import PathQuery.Proofs.Scan
import PathQuery.Proofs.WellNamed
/-!
# Navigation in a closed registry

In a closed registry every field that is no leaf leads to a registered type, so no path that starts
at a registered type ever leaves the registry. Two things follow. A type is only missing if it is
the root type. And a compilation looks at nothing but the types that are reached from its root, by
name: whatever else is registered, and in whatever order, does not matter.
-/

namespace PathQuery.Query

open Logged (FailsOnly)
open Schema (Field ObjectType Registry)

/-- No type is said to be missing. -/
def Error.BlamesNoType (error : Error) : Prop := ∀ name, error ≠ .undefinedType name

theorem Error.OfBinding.blamesNoType {error : Error} (h : error.OfBinding) :
    error.BlamesNoType := by
  cases h <;> nofun

theorem Error.OfPath.blamesNoType {error : Error} (h : error.OfPath) : error.BlamesNoType := by
  cases h <;> nofun

theorem Error.OfLabels.blamesNoType {error : Error} (h : error.OfLabels) :
    error.BlamesNoType := by
  cases h <;> nofun

namespace Compiler

variable {compiler : Compiler}

/-- The type below a field of a registered type is found, and it is registered. -/
theorem exists_target (hclosed : compiler.registry.Closed) {owner : String} {type : ObjectType}
    {field : Field} (howner : compiler.registry.object? owner = some type)
    (hfield : field ∈ type.fields) (hleaf : field.isLeaf = false) :
    ∃ name child, compiler.target field.type.element = .ok child ∧
      compiler.registry.object? name = some child := by
  obtain ⟨name, hbase⟩ := Schema.Field.isLeaf_eq_false_iff.mp hleaf
  obtain ⟨child, hchild⟩ := hclosed.exists_object howner hfield hbase
  have hname := Schema.TypeRef.objectName?_eq_some_iff.mpr hbase
  have hbelow := Option.bind_eq_some_iff.mpr ⟨name, hname, hchild⟩
  exact ⟨name, child, target_eq_ok_iff_below?.mpr hbelow, hchild⟩

/-! ### No type is missing below the root -/

/-- From a registered type one only comes to registered types. -/
theorem below_of_closed (hclosed : compiler.registry.Closed) :
    compiler.Below (fun type => ∃ owner, compiler.registry.object? owner = some type)
      Error.BlamesNoType := by
  constructor
  · rintro type segment field ⟨owner, howner⟩ hfield hleaf error herror
    obtain ⟨name, child, htarget, -⟩ :=
      exists_target hclosed howner (Schema.ObjectType.mem_of_field? hfield) hleaf
    rw [htarget] at herror
    contradiction
  · rintro type child segment field ⟨owner, howner⟩ hfield hleaf htarget
    obtain ⟨name, other, hother, hobject⟩ :=
      exists_target hclosed howner (Schema.ObjectType.mem_of_field? hfield) hleaf
    obtain rfl : child = other := Except.ok.inj (htarget.symm.trans hother)
    exact ⟨name, hobject⟩

theorem blamesNoType_follow (hclosed : compiler.registry.Closed) (path : String)
    (segments : List String) {owner : String} {type : ObjectType}
    (howner : compiler.registry.object? owner = some type) (state : State) :
    FailsOnly Error.BlamesNoType (compiler.follow path segments type state) :=
  failsOnly_follow (fun _ => Error.OfBinding.blamesNoType) (fun _ => Error.OfPath.blamesNoType)
    (below_of_closed hclosed) path segments ⟨owner, howner⟩ state

theorem blamesNoType_resolveChain (hclosed : compiler.registry.Closed) {owner : String}
    {root : ObjectType} (hroot : compiler.registry.object? owner = some root) (chain : Chain) :
    FailsOnly Error.BlamesNoType (compiler.resolveChain root chain) :=
  failsOnly_resolveChain (fun _ => Error.OfPath.blamesNoType)
    (fun _ => Error.OfLabels.blamesNoType) (below_of_closed hclosed) ⟨owner, hroot⟩ chain

/-- What is left of a compilation once the root type is found does not miss any type. -/
theorem blamesNoType_compile (hclosed : compiler.registry.Closed) {root : ObjectType} {spec : Spec}
    (hroot : compiler.registry.object? spec.root = some root) :
    FailsOnly Error.BlamesNoType (compiler.compile spec) :=
  failsOnly_compile (fun _ => Error.OfBinding.blamesNoType) (fun _ => Error.OfPath.blamesNoType)
    (fun _ => Error.OfLabels.blamesNoType) (below_of_closed hclosed) ⟨spec.root, hroot⟩
    (fun _ => by nofun) hroot

/-- With a finished registry, the only type that can be missing is the root type: no path and no
chain from a registered type leads to another one. By which calls the draft came about, and which of
them were refused, does not matter. -/
theorem undefinedType_iff_root_missing {draft : Registry.Draft} {registry : Registry}
    (hbuild : draft.build = .ok registry) (settings : Settings) :
    (∀ spec name, (compile ⟨registry, settings⟩ spec).result = .error (.undefinedType name) ↔
      Name.isValid (Name.remote spec.name) = true ∧ spec.root ∉ registry.objects.keys ∧
        name = spec.root) ∧
      ∀ owner root, registry.object? owner = some root → ∀ name,
        (∀ path state, (resolve ⟨registry, settings⟩ root path state).result ≠
          .error (.undefinedType name)) ∧
        ∀ chain, (resolveChain ⟨registry, settings⟩ root chain).result ≠
          .error (.undefinedType name) := by
  have hclosed : registry.Closed := (Registry.Draft.build_eq_ok_iff.mp hbuild).2
  refine ⟨fun spec name => ?_, fun owner root hroot name => ⟨fun path state h => ?_, ?_⟩⟩
  · cases hroot : registry.object? spec.root with
    | none =>
      have hkey : spec.root ∉ registry.objects.keys := OrderedMap.get?_eq_none_iff.mp hroot
      by_cases hvalid : Name.isValid (Name.remote spec.name) = true
      · simp [compile, hvalid, hroot, hkey, Except.bind, eq_comm]
      · simp [compile, hvalid, Except.bind]
    | some root =>
      have hkey : spec.root ∈ registry.objects.keys := OrderedMap.mem_keys_of_get? hroot
      constructor
      · intro h
        exact absurd rfl (blamesNoType_compile hclosed hroot _ h name)
      · intro h
        exact absurd hkey h.2.1
  · exact blamesNoType_follow hclosed path _ hroot state _ h name rfl
  · intro chain h
    exact blamesNoType_resolveChain hclosed hroot chain _ h name rfl

/-- There are no stops among routes, and nothing below a route leads to them. -/
theorem undefinedType_of_stops :
    Registry.Draft.build ⟨Transit.registry.enums, Transit.registry.objects⟩ =
        .ok Transit.registry ∧
      (Transit.compiler.compile ⟨"stops", "Stop", ∅, [], none⟩).result =
        .error (.undefinedType "Stop") ∧
      ∀ chain name, (Transit.compiler.resolveChain Transit.route chain).result ≠
        .error (.undefinedType name) := by
  have hbuild : Registry.Draft.build ⟨Transit.registry.enums, Transit.registry.objects⟩ =
    .ok Transit.registry := rfl
  obtain ⟨hcompile, hbelow⟩ := undefinedType_iff_root_missing hbuild {}
  refine ⟨hbuild, (hcompile _ "Stop").mpr ⟨by decide, by decide, rfl⟩, ?_⟩
  intro chain name
  exact (hbelow "Route" Transit.route rfl name).2 chain

/-! ### What is not reached does not matter -/

section Growth

variable {larger : Registry}

/-- The type below a field is the same one in both registries. -/
theorem exists_target_of_within (hclosed : compiler.registry.Closed)
    (hwithin : compiler.registry.Within larger) {owner : String} {type : ObjectType} {field : Field}
    (howner : compiler.registry.object? owner = some type) (hfield : field ∈ type.fields)
    (hleaf : field.isLeaf = false) :
    ∃ name child, compiler.registry.object? name = some child ∧
      compiler.target field.type.element = .ok child ∧
      target ⟨larger, compiler.settings⟩ field.type.element = .ok child := by
  obtain ⟨name, child, htarget, hchild⟩ := exists_target hclosed howner hfield hleaf
  obtain ⟨other, hother, hobject⟩ := target_eq_ok_iff.mp htarget
  exact ⟨name, child, hchild, htarget,
    target_eq_ok_iff.mpr ⟨other, hother, hwithin other child hobject⟩⟩

theorem follow_of_within (hclosed : compiler.registry.Closed)
    (hwithin : compiler.registry.Within larger) (path : String) (segments : List String)
    {owner : String} {type : ObjectType} (howner : compiler.registry.object? owner = some type)
    (state : State) :
    follow ⟨larger, compiler.settings⟩ path segments type state =
      compiler.follow path segments type state := by
  induction segments generalizing owner type state with
  | nil => rfl
  | cons segment rest ih =>
    unfold follow
    split
    · rfl
    · split
      · rfl
      · rename_i field hfield
        refine bind_congr fun bound => bind_congr fun _ => ?_
        split
        · rfl
        · rename_i hleaf
          obtain ⟨name, child, hchild, htarget, hlarger⟩ := exists_target_of_within hclosed hwithin
            howner (Schema.ObjectType.mem_of_field? hfield) (Bool.not_eq_true _ ▸ hleaf)
          rw [htarget, hlarger, Logged.ofExcept_ok_bind, Logged.ofExcept_ok_bind, ih hchild]
          rfl

theorem descend_of_within (hclosed : compiler.registry.Closed)
    (hwithin : compiler.registry.Within larger) (path : String) (steps : List String)
    {owner : String} {type : ObjectType} (howner : compiler.registry.object? owner = some type) :
    descend ⟨larger, compiler.settings⟩ path steps type = compiler.descend path steps type := by
  induction steps generalizing owner type with
  | nil => rfl
  | cons step rest ih =>
    unfold descend
    split
    · rfl
    · rename_i field hfield
      split
      · rfl
      · rename_i hleaf
        obtain ⟨name, child, hchild, htarget, hlarger⟩ := exists_target_of_within hclosed hwithin
          howner (Schema.ObjectType.mem_of_field? hfield) (Bool.not_eq_true _ ▸ hleaf)
        rw [htarget, hlarger, Logged.ofExcept_ok_bind, Logged.ofExcept_ok_bind, ih hchild]
        rfl

theorem resolveAll_of_within (hclosed : compiler.registry.Closed)
    (hwithin : compiler.registry.Within larger) {owner : String} {root : ObjectType}
    (hroot : compiler.registry.object? owner = some root) (includes : List Include)
    (state : State) :
    resolveAll ⟨larger, compiler.settings⟩ root includes state =
      compiler.resolveAll root includes state := by
  induction includes generalizing state with
  | nil => rfl
  | cons inclusion rest ih =>
    unfold resolveAll resolve
    rw [follow_of_within hclosed hwithin _ _ hroot]
    refine bind_congr fun resolved => ?_
    show resolveAll _ root rest resolved.2 >>= _ = resolveAll _ root rest resolved.2 >>= _
    rw [ih]

theorem resolveChains_of_within (hclosed : compiler.registry.Closed)
    (hwithin : compiler.registry.Within larger) {owner : String} {root : ObjectType}
    (hroot : compiler.registry.object? owner = some root) (chains : List Chain) :
    resolveChains ⟨larger, compiler.settings⟩ root chains = compiler.resolveChains root chains := by
  induction chains with
  | nil => rfl
  | cons chain rest ih =>
    unfold resolveChains resolveChain
    rw [descend_of_within hclosed hwithin _ _ hroot, ih]

theorem selection_of_within (hclosed : compiler.registry.Closed)
    (hwithin : compiler.registry.Within larger) {owner : String} {root : ObjectType}
    (hroot : compiler.registry.object? owner = some root) (spec : Spec) (state : State) :
    selection ⟨larger, compiler.settings⟩ spec root state = compiler.selection spec root state := by
  unfold selection resolveSelector
  simp only [resolveAll_of_within hclosed hwithin hroot,
    resolveChains_of_within hclosed hwithin hroot]

/-- A query whose root type is registered is compiled in the same way, with the same notes, however
many types are added to a finished registry and in whatever order they all stand. -/
theorem compile_of_larger_registry {draft : Registry.Draft} {registry : Registry}
    (hbuild : draft.build = .ok registry) (hwithin : registry.Within larger) (settings : Settings)
    {spec : Spec} (hroot : spec.root ∈ registry.objects.keys) :
    compile ⟨larger, settings⟩ spec = compile ⟨registry, settings⟩ spec := by
  have hclosed : registry.Closed := (Registry.Draft.build_eq_ok_iff.mp hbuild).2
  obtain ⟨root, hsmall⟩ : ∃ root, registry.object? spec.root = some root :=
    OrderedMap.exists_get?_of_mem_keys hroot
  have hselection := @selection_of_within ⟨registry, settings⟩ larger hclosed hwithin
    spec.root root hsmall spec
  unfold compile rootSelection
  simp only [hsmall, hwithin spec.root root hsmall, hselection]

/-- A query for a route where stops are in front of everything else. -/
theorem compile_of_larger_registry_stops :
    (compile ⟨⟨["Zone"], .ofList [("Stop", ⟨"Stop", [⟨"Zone", .enumeration "Zone"⟩]⟩),
        ("Alert", Transit.alert), ("Trip", Transit.trip), ("Route", Transit.route)]⟩,
      { emptySelection := .omit }⟩ Transit.spec).result = .ok Transit.operation := by
  have hbuild : Registry.Draft.build ⟨Transit.registry.enums, Transit.registry.objects⟩ =
    .ok Transit.registry := rfl
  rw [compile_of_larger_registry hbuild (Registry.within_of_entries (by decide)) _ (by decide)]
  rfl

end Growth

end Compiler

end PathQuery.Query
