import Mathlib.Data.List.Nodup
import PathQuery.Proofs.Blame
/-!
# Other spellings of a query

A field has two names to be addressed by. Its local name always leads to it, and its remote name
does unless another field of the type goes by that name locally. A query may be respelled
accordingly, in any of the segments of its paths and chains and each by the names of the field that
it leads to where it stands. What is written differently is compiled to the same operation.
-/

namespace PathQuery

open Schema (Field ObjectType Registry)

namespace Schema

/-! ### The names of a field -/

namespace ObjectType

/-- A field of the type is addressed: by its local name, or else by its remote one. -/
def Finds (type : ObjectType) (segment : String) (field : Field) : Prop :=
  field ∈ type.fields ∧ (field.name = segment ∨
    (∀ other ∈ type.fields, other.name ≠ segment) ∧ field.remoteName = segment)

theorem finds_of_field? {type : ObjectType} {segment : String} {field : Field}
    (h : type.field? segment = some field) : type.Finds segment field := by
  refine ⟨mem_of_field? h, ?_⟩
  rcases Option.or_eq_some_iff.mp h with hname | ⟨hnone, hnamed⟩
  · exact .inl (by simpa using List.find?_some hname)
  · have hfree : ∀ other ∈ type.fields, other.name ≠ segment := by simpa using hnone
    have hnames := List.find?_some hnamed
    simp only [Field.isNamed, Bool.or_eq_true, beq_iff_eq] at hnames
    exact .inr ⟨hfree, hnames.resolve_left (hfree field (List.mem_of_find?_eq_some hnamed))⟩

theorem Built.finds_unique {type : ObjectType} (h : type.Built) {segment : String}
    {field other : Field} (hfield : type.Finds segment field)
    (hother : type.Finds segment other) : field = other := by
  obtain ⟨hfield, hnames⟩ := hfield
  obtain ⟨hother, hothers⟩ := hother
  have heq : field.name = other.name → field = other :=
    List.inj_on_of_nodup_map h.nodup_names hfield hother
  rcases hnames with hname | ⟨hfree, hremote⟩ <;> rcases hothers with hname' | ⟨hfree', hremote'⟩
  · exact heq (hname.trans hname'.symm)
  · exact absurd hname (hfree' field hfield)
  · exact absurd hname' (hfree other hother)
  · -- Neither is called by its remote name locally, so both names start with a capital.
    refine heq (Name.eq_of_remote_eq (h.wellNamed field hfield) (h.wellNamed other hother)
      (hremote.trans hremote'.symm) ?_ ?_)
    · exact fun hsame => hfree field hfield (hsame.symm.trans hremote)
    · exact fun hsame => hfree other hother (hsame.symm.trans hremote')

theorem Built.field?_eq_some_iff {type : ObjectType} (h : type.Built) {segment : String}
    {field : Field} : type.field? segment = some field ↔ type.Finds segment field := by
  refine ⟨finds_of_field?, fun hfinds => ?_⟩
  cases hfound : type.field? segment with
  | some found => rw [h.finds_unique (finds_of_field? hfound) hfinds]
  | none =>
    have hunnamed := field?_eq_none_iff.mp hfound field hfinds.1
    simp only [Field.isNamed, Bool.or_eq_false_iff, beq_eq_false_iff_ne] at hunnamed
    exact absurd hfinds.2 (by simp [hunnamed.1, hunnamed.2])

/-- What a field of the type may be called. -/
inductive Spells (type : ObjectType) (field : Field) : String → Prop
  | byName : Spells type field field.name
  | byRemoteName (free : ∀ other ∈ type.fields, other ≠ field → other.name ≠ field.remoteName) :
      Spells type field field.remoteName

section Spells

variable {type : ObjectType} {field : Field} {spelling : String}

theorem Built.field?_of_spells (h : type.Built) (hfield : field ∈ type.fields)
    (hspells : type.Spells field spelling) : type.field? spelling = some field := by
  rw [h.field?_eq_some_iff]
  cases hspells with
  | byName => exact ⟨hfield, .inl rfl⟩
  | byRemoteName free =>
    by_cases hname : field.name = field.remoteName
    · exact ⟨hfield, .inl hname⟩
    · refine ⟨hfield, .inr ⟨fun other hother => ?_, rfl⟩⟩
      by_cases hsame : other = field
      · rwa [hsame]
      · exact free other hother hsame

theorem Built.field?_respelled {segment : String} (h : type.Built)
    (hfield : type.field? segment = some field)
    (hspells : spelling = segment ∨ type.Spells field spelling) :
    type.field? spelling = type.field? segment := by
  rcases hspells with rfl | hspells
  · rfl
  · rw [h.field?_of_spells (mem_of_field? hfield) hspells, hfield]

theorem Built.isValid_spelling (h : type.Built) (hfield : field ∈ type.fields)
    (hspells : type.Spells field spelling) : Name.isValid spelling = true := by
  cases hspells with
  | byName => exact h.wellNamed field hfield
  | byRemoteName free => exact Name.isValid_remote (h.wellNamed field hfield)

end Spells

end ObjectType

/-! ### Paths and chains -/

/-- Other ways to write the segments of a path from a type. -/
inductive Registry.Respells (registry : Registry) :
    ObjectType → List String → List String → Prop
  | same {type : ObjectType} (segments : List String) : Respells registry type segments segments
  /-- The first segment is called by another name of its field. -/
  | here {type : ObjectType} {segment spelling : String} {rest : List String} {field : Field}
      (field?_eq : type.field? segment = some field) (spells : type.Spells field spelling) :
      Respells registry type (segment :: rest) (spelling :: rest)
  /-- Behind the first segment, respelled or not, the path is respelled from the type below. -/
  | through {type child : ObjectType} {segment spelling : String} {rest others : List String}
      {field : Field} (field?_eq : type.field? segment = some field)
      (spells : spelling = segment ∨ type.Spells field spelling)
      (below?_eq : registry.below? field = some child)
      (below : Respells registry child rest others) :
      Respells registry type (segment :: rest) (spelling :: others)

namespace Registry.Respells

variable {registry : Registry} {type : ObjectType} {segments others : List String}

theorem eq_nil_iff (h : registry.Respells type segments others) :
    segments = [] ↔ others = [] := by
  cases h <;> simp

/-- A name has no dots in it, so the segments stay apart. -/
theorem dot_not_mem (h : registry.Respells type segments others) (hbuilt : registry.Built)
    (htype : type.Built) (hsegments : ∀ segment ∈ segments, '.' ∉ segment.toList) :
    ∀ segment ∈ others, '.' ∉ segment.toList := by
  have hspelling : ∀ {type : ObjectType} {segment spelling : String} {field : Field}, type.Built →
      type.field? segment = some field → type.Spells field spelling → '.' ∉ spelling.toList :=
    fun htype hfield hspells => Name.dot_not_mem_of_isValid
      (htype.isValid_spelling (ObjectType.mem_of_field? hfield) hspells)
  induction h with
  | same segments => exact hsegments
  | here field?_eq spells =>
    rw [List.forall_mem_cons] at hsegments ⊢
    exact ⟨hspelling htype field?_eq spells, hsegments.2⟩
  | through field?_eq spells below?_eq below ih =>
    obtain ⟨name, -, hobject⟩ := Option.bind_eq_some_iff.mp below?_eq
    rw [List.forall_mem_cons] at hsegments ⊢
    refine ⟨?_, ih (hbuilt.object_built hobject) hsegments.2⟩
    rcases spells with rfl | spells
    · exact hsegments.1
    · exact hspelling htype field?_eq spells

end Registry.Respells

end Schema

namespace Path

theorem not_mem_of_mem_splitOn {c : Char} {list part : List Char} (h : part ∈ list.splitOn c) :
    c ∉ part := by
  rw [List.splitOn] at h
  induction list generalizing part with
  | nil => simp_all [List.splitOnP_nil]
  | cons first rest ih =>
    rw [List.splitOnP_cons_eq_if_modifyHead] at h
    by_cases hfirst : first = c
    · rw [if_pos (by simpa using hfirst)] at h
      rcases List.mem_cons.mp h with rfl | h
      · exact List.not_mem_nil
      · exact ih h
    · rw [if_neg (by simpa using hfirst)] at h
      obtain ⟨head, tail, hsplit⟩ := List.exists_cons_of_ne_nil
        (List.splitOnP_ne_nil (· == c) rest)
      rw [hsplit, List.forall_mem_cons] at ih
      rw [hsplit, List.modifyHead_cons] at h
      rcases List.mem_cons.mp h with rfl | h
      · exact List.not_mem_cons_of_ne_of_not_mem (Ne.symm hfirst) ih.1
      · exact ih.2 part h

theorem dot_not_mem_segments {path : String} :
    ∀ segment ∈ segments path, '.' ∉ segment.toList := by
  intro segment hsegment
  obtain ⟨part, hpart, rfl⟩ := List.mem_map.mp hsegment
  rw [String.toList_ofList]
  exact not_mem_of_mem_splitOn hpart

/-- Segments without dots are the segments of the path that they make. -/
theorem segments_join {list : List String} (hne : list ≠ [])
    (hdots : ∀ segment ∈ list, '.' ∉ segment.toList) : segments (join list) = list := by
  have hsplit : (['.'].intercalate (list.map String.toList)).splitOn '.' =
      list.map String.toList :=
    List.splitOn_intercalate '.' (by simpa using hdots) (by simpa using hne)
  rw [segments, join, String.toList_intercalate, show ".".toList = ['.'] from rfl, hsplit]
  simp

end Path

namespace Query

open Selection (Node)

/-! ### Queries -/

namespace Compiler

variable {compiler : Compiler} {type : ObjectType} {segments others : List String}

theorem Follows.rest_ne {state after : State} {nodes : List Node}
    (h : Follows compiler segments type state nodes after) : segments ≠ [""] := by
  rintro rfl
  exact h.segment_ne "" List.mem_cons_self rfl

/-- One field leads to one type. -/
theorem child_unique {segment : String} {field reached : Field} {child below : ObjectType}
    (hreached : type.field? segment = some reached) (hfield : type.field? segment = some field)
    (htarget : compiler.target reached.type.element = .ok below)
    (hbelow : compiler.registry.below? field = some child) : below = child := by
  obtain rfl := Option.some.inj (hreached.symm.trans hfield)
  exact Option.some.inj ((target_eq_ok_iff_below?.mp htarget).symm.trans hbelow)

theorem Addresses.respelled {segment spelling : String} {field : Field} (htype : type.Built)
    (hsame : type.field? spelling = type.field? segment) (hothers : others ≠ [""])
    (h : Addresses type segment segments field) : Addresses type spelling others field := by
  have hfield := hsame.trans h.field?_eq
  exact ⟨htype.wellNamed.segment_ne hfield, hothers, hfield⟩

theorem Follows.respelled {state after : State} {nodes : List Node}
    (hbuilt : compiler.registry.Built) (htype : type.Built)
    (hrespells : compiler.registry.Respells type segments others)
    (h : Follows compiler segments type state nodes after) :
    Follows compiler others type state nodes after := by
  induction hrespells generalizing state after nodes with
  | same segments => exact h
  | here field?_eq spells =>
    have hsame := htype.field?_respelled field?_eq (.inr spells)
    cases h with
    | leaf step isLeaf bind => exact .leaf (step.respelled htype hsame step.rest_ne) isLeaf bind
    | branch step isLeaf bind target below keep =>
      exact .branch (step.respelled htype hsame step.rest_ne) isLeaf bind target below keep
    | omitted step isLeaf bind target below policy =>
      exact .omitted (step.respelled htype hsame step.rest_ne) isLeaf bind target below policy
  | through field?_eq spells below?_eq _ ih =>
    have hsame := htype.field?_respelled field?_eq spells
    obtain ⟨name, -, hobject⟩ := Option.bind_eq_some_iff.mp below?_eq
    have hchild := hbuilt.object_built hobject
    cases h with
    | leaf step isLeaf bind =>
      obtain rfl := Option.some.inj (step.field?_eq.symm.trans field?_eq)
      rw [compiler.registry.below?_of_isLeaf isLeaf] at below?_eq
      contradiction
    | branch step isLeaf bind target below keep =>
      obtain rfl := child_unique step.field?_eq field?_eq target below?_eq
      have hfollows := ih hchild below
      exact .branch (step.respelled htype hsame hfollows.rest_ne) isLeaf bind target hfollows keep
    | omitted step isLeaf bind target below policy =>
      obtain rfl := child_unique step.field?_eq field?_eq target below?_eq
      have hfollows := ih hchild below
      exact .omitted (step.respelled htype hsame hfollows.rest_ne) isLeaf bind target hfollows
        policy

theorem Descends.respelled {node? : Option Node} (hbuilt : compiler.registry.Built)
    (htype : type.Built) (hrespells : compiler.registry.Respells type segments others)
    (h : Descends compiler segments type node?) : Descends compiler others type node? := by
  induction hrespells generalizing node? with
  | same segments => exact h
  | here field?_eq spells =>
    have hsame := htype.field?_respelled field?_eq (.inr spells)
    cases h with
    | leaf reached isLeaf => exact .leaf (hsame.trans reached) isLeaf
    | last reached isLeaf target keep => exact .last (hsame.trans reached) isLeaf target keep
    | omitted reached isLeaf target none_below policy =>
      exact .omitted (hsame.trans reached) isLeaf target none_below policy
    | outer reached isLeaf target rest_ne below =>
      exact .outer (hsame.trans reached) isLeaf target rest_ne below
  | through field?_eq spells below?_eq hrest ih =>
    have hsame := htype.field?_respelled field?_eq spells
    have hlast := hrest.eq_nil_iff
    cases h with
    | leaf reached isLeaf =>
      obtain rfl := hlast.mp rfl
      exact .leaf (hsame.trans reached) isLeaf
    | last reached isLeaf target keep =>
      obtain rfl := hlast.mp rfl
      exact .last (hsame.trans reached) isLeaf target keep
    | omitted reached isLeaf target none_below policy =>
      obtain rfl := hlast.mp rfl
      exact .omitted (hsame.trans reached) isLeaf target none_below policy
    | outer reached isLeaf target rest_ne below =>
      obtain ⟨name, -, hobject⟩ := Option.bind_eq_some_iff.mp below?_eq
      obtain rfl := child_unique reached field?_eq target below?_eq
      exact .outer (hsame.trans reached) isLeaf target (mt hlast.mpr rest_ne)
        (ih (hbuilt.object_built hobject) below)

end Compiler

/-- The same calls with another spelling of the path. -/
inductive Include.Respells (registry : Registry) (root : ObjectType) : Include → Include → Prop
  | path {path : String} {calls : List RelationCall} {segments : List String}
      (respells : registry.Respells root (Path.segments path) segments) :
      Respells registry root ⟨path, calls⟩ ⟨Path.join segments, calls⟩

/-- The same label with another spelling of the steps. -/
inductive Chain.Respells (registry : Registry) (root : ObjectType) : Chain → Chain → Prop
  | steps {label : String} {steps others : List String}
      (respells : registry.Respells root steps others) :
      Respells registry root ⟨label, steps⟩ ⟨label, others⟩

inductive Selector.Respells (registry : Registry) (root : ObjectType) :
    Selector → Selector → Prop
  | constructed {chains others : List Chain}
      (respells : List.Forall₂ (Chain.Respells registry root) chains others) :
      Respells registry root (.constructed chains) (.constructed others)
  | single {chain other : Chain} (respells : Chain.Respells registry root chain other) :
      Respells registry root (.single chain) (.single other)

/-- The same query with other spellings of its paths and chains, which start at the root type. -/
structure Spec.Respells (registry : Registry) (spec other : Spec) : Prop where
  name : other.name = spec.name
  root : other.root = spec.root
  arguments : other.arguments = spec.arguments
  includes : ∀ type, registry.object? spec.root = some type →
    List.Forall₂ (Include.Respells registry type) spec.includes other.includes
  selector : ∀ type, registry.object? spec.root = some type →
    Option.Rel (Selector.Respells registry type) spec.selector other.selector

theorem flatMap_calls_eq {registry : Registry} {root : ObjectType} {includes others : List Include}
    (h : List.Forall₂ (Include.Respells registry root) includes others) :
    others.flatMap Include.calls = includes.flatMap Include.calls := by
  induction h with
  | nil => rfl
  | cons first _ ih =>
    cases first
    rw [List.flatMap_cons, List.flatMap_cons, ih]

theorem Selector.Respells.chains {registry : Registry} {root : ObjectType}
    {selector other : Selector} (h : selector.Respells registry root other) :
    List.Forall₂ (Chain.Respells registry root) selector.chains other.chains := by
  cases h with
  | constructed respells => exact respells
  | single respells => exact .cons respells .nil

theorem Selector.Respells.check_eq {registry : Registry} {root : ObjectType}
    {selector other : Selector} (h : selector.Respells registry root other) :
    other.check = selector.check := by
  cases h with
  | single respells => rfl
  | constructed respells =>
    have hlabels : ∀ {chains others : List Chain},
        List.Forall₂ (Chain.Respells registry root) chains others →
        others.map Chain.label = chains.map Chain.label := by
      intro chains others hrespells
      induction hrespells with
      | nil => rfl
      | cons first _ ih =>
        cases first
        rw [List.map_cons, List.map_cons, ih]
    cases respells with
    | nil => rfl
    | cons first rest => simp only [check, hlabels (.cons first rest)]

namespace Compiler

variable {compiler : Compiler} {root : ObjectType}

theorem resolveAll_respelled (hbuilt : compiler.registry.Built) (hroot : root.Built)
    {includes others : List Include}
    (hrespells : List.Forall₂ (Include.Respells compiler.registry root) includes others)
    {state after : State} {nodes : List Node}
    (h : (compiler.resolveAll root includes state).result = .ok (nodes, after)) :
    (compiler.resolveAll root others state).result = .ok (nodes, after) := by
  induction hrespells generalizing state nodes with
  | nil => exact h
  | cons first _ ih =>
    obtain ⟨own, between, rest, hfirst, hrest, rfl⟩ := resolveAll_cons_eq_ok_iff.mp h
    refine resolveAll_cons_eq_ok_iff.mpr ⟨own, between, rest, ?_, ih hrest, rfl⟩
    cases first with
    | @path path calls segments respells =>
      have hne : segments ≠ [] := mt respells.eq_nil_iff.mpr (Path.segments_ne_nil path)
      rw [Path.segments_join hne (respells.dot_not_mem hbuilt hroot Path.dot_not_mem_segments)]
      exact hfirst.respelled hbuilt hroot respells

theorem resolveChains_respelled (hbuilt : compiler.registry.Built) (hroot : root.Built)
    {chains others : List Chain}
    (hrespells : List.Forall₂ (Chain.Respells compiler.registry root) chains others)
    {nodes : List Node} (h : (compiler.resolveChains root chains).result = .ok nodes) :
    (compiler.resolveChains root others).result = .ok nodes := by
  induction hrespells generalizing nodes with
  | nil => exact h
  | cons first _ ih =>
    obtain ⟨node?, rest, hfirst, hrest, rfl⟩ := resolveChains_cons_eq_ok_iff.mp h
    refine resolveChains_cons_eq_ok_iff.mpr ⟨node?, rest, ?_, ih hrest, rfl⟩
    obtain ⟨hlabel, hsteps, plain?, hdescends, hnode⟩ := resolveChain_eq_ok_iff.mp hfirst
    cases first with
    | steps respells =>
      exact resolveChain_eq_ok_iff.mpr ⟨hlabel, mt respells.eq_nil_iff.mpr hsteps, plain?,
        hdescends.respelled hbuilt hroot respells, hnode⟩

theorem selection_respelled (hbuilt : compiler.registry.Built) (hroot : root.Built)
    {spec other : Spec}
    (hincludes : List.Forall₂ (Include.Respells compiler.registry root) spec.includes
      other.includes)
    (hselector : Option.Rel (Selector.Respells compiler.registry root) spec.selector
      other.selector)
    {state after : State} {nodes : List Node}
    (h : (compiler.selection spec root state).result = .ok (nodes, after)) :
    (compiler.selection other root state).result = .ok (nodes, after) := by
  cases hspec : spec.selector with
  | none =>
    have hother : other.selector = none := by
      rw [hspec] at hselector
      generalize other.selector = selector? at hselector
      cases hselector
      rfl
    obtain ⟨included, hincluded, hnodes⟩ := (selection_eq_ok_iff_of_includes hspec).mp h
    exact (selection_eq_ok_iff_of_includes hother).mpr
      ⟨included, resolveAll_respelled hbuilt hroot hincludes hincluded, hnodes⟩
  | some selector =>
    obtain ⟨respelled, hother, hselects⟩ : ∃ respelled, other.selector = some respelled ∧
        selector.Respells compiler.registry root respelled := by
      rw [hspec] at hselector
      generalize other.selector = selector? at hselector
      cases hselector with
      | some hselects => exact ⟨_, rfl, hselects⟩
    obtain ⟨hcheck, hchains, hafter⟩ := (selection_eq_ok_iff_of_selector hspec).mp h
    exact (selection_eq_ok_iff_of_selector hother).mpr ⟨hselects.check_eq.trans hcheck,
      resolveChains_respelled hbuilt hroot hselects.chains hchains, hafter⟩

/-- Whatever is done about empty selections, a query that is compiled is compiled to the same
operation when it is respelled: the same document, the same variables, the same payload. -/
theorem compile_respelled {spec other : Spec} {operation : Operation}
    (hbuilt : compiler.registry.Built) (hrespells : spec.Respells compiler.registry other)
    (h : (compiler.compile spec).result = .ok operation) :
    (compiler.compile other).result = .ok operation := by
  obtain ⟨hname, hadmissible, root, declared, ⟨nodes, after⟩, hroot, hdeclared, hselected,
    hoperation⟩ := compile_eq_ok_iff.mp h
  obtain ⟨hselection, hkept⟩ := rootSelection_eq_ok_iff.mp hselected
  have hincludes := hrespells.includes root hroot
  have hassemble : assemble other (nodes, after) = assemble spec (nodes, after) := by
    rw [assemble, assemble, hrespells.name, hrespells.arguments]
  have hcursor : Cursor.ofIncludes other.includes = Cursor.ofIncludes spec.includes := by
    rw [Cursor.ofIncludes, Cursor.ofIncludes, flatMap_calls_eq hincludes]
  rw [compile_eq_ok_iff, hrespells.name, hrespells.arguments, hrespells.root, hcursor]
  refine ⟨hname, hadmissible, root, declared, (nodes, after), hroot, hdeclared, ?_,
    hoperation.trans hassemble.symm⟩
  exact rootSelection_eq_ok_iff.mpr ⟨selection_respelled hbuilt (hbuilt.object_built hroot)
    hincludes (hrespells.selector root hroot) hselection, hkept⟩

end Compiler

end Query

/-! ### Respelled queries for routes -/

namespace Transit

open Query
open Query.Compiler (compile_respelled)

/-- The trips of the route of the trips of a route, with a call for the first of them. -/
def circular (path : String) : Spec where
  name := "Route"
  root := "Route"
  arguments := OrderedMap.empty.insert "id" (.id "HSL:2550")
  includes := [⟨path,
    [⟨"trips", .list (.object "Trip"), OrderedMap.empty.insert "first" (.int 3)⟩]⟩]

/-- The identifiers of the trips of a route and its name. -/
def labelled (identifiers name : List String) : Spec where
  name := "Route"
  root := "Route"
  selector := some (.constructed [⟨"Ids", identifiers⟩, ⟨"Name", name⟩])

theorem compile_respelled_of_circular :
    (∃ operation, (compiler.compile (circular "trips.Route.trips")).result = .ok operation ∧
      (compiler.compile (circular "Trips.route.trips")).result = .ok operation) ∧
    ∃ operation,
      (compiler.compile (labelled ["trips", "gtfsId"] ["ShortName"])).result = .ok operation ∧
      (compiler.compile (labelled ["Trips", "GtfsId"] ["shortName"])).result = .ok operation := by
  have hroute : ∀ type, registry.object? "Route" = some type → type = route :=
    fun type htype => (Option.some.inj htype).symm
  have hcircular : (circular "trips.Route.trips").Respells registry
      (circular "Trips.route.trips") := by
    refine ⟨rfl, rfl, rfl, fun type htype => ?_, fun type htype => .none⟩
    obtain rfl := hroute type htype
    have hpath : registry.Respells route (Path.segments "trips.Route.trips")
        ["Trips", "route", "trips"] :=
      .through rfl (.inr .byName) rfl (.through rfl (.inr (.byRemoteName (by decide))) rfl
        (.same _))
    exact .cons (.path hpath) .nil
  have hlabelled : (labelled ["trips", "gtfsId"] ["ShortName"]).Respells registry
      (labelled ["Trips", "GtfsId"] ["shortName"]) := by
    refine ⟨rfl, rfl, rfl, fun type htype => .nil, fun type htype => ?_⟩
    obtain rfl := hroute type htype
    have hids : registry.Respells route ["trips", "gtfsId"] ["Trips", "GtfsId"] :=
      .through rfl (.inr .byName) rfl (.here rfl .byName)
    have hname : registry.Respells route ["ShortName"] ["shortName"] :=
      .here rfl (.byRemoteName (by decide))
    exact .some (.constructed (.cons (.steps hids) (.cons (.steps hname) .nil)))
  exact ⟨⟨_, rfl, compile_respelled built_registry hcircular rfl⟩,
    ⟨_, rfl, compile_respelled built_registry hlabelled rfl⟩⟩

end Transit

end PathQuery
