import PathQuery.Command.FileTree
/-!
# What a walk meets

Files and obstacles are places in a tree, and a place is given by the names that lead to it. A walk
meets whatever is at or below the place where it starts, and as the entries of a directory have
different names, it meets each of these once. The names stand in lexicographic order from one to the
next, since a walk takes the entries of a directory in order and is done with one entry before it
goes on to the next.
-/

namespace PathQuery.Command

/-! ### Items in order of their places -/

/-- The items are those that are at some place, each once and in order of the places. -/
def Enumerates {α : Type} (items : List α) (At : List String → α → Prop) : Prop :=
  ∃ routes : List (List String × α), routes.map Prod.snd = items ∧
    routes.Pairwise (·.1 < ·.1) ∧ ∀ names item, (names, item) ∈ routes ↔ At names item

namespace Enumerates

variable {α β : Type} {items : List α} {At Other : List String → α → Prop}

theorem congr (h : Enumerates items At) (hiff : ∀ names item, At names item ↔ Other names item) :
    Enumerates items Other := by
  obtain ⟨routes, hitems, hsorted, hroutes⟩ := h
  exact ⟨routes, hitems, hsorted, fun names item => (hroutes names item).trans (hiff names item)⟩

/-- Order and membership leave no choice. -/
theorem unique {others : List α} (h : Enumerates items At) (hother : Enumerates others At) :
    items = others := by
  obtain ⟨routes, rfl, hsorted, hroutes⟩ := h
  obtain ⟨moved, rfl, hmoved, hiff⟩ := hother
  have hnodup : ∀ {list : List (List String × α)}, list.Pairwise (·.1 < ·.1) → list.Nodup := by
    intro list hlist
    refine hlist.imp ?_
    rintro route _ hlt rfl
    exact List.lt_irrefl _ hlt
  have hperm : routes.Perm moved := by
    rw [List.perm_ext_iff_of_nodup (hnodup hsorted) (hnodup hmoved)]
    intro route
    exact (hroutes route.1 route.2).trans (hiff route.1 route.2).symm
  have heq : routes = moved := by
    refine hperm.eq_of_pairwise ?_ hsorted hmoved
    intro route other _ _ hlt hgt
    exact absurd (List.lt_trans hlt hgt) (List.lt_irrefl _)
  rw [heq]

/-- One thing is where it is, if it is picked at all. -/
theorem singleton (pick : β → Option α) (only : β) :
    Enumerates ([only].filterMap pick) fun names item => names = [] ∧ pick only = some item := by
  cases hpick : pick only with
  | none => exact ⟨[], by simp [hpick], .nil, by simp⟩
  | some item =>
    exact ⟨[([], item)], by simp [hpick], List.pairwise_singleton _ _, by simp [eq_comm]⟩

/-- What is below keys in order of their names follows the names. -/
theorem flatMap {keys : List β} {name : β → String} {below : β → List α}
    {Below : β → List String → α → Prop} (hkeys : keys.Pairwise (name · < name ·))
    (h : ∀ key ∈ keys, Enumerates (below key) (Below key)) :
    Enumerates (keys.flatMap below) fun names item =>
      ∃ key ∈ keys, ∃ rest, names = name key :: rest ∧ Below key rest item := by
  induction keys with
  | nil => exact ⟨[], rfl, .nil, by simp⟩
  | cons key keys ih =>
    rw [List.pairwise_cons] at hkeys
    rw [List.forall_mem_cons] at h
    obtain ⟨routes, hitems, hsorted, hroutes⟩ := h.1
    obtain ⟨others, hothers, hordered, hbelow⟩ := ih hkeys.2 h.2
    refine ⟨routes.map (fun route => (name key :: route.1, route.2)) ++ others, ?_, ?_, ?_⟩
    · rw [List.map_append, List.map_map, hothers, List.flatMap_cons, ← hitems]
      rfl
    · rw [List.pairwise_append, List.pairwise_map]
      refine ⟨hsorted.imp fun hlt => List.cons_lt_cons_iff.mpr (.inr ⟨rfl, hlt⟩), hordered, ?_⟩
      intro route hroute other hother
      obtain ⟨first, -, rfl⟩ := List.mem_map.mp hroute
      obtain ⟨later, hlater, rest, hrest, -⟩ := (hbelow other.1 other.2).mp hother
      rw [hrest]
      exact List.cons_lt_cons_iff.mpr (.inl (hkeys.1 later hlater))
    · intro names item
      rw [List.mem_append, hbelow, List.mem_map]
      simp only [List.mem_cons, or_and_right, exists_or, exists_eq_left]
      apply or_congr_left
      constructor
      · intro hmem
        obtain ⟨route, hroute, heq⟩ := hmem
        obtain ⟨rfl, rfl⟩ := Prod.mk.inj heq
        exact ⟨route.1, rfl, (hroutes route.1 route.2).mp hroute⟩
      · intro hmem
        obtain ⟨rest, rfl, hrest⟩ := hmem
        exact ⟨(rest, item), (hroutes rest item).mpr hrest, rfl⟩

end Enumerates

namespace FileTree

/-! ### Places in a tree -/

/-- No directory, here or below, has two entries of one name. -/
inductive Distinct : FileTree → Prop
  | file (content : Option String) : Distinct (.file content)
  | directory {entries : List (String × FileTree)} (names : (entries.map Prod.fst).Nodup)
      (below : ∀ entry ∈ entries, entry.2.Distinct) : Distinct (.directory entries)

/-- The names lead from a tree to a part of it, and make a path from the path of the tree. Nothing
is below a directory whose path cannot be used. -/
inductive Leads : String → FileTree → List String → String → FileTree → Prop
  | here (path : String) (tree : FileTree) : Leads path tree [] path tree
  | down {path place : String} {entries : List (String × FileTree)} {entry : String × FileTree}
      {names : List String} {part : FileTree} (usable : textFault? path = none)
      (mem : entry ∈ entries) (below : Leads (entryPath path entry.1) entry.2 names place part) :
      Leads path (.directory entries) (entry.1 :: names) place part

/-- What there is to meet besides directories: files, and directories that cannot be entered. -/
inductive Meets (path : String) (tree : FileTree) (names : List String) : Visit → Prop
  | file {place : String} {content : Option String}
      (leads : Leads path tree names place (.file content)) :
      Meets path tree names (.file ⟨place, content⟩)
  | obstacle {place : String} {entries : List (String × FileTree)} {fault : Fault}
      (leads : Leads path tree names place (.directory entries))
      (unusable : textFault? place = some fault) :
      Meets path tree names (.unreachable place fault)

theorem meets_file_iff {path : String} {content : Option String} {names : List String}
    {visit : Visit} :
    Meets path (.file content) names visit ↔ names = [] ∧ visit = .file ⟨path, content⟩ := by
  constructor
  · intro h
    cases h with
    | file leads =>
      cases leads
      exact ⟨rfl, rfl⟩
    | obstacle leads => cases leads
  · intro h
    obtain ⟨rfl, rfl⟩ := h
    exact .file (.here path _)

theorem meets_directory_iff_of_fault {path : String} {entries : List (String × FileTree)}
    {fault : Fault} (hfault : textFault? path = some fault) {names : List String}
    {visit : Visit} :
    Meets path (.directory entries) names visit ↔
      names = [] ∧ visit = .unreachable path fault := by
  constructor
  · intro h
    cases h with
    | file leads =>
      cases leads with
      | down usable => simp [hfault] at usable
    | obstacle leads unusable =>
      cases leads with
      | here => exact ⟨rfl, by rw [Option.some.inj (unusable.symm.trans hfault)]⟩
      | down usable => simp [hfault] at usable
  · intro h
    obtain ⟨rfl, rfl⟩ := h
    exact .obstacle (.here path _) hfault

theorem meets_directory_iff {path : String} {entries : List (String × FileTree)}
    (husable : textFault? path = none) {names : List String} {visit : Visit} :
    Meets path (.directory entries) names visit ↔
      ∃ entry ∈ entries, ∃ rest, names = entry.1 :: rest ∧
        Meets (entryPath path entry.1) entry.2 rest visit := by
  constructor
  · intro h
    cases h with
    | file leads =>
      cases leads with
      | down usable mem below => exact ⟨_, mem, _, rfl, .file below⟩
    | obstacle leads unusable =>
      cases leads with
      | here => simp [husable] at unusable
      | down usable mem below => exact ⟨_, mem, _, rfl, .obstacle below unusable⟩
  · intro h
    obtain ⟨entry, mem, rest, rfl, hbelow⟩ := h
    cases hbelow with
    | file leads => exact .file (.down husable mem leads)
    | obstacle leads unusable => exact .obstacle (.down husable mem leads) unusable

theorem Distinct.follow {above : List FileTree} {here part : FileTree} {names : List String}
    (habove : ∀ tree ∈ above, tree.Distinct) (hhere : here.Distinct)
    (h : follow above here names = .ok part) : part.Distinct := by
  induction names generalizing above here with
  | nil => exact Except.ok.inj h ▸ hhere
  | cons name rest ih =>
    unfold FileTree.follow at h
    split at h
    · contradiction
    · rename_i entries
      split at h
      · exact ih habove hhere h
      · exact ih habove hhere h
      · split at h
        · contradiction
        · rename_i parent grand
          rw [List.forall_mem_cons] at habove
          exact ih habove.2 habove.1 h
      · split at h
        · contradiction
        · split at h
          · contradiction
          · rename_i entry hentry
            cases hhere with
            | directory hnames hbelow =>
              obtain ⟨front, back, hsplit, -⟩ := List.lookup_eq_some_iff.mp hentry
              have hmem : (name, entry) ∈ entries := by simp [hsplit]
              refine ih ?_ (hbelow _ hmem) h
              rw [List.forall_mem_cons]
              exact ⟨.directory hnames hbelow, habove⟩

/-- Every part of a tree has names as distinct as the tree. -/
theorem Distinct.locate {tree part : FileTree} {path : String} (h : tree.Distinct)
    (hpart : tree.locate path = .ok part) : part.Distinct := by
  unfold FileTree.locate at hpart
  split at hpart
  · contradiction
  · split at hpart
    · contradiction
    · exact h.follow (by simp) hpart

/-! ### The walk -/

/-- The entries of a directory as a walk takes them. -/
def inOrder (entries : List (String × FileTree)) : List (String × FileTree) :=
  entries.mergeSort fun a b => a.1 ≤ b.1

theorem mem_inOrder {entries : List (String × FileTree)} {entry : String × FileTree} :
    entry ∈ inOrder entries ↔ entry ∈ entries := List.mem_mergeSort

theorem pairwise_inOrder {entries : List (String × FileTree)}
    (h : (entries.map Prod.fst).Nodup) : (inOrder entries).Pairwise (·.1 < ·.1) := by
  have hsorted : (inOrder entries).Pairwise fun a b => decide (a.1 ≤ b.1) = true := by
    apply List.pairwise_mergeSort
    · intro a b c hab hbc
      exact decide_eq_true (String.le_trans (of_decide_eq_true hab) (of_decide_eq_true hbc))
    · intro a b
      simpa using String.le_total a.1 b.1
  have hnodup : (inOrder entries).Pairwise fun a b => a.1 ≠ b.1 := by
    rw [← List.pairwise_map]
    exact ((List.mergeSort_perm entries _).map Prod.fst).nodup_iff.mpr h
  refine (hsorted.and hnodup).imp ?_
  intro a b hab
  rw [← String.not_le]
  intro hba
  exact hab.2 (String.le_antisymm (of_decide_eq_true hab.1) hba)

theorem walkEntries_eq_map (path : String) (entries : List (String × FileTree)) :
    walkEntries path entries =
      entries.map fun entry => (entry.1, walk (entryPath path entry.1) entry.2) := by
  induction entries with
  | nil => rw [walkEntries, List.map_nil]
  | cons entry rest ih => rw [walkEntries, ih, List.map_cons]

theorem walk_directory_of_fault {path : String} {fault : Fault}
    (h : textFault? path = some fault) (entries : List (String × FileTree)) :
    walk path (.directory entries) = [.directory path, .unreachable path fault] := by
  simp only [walk, h]

theorem walk_directory {path : String} (h : textFault? path = none)
    (entries : List (String × FileTree)) :
    walk path (.directory entries) = .directory path ::
      (inOrder entries).flatMap fun entry => walk (entryPath path entry.1) entry.2 := by
  have hsorted : ((walkEntries path entries).mergeSort fun a b => a.1 ≤ b.1) =
      (inOrder entries).map fun entry => (entry.1, walk (entryPath path entry.1) entry.2) := by
    rw [walkEntries_eq_map, inOrder]
    symm
    apply List.map_mergeSort
    intro a _ b _
    rfl
  simp only [walk, h, hsorted, List.flatMap_map]

/-- A walk meets everything there is to meet, once and in order. -/
theorem enumerates_walk {α : Type} {pick : Visit → Option α}
    (hpick : ∀ path, pick (.directory path) = none) {tree : FileTree} (h : tree.Distinct)
    (path : String) :
    Enumerates ((tree.walk path).filterMap pick) fun names item =>
      ∃ visit, Meets path tree names visit ∧ pick visit = some item := by
  induction h generalizing path with
  | file content =>
    rw [walk]
    refine (Enumerates.singleton pick _).congr fun names item => ?_
    simp only [meets_file_iff, and_assoc, exists_and_left, exists_eq_left]
  | @directory entries hnames hbelow ih =>
    cases hfault : textFault? path with
    | some fault =>
      rw [walk_directory_of_fault hfault, List.filterMap_cons, hpick]
      refine (Enumerates.singleton pick _).congr fun names item => ?_
      simp only [meets_directory_iff_of_fault hfault, and_assoc, exists_and_left, exists_eq_left]
    | none =>
      rw [walk_directory hfault, List.filterMap_cons, hpick, List.filterMap_flatMap]
      have hentries := Enumerates.flatMap (pairwise_inOrder hnames) fun entry hentry =>
        ih entry (mem_inOrder.mp hentry) (entryPath path entry.1)
      refine hentries.congr fun names item => ?_
      simp only [meets_directory_iff hfault, mem_inOrder]
      constructor
      · intro hitem
        obtain ⟨entry, hentry, rest, hnames, visit, hmeets, hvisit⟩ := hitem
        exact ⟨visit, ⟨entry, hentry, rest, hnames, hmeets⟩, hvisit⟩
      · intro hitem
        obtain ⟨visit, ⟨entry, hentry, rest, hnames, hmeets⟩, hvisit⟩ := hitem
        exact ⟨entry, hentry, rest, hnames, visit, hmeets, hvisit⟩

end FileTree

end PathQuery.Command
