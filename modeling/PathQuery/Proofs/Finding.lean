import PathQuery.Command.Run
import PathQuery.Proofs.Walk
/-!
# Which files are found

A file is wanted for what follows the last dot of its name. What a run finds are the wanted files at
or below its paths, one path after the other and each path in the order of its walk. Where this is
nothing, a single path that leads to a file is found all the same. The obstacles are gathered in the
same way, whatever the files are called.
-/

namespace PathQuery.Command

open FileTree (Found Visit Fault Meets)

/-! ### Extensions -/

/-- A text is cut in front of the first character that is not kept. -/
theorem cut_iff {keep : Char → Bool} {text front back : List Char} :
    text.takeWhile keep = front ∧ text.dropWhile keep = back ↔
      text = front ++ back ∧ (∀ c ∈ front, keep c = true) ∧
        ∀ c, back.head? = some c → keep c = false := by
  constructor
  · intro h
    obtain ⟨rfl, rfl⟩ := h
    refine ⟨List.takeWhile_append_dropWhile.symm, List.all_eq_true.mp List.all_takeWhile, ?_⟩
    intro c hc
    have hhead := List.head?_dropWhile_not keep text
    rwa [hc] at hhead
  · intro h
    obtain ⟨rfl, hfront, hback⟩ := h
    rw [List.takeWhile_append_of_pos hfront, List.dropWhile_append_of_pos hfront]
    cases back with
    | nil => simp
    | cons c rest =>
      have hc : ¬ keep c = true := by simp [hback c rfl]
      rw [List.takeWhile_cons_of_neg hc, List.dropWhile_cons_of_neg hc, List.append_nil]
      exact ⟨rfl, rfl⟩

/-- The name at the end of the path has something in front of its last dot, and the extension behind
it. -/
def HasExtension (path extension : String) : Prop :=
  ∃ folder stem, path.toList = folder ++ stem ++ '.' :: extension.toList ∧
    (folder = [] ∨ ∃ above, folder = above ++ ['/']) ∧ '/' ∉ stem ∧ stem ≠ [] ∧
      '/' ∉ extension.toList ∧ '.' ∉ extension.toList

theorem forall_mem_reverse_bne_iff {c : Char} {text : List Char} :
    (∀ other ∈ text.reverse, (other != c) = true) ↔ c ∉ text := by
  simp only [List.mem_reverse, bne_iff_ne]
  exact ⟨fun h hc => h c hc rfl, fun h other hother he => h (he ▸ hother)⟩

/-- The name at the end of a path stands behind the last slash, or there is no slash. -/
theorem lastName_iff {path folder name : List Char} :
    path.reverse.takeWhile (· != '/') = name.reverse ∧
        path.reverse.dropWhile (· != '/') = folder.reverse ↔
      path = folder ++ name ∧ '/' ∉ name ∧ (folder = [] ∨ ∃ above, folder = above ++ ['/']) := by
  rw [cut_iff, ← List.reverse_append, List.reverse_inj, forall_mem_reverse_bne_iff]
  refine and_congr Iff.rfl (and_congr Iff.rfl ?_)
  rcases List.eq_nil_or_concat folder with rfl | ⟨above, last, rfl⟩
  · simp
  · simp only [List.concat_eq_append, List.reverse_append, List.reverse_singleton,
      List.singleton_append, List.head?_cons, Option.some.injEq, forall_eq', bne_eq_false_iff_eq,
      List.append_eq_nil_iff, List.cons_ne_self, and_false, false_or]
    constructor
    · rintro rfl
      exact ⟨above, rfl⟩
    · rintro ⟨other, h⟩
      exact (List.cons.inj (List.append_inj_right' h rfl)).1

/-- The extension of a name stands behind its last dot. -/
theorem lastDot_iff {name stem extension : List Char} :
    name.reverse.takeWhile (· != '.') = extension.reverse ∧
        name.reverse.dropWhile (· != '.') = '.' :: stem.reverse ↔
      name = stem ++ '.' :: extension ∧ '.' ∉ extension := by
  have hreverse : extension.reverse ++ '.' :: stem.reverse =
      (stem ++ '.' :: extension).reverse := by
    simp
  rw [cut_iff, hreverse, List.reverse_inj, forall_mem_reverse_bne_iff]
  simp

theorem extension?_eq_some_iff {found : Found} {extension : String} :
    found.extension? = some extension ↔ HasExtension found.path extension := by
  obtain ⟨name, hname⟩ : ∃ name : List Char,
      found.path.toList.reverse.takeWhile (· != '/') = name.reverse :=
    ⟨_, (List.reverse_reverse _).symm⟩
  unfold Found.extension?
  simp only [hname]
  constructor
  · intro h
    obtain ⟨folder, hfolder⟩ : ∃ folder : List Char,
        found.path.toList.reverse.dropWhile (· != '/') = folder.reverse :=
      ⟨_, (List.reverse_reverse _).symm⟩
    obtain ⟨hpath, hslash, hends⟩ := lastName_iff.mp ⟨hname, hfolder⟩
    split at h
    · rename_i dot first rest hrest
      obtain ⟨-, -, hdot⟩ := cut_iff.mp ⟨rfl, hrest⟩
      obtain rfl : dot = '.' := by simpa using hdot dot rfl
      have hextension : name.reverse.takeWhile (· != '.') = extension.toList.reverse := by
        rw [← Option.some.inj h, String.toList_ofList, List.reverse_reverse]
      have hstem : name.reverse.dropWhile (· != '.') = '.' :: (first :: rest).reverse.reverse := by
        rw [hrest, List.reverse_reverse]
      obtain ⟨rfl, hlast⟩ := lastDot_iff.mp ⟨hextension, hstem⟩
      simp only [List.mem_append, List.mem_cons, not_or] at hslash
      exact ⟨folder, (first :: rest).reverse, by rw [hpath, List.append_assoc], hends, hslash.1,
        by simp, hslash.2.2, hlast⟩
    · contradiction
  · intro h
    obtain ⟨folder, stem, hpath, hends, hstem, hne, hslash, hdot⟩ := h
    rw [List.append_assoc] at hpath
    have hlast := (lastName_iff.mpr ⟨hpath, by simp [hstem, hslash], hends⟩).1
    obtain rfl := List.reverse_inj.mp (hname.symm.trans hlast)
    obtain ⟨hextension, hrest⟩ := lastDot_iff.mpr
      ⟨(rfl : stem ++ '.' :: extension.toList = _), hdot⟩
    obtain ⟨last, above, hreverse⟩ := List.exists_cons_of_ne_nil (mt List.reverse_eq_nil_iff.mp hne)
    rw [hreverse] at hrest
    simp only [hrest, hextension, List.reverse_reverse, String.ofList_toList]

namespace Options

/-- What is written for an extension, with any number of dots in front. -/
def Names (written extension : String) : Prop :=
  ∃ dots, written.toList = List.replicate dots '.' ++ extension.toList ∧
    extension.toList.head? ≠ some '.'

/-- The file has one of the extensions to look for. -/
def Wanted (options : Options) (found : Found) : Prop :=
  ∃ written ∈ options.extensions, ∃ extension, Names written extension ∧
    HasExtension found.path extension

theorem names_iff {written extension : String} :
    Names written extension ↔ written.toList.dropWhile (· == '.') = extension.toList := by
  constructor
  · intro h
    obtain ⟨dots, hwritten, hhead⟩ := h
    refine (cut_iff.mpr ⟨hwritten, ?_, ?_⟩).2
    · intro c hc
      simpa using List.eq_of_mem_replicate hc
    · intro c hc
      rw [beq_eq_false_iff_ne]
      rintro rfl
      exact hhead hc
  · intro h
    obtain ⟨hwritten, hdots, hhead⟩ := cut_iff.mp ⟨rfl, h⟩
    refine ⟨_, hwritten.trans (congrArg (· ++ _) (List.eq_replicate_of_mem ?_)), ?_⟩
    · intro c hc
      simpa using hdots c hc
    · intro hdot
      simpa using hhead '.' hdot

theorem isWanted_eq_true_iff {options : Options} {found : Found} :
    options.isWanted found = true ↔ options.Wanted found := by
  have haccepted : ∀ extension, extension ∈ options.accepted ↔
      ∃ written ∈ options.extensions, Names written extension := by
    intro extension
    simp only [accepted, List.mem_eraseDups, List.mem_map, names_iff, ← String.toList_inj,
      String.toList_ofList]
  unfold isWanted
  split
  · rename_i hnone
    simp only [Bool.false_eq_true, false_iff]
    rintro ⟨written, -, extension, -, hextension⟩
    rw [← extension?_eq_some_iff, hnone] at hextension
    contradiction
  · rename_i extension hsome
    have hextension := extension?_eq_some_iff.mp hsome
    rw [List.contains_iff_mem, haccepted]
    constructor
    · intro h
      obtain ⟨written, hwritten, hnames⟩ := h
      exact ⟨written, hwritten, extension, hnames, hextension⟩
    · intro h
      obtain ⟨written, hwritten, other, hnames, hother⟩ := h
      rw [← extension?_eq_some_iff, hsome] at hother
      exact ⟨written, hwritten, Option.some.inj hother ▸ hnames⟩

end Options

/-! ### What is met below the paths -/

/-- What there is to meet at or below a path. A path that leads nowhere is itself an obstacle. -/
inductive Reaches (storage : Storage) (path : String) : List String → Visit → Prop
  | within {tree : FileTree} {names : List String} {visit : Visit} (leads : storage path = .ok tree)
      (meets : Meets path tree names visit) : Reaches storage path names visit
  | nowhere {fault : Fault} (leads : storage path = .error fault) :
      Reaches storage path [] (.unreachable path fault)

/-- What a path leads to has no two entries of one name in a directory. -/
def Storage.Distinct (storage : Storage) : Prop :=
  ∀ path tree, storage path = .ok tree → tree.Distinct

theorem enumerates_visits {storage : Storage} (hstorage : storage.Distinct) {α : Type}
    {pick : Visit → Option α} (hpick : ∀ path, pick (.directory path) = none) (path : String) :
    Enumerates ((Options.visits storage path).filterMap pick) fun names item =>
      ∃ visit, Reaches storage path names visit ∧ pick visit = some item := by
  unfold Options.visits
  cases hleads : storage path with
  | error fault =>
    refine (Enumerates.singleton pick _).congr fun names item => ?_
    constructor
    · intro h
      obtain ⟨rfl, hitem⟩ := h
      exact ⟨_, .nowhere hleads, hitem⟩
    · intro h
      obtain ⟨visit, hreaches, hitem⟩ := h
      cases hreaches with
      | within leads => simp [hleads] at leads
      | nowhere leads =>
        obtain rfl := Except.error.inj (hleads.symm.trans leads)
        exact ⟨rfl, hitem⟩
  | ok tree =>
    refine (FileTree.enumerates_walk hpick (hstorage path tree hleads) path).congr
      fun names item => ?_
    apply exists_congr
    intro visit
    apply and_congr_left
    intro _
    constructor
    · intro hmeets
      exact .within hleads hmeets
    · intro hreaches
      cases hreaches with
      | within leads meets => exact Except.ok.inj (leads.symm.trans hleads) ▸ meets
      | nowhere leads => simp [hleads] at leads

/-- The items of paths, one path after the other. -/
def Gathers {α : Type} (paths : List String) (At : String → List String → α → Prop)
    (items : List α) : Prop :=
  ∃ groups : List (String × List α), groups.map Prod.fst = paths ∧
    (∀ group ∈ groups, Enumerates group.2 (At group.1)) ∧ items = groups.flatMap Prod.snd

theorem Gathers.unique {α : Type} {paths : List String} {At : String → List String → α → Prop}
    {items others : List α} (h : Gathers paths At items) (hother : Gathers paths At others) :
    items = others := by
  obtain ⟨groups, hpaths, hgroups, rfl⟩ := h
  obtain ⟨moved, hmoved, hsame, rfl⟩ := hother
  induction groups generalizing paths moved with
  | nil =>
    obtain rfl : moved = [] := by simpa [← hpaths] using hmoved
    rfl
  | cons group rest ih =>
    subst hpaths
    cases moved with
    | nil => contradiction
    | cons first others =>
      rw [List.forall_mem_cons] at hgroups hsame
      obtain ⟨hfirst, hothers⟩ := List.cons.inj hmoved
      rw [hfirst] at hsame
      rw [List.flatMap_cons, List.flatMap_cons, hgroups.1.unique hsame.1,
        ih rfl hgroups.2 others hothers hsame.2]

theorem gathers_flatMap {α : Type} {paths : List String} {At : String → List String → α → Prop}
    {below : String → List α} (h : ∀ path, Enumerates (below path) (At path)) :
    Gathers paths At (paths.flatMap below) := by
  refine ⟨paths.map fun path => (path, below path), ?_, ?_, ?_⟩
  · rw [List.map_map]
    exact List.map_id paths
  · intro group hgroup
    obtain ⟨path, -, rfl⟩ := List.mem_map.mp hgroup
    exact h path
  · rw [List.flatMap_map]

namespace Options

variable {options : Options} {storage : Storage}

/-- The wanted files at or below the paths. -/
def Matches (options : Options) (storage : Storage) (files : List Found) : Prop :=
  Gathers options.paths
    (fun path names found => Reaches storage path names (.file found) ∧ options.Wanted found) files

/-- The obstacles at or below the paths, as failures. -/
def Hinders (options : Options) (storage : Storage) (failures : List Failure) : Prop :=
  Gathers options.paths
    (fun path names failure => ∃ place fault, failure = .unreachable place fault ∧
      Reaches storage path names (.unreachable place fault)) failures

/-- The files to be compiled: those that match, or if there is none and the only path leads to a
file, this file. -/
inductive Finds (options : Options) (storage : Storage) : List Found → Prop
  | all {files : List Found} (found : options.Matches storage files) (some : files ≠ []) :
      Finds options storage files
  | sole {path : String} {content : Option String} (none : options.Matches storage [])
      (only : options.paths = [path]) (leads : storage path = .ok (.file content)) :
      Finds options storage [⟨path, content⟩]
  | none (none : options.Matches storage [])
      (elsewhere : ∀ path content, options.paths = [path] → storage path ≠ .ok (.file content)) :
      Finds options storage []

theorem Finds.unique {files others : List Found} (h : options.Finds storage files)
    (hother : options.Finds storage others) : files = others := by
  cases h with
  | all found some =>
    cases hother with
    | all => exact found.unique ‹_›
    | sole none => exact absurd (found.unique none) some
    | none none => exact absurd (found.unique none) some
  | sole none only leads =>
    cases hother with
    | all found some => exact absurd (found.unique none) some
    | sole _ only' leads' =>
      obtain rfl := (List.cons.inj (only.symm.trans only')).1
      obtain rfl := FileTree.file.inj (Except.ok.inj (leads.symm.trans leads'))
      rfl
    | none _ elsewhere => exact absurd leads (elsewhere _ _ only)
  | none none elsewhere =>
    cases hother with
    | all found some => exact absurd (found.unique none) some
    | sole _ only leads => exact absurd leads (elsewhere _ _ only)
    | none => rfl

theorem matches_wanted (hstorage : storage.Distinct) :
    options.Matches storage (options.wanted storage) := by
  apply gathers_flatMap
  intro path
  unfold wantedUnder
  rw [List.filter_filterMap]
  refine (enumerates_visits hstorage (fun _ => rfl) path).congr fun names found => ?_
  simp only [Option.filter_eq_some_iff, isWanted_eq_true_iff]
  constructor
  · intro h
    obtain ⟨visit, hreaches, hfound, hwanted⟩ := h
    cases visit with
    | file other =>
      obtain rfl := Option.some.inj hfound
      exact ⟨hreaches, hwanted⟩
    | directory path => contradiction
    | unreachable path fault => contradiction
  · intro h
    exact ⟨.file found, h.1, rfl, h.2⟩

theorem hinders_unreachable (hstorage : storage.Distinct) :
    options.Hinders storage (options.unreachable storage) := by
  apply gathers_flatMap
  intro path
  refine (enumerates_visits hstorage (fun _ => rfl) path).congr fun names failure => ?_
  constructor
  · intro h
    obtain ⟨visit, hreaches, hfailure⟩ := h
    cases visit with
    | unreachable place fault =>
      exact ⟨place, fault, (Option.some.inj hfailure).symm, hreaches⟩
    | directory path => contradiction
    | file other => contradiction
  · intro h
    obtain ⟨place, fault, rfl, hreaches⟩ := h
    exact ⟨.unreachable place fault, hreaches, rfl⟩

theorem soleFile?_eq_some_iff {found : Found} :
    options.soleFile? storage = some found ↔
      options.paths = [found.path] ∧ storage found.path = .ok (.file found.content) := by
  unfold soleFile?
  split
  · rename_i path hpaths
    split
    · rename_i content hleads
      constructor
      · intro h
        obtain rfl := Option.some.inj h
        exact ⟨hpaths, hleads⟩
      · intro h
        obtain rfl : path = found.path := by simpa [hpaths] using h.1
        obtain rfl : content = found.content := by simpa [hleads] using h.2
        rfl
    · rename_i hleads
      simp only [reduceCtorEq, false_iff, not_and]
      intro hpath hfile
      obtain rfl : path = found.path := by simpa [hpaths] using hpath
      exact hleads found.content hfile
  · rename_i hpaths
    simp only [reduceCtorEq, false_iff, not_and]
    intro hpath
    exact absurd hpath (hpaths found.path)

theorem finds_files (hstorage : storage.Distinct) :
    options.Finds storage (options.files storage) := by
  have hmatches : options.Matches storage (options.wanted storage) := matches_wanted hstorage
  unfold files unwanted?
  cases hwanted : options.wanted storage with
  | cons first rest =>
    rw [hwanted] at hmatches
    simpa using .all hmatches (by simp)
  | nil =>
    rw [hwanted] at hmatches
    cases hsole : options.soleFile? storage with
    | some found =>
      obtain ⟨honly, hleads⟩ := soleFile?_eq_some_iff.mp hsole
      simpa [hsole] using .sole hmatches honly hleads
    | none =>
      simp only [List.isEmpty_nil, if_true, List.nil_append, Option.toList_none]
      refine .none hmatches fun path content honly hleads => ?_
      have hfound : options.soleFile? storage = some ⟨path, content⟩ :=
        soleFile?_eq_some_iff.mpr ⟨honly, hleads⟩
      rw [hsole] at hfound
      contradiction

end Options

end PathQuery.Command
