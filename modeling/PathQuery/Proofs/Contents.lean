import PathQuery.Command.Run
/-!
# What is read from a path

A file is read by a path, and what that comes to is said by the path and by what is there: a path
may not be usable whatever it leads to, it may lead nowhere, and of what it leads to only a file
that holds text can be read. The reading functions agree with these rules, so each reading comes to
one text or one fault.
-/

namespace PathQuery.Command

open FileTree (Fault)

namespace FileTree

/-- No path with this text can be used, wherever it leads. -/
inductive Unusable (path : String) : Fault → Prop
  | terminator (mem : '\x00' ∈ path.toList) : Unusable path .terminator
  | tooLong (notMem : '\x00' ∉ path.toList) (long : pathLimit < path.utf8ByteSize) :
      Unusable path .tooLong

/-- What reading a part of a tree comes to. Only a file that holds text has one. -/
inductive Reads : FileTree → Except Fault String → Prop
  | text (content : String) : Reads (.file (some content)) (.ok content)
  | notText : Reads (.file none) (.error .notText)
  | directory (entries : List (String × FileTree)) :
      Reads (.directory entries) (.error .isDirectory)

/-- What reading a file by the path under which it was met comes to. -/
inductive Found.Reads (found : Found) : Except Fault String → Prop
  | unusable {fault : Fault} (unusable : Unusable found.path fault) : Reads found (.error fault)
  | usable {result : Except Fault String} (usable : ∀ fault, ¬Unusable found.path fault)
      (reads : FileTree.Reads (.file found.content) result) : Reads found result

theorem textFault?_eq_some_iff {path : String} {fault : Fault} :
    textFault? path = some fault ↔ Unusable path fault := by
  unfold textFault?
  simp only [List.contains_iff_mem]
  constructor
  · intro h
    split at h
    · rename_i hmem
      exact Option.some.inj h ▸ .terminator hmem
    · rename_i hmem
      split at h
      · rename_i hlong
        exact Option.some.inj h ▸ .tooLong hmem hlong
      · contradiction
  · intro h
    cases h with
    | terminator mem => rw [if_pos mem]
    | tooLong notMem long => rw [if_neg notMem, if_pos long]

theorem reads_iff {tree : FileTree} {result : Except Fault String} :
    tree.Reads result ↔ tree.text = result := by
  constructor
  · intro h
    cases h with
    | text content => rfl
    | notText => rfl
    | directory entries => rfl
  · rintro rfl
    match tree with
    | .file (some content) => exact .text content
    | .file none => exact .notText
    | .directory entries => exact .directory entries

theorem Found.reads_iff {found : Found} {result : Except Fault String} :
    found.Reads result ↔ found.text = result := by
  unfold Found.text
  cases hfault : textFault? found.path with
  | some fault =>
    have hunusable := textFault?_eq_some_iff.mp hfault
    constructor
    · intro h
      cases h with
      | unusable other =>
        rw [← Option.some.inj (hfault.symm.trans (textFault?_eq_some_iff.mpr other))]
      | usable usable reads => exact absurd hunusable (usable fault)
    · intro h
      exact h ▸ .unusable hunusable
  | none =>
    have husable : ∀ fault, ¬Unusable found.path fault := by
      intro fault hunusable
      rw [textFault?_eq_some_iff.mpr hunusable] at hfault
      contradiction
    constructor
    · intro h
      cases h with
      | unusable unusable => exact absurd unusable (husable _)
      | usable usable reads => exact FileTree.reads_iff.mp reads
    · intro h
      exact .usable husable (FileTree.reads_iff.mpr h)

end FileTree

/-- What reading whatever a path leads to comes to. -/
inductive Storage.Reads (storage : Storage) (path : String) : Except Fault String → Prop
  | nowhere {fault : Fault} (leads : storage path = .error fault) :
      Reads storage path (.error fault)
  | somewhere {tree : FileTree} {result : Except Fault String} (leads : storage path = .ok tree)
      (reads : tree.Reads result) : Reads storage path result

theorem Storage.reads_iff {storage : Storage} {path : String} {result : Except Fault String} :
    Storage.Reads storage path result ↔ (storage path).bind FileTree.text = result := by
  constructor
  · intro h
    cases h with
    | nowhere leads =>
      rw [leads]
      rfl
    | somewhere leads reads =>
      rw [leads]
      exact FileTree.reads_iff.mp reads
  · intro h
    cases hleads : storage path with
    | error fault =>
      rw [hleads] at h
      exact h ▸ .nowhere hleads
    | ok tree =>
      rw [hleads] at h
      exact .somewhere hleads (FileTree.reads_iff.mpr h)

end PathQuery.Command
