/-!
# File trees

The files a command can reach: a tree of directories whose entries have names. A path leads from the
top of the tree to one of its parts, and a walk visits everything at or below a path, each directory
before its entries and the entries in order of their names.

What a walk meets has the path the walk started from, followed by the names below it. Such a path
can be too long to be used: a directory is then met but not entered, and a file is met but not read.
-/

namespace PathQuery.Command

/-- The content of a file is the text it holds, if it holds text in UTF-8 at all. -/
inductive FileTree where
  | file (content : Option String)
  | directory (entries : List (String × FileTree))

namespace FileTree

/-- Why a path does not lead to what is wanted. -/
inductive Fault where
  | missing
  | notDirectory
  | isDirectory
  | tooLong
  | terminator
  | notText
  deriving DecidableEq, Repr

def Fault.message : Fault → String
  | missing => "No such file or directory (os error 2)"
  | notDirectory => "Not a directory (os error 20)"
  | isDirectory => "Is a directory (os error 21)"
  | tooLong => "File name too long (os error 36)"
  | terminator => "file name contained an unexpected NUL byte"
  | notText => "stream did not contain valid UTF-8"

/-- The text of a file. -/
def text : FileTree → Except Fault String
  | file (some content) => .ok content
  | file none => .error .notText
  | directory _ => .error .isDirectory

/-- The most bytes that the name of an entry can have. -/
def nameLimit : Nat := 255

/-- The most bytes that a path can have. -/
def pathLimit : Nat := 4095

/-- What is wrong with the text of a path, wherever it leads: it holds the character that ends a
text for the system, or it is too long. -/
def textFault? (path : String) : Option Fault :=
  if path.toList.contains '\x00' then some .terminator
  else if pathLimit < path.utf8ByteSize then some .tooLong
  else none

/-- Follow names down from `here`; `above` are the directories that were entered, nearest first.
Every name needs a directory to be looked up in, also one that leads nowhere else. -/
def follow (above : List FileTree) (here : FileTree) : List String → Except Fault FileTree
  | [] => .ok here
  | name :: rest =>
    match here with
    | file _ => .error .notDirectory
    | directory entries =>
      match name with
      | "" | "." => follow above here rest
      | ".." =>
        match above with
        | [] => .error .missing
        | parent :: above => follow above parent rest
      | name =>
        if nameLimit < name.utf8ByteSize then .error .tooLong
        else match entries.lookup name with
          | none => .error .missing
          | some entry => follow (here :: above) entry rest

/-- What a path leads to. It starts at the top of the tree, so an empty path and one with a slash in
front lead nowhere. -/
def locate (tree : FileTree) (path : String) : Except Fault FileTree :=
  match textFault? path with
  | some fault => .error fault
  | none =>
    match path.toList.splitOn '/' with
    | [] :: _ => .error .missing
    | names => follow [] tree (names.map String.ofList)

/-- A file met on a walk. -/
structure Found where
  path : String
  content : Option String
  deriving DecidableEq, Repr

/-- The text of a file that is read by its path. -/
def Found.text (found : Found) : Except Fault String :=
  match textFault? found.path with
  | some fault => .error fault
  | none => (file found.content).text

/-- What a walk meets. -/
inductive Visit where
  | directory (path : String)
  | file (found : Found)
  | unreachable (path : String) (fault : Fault)
  deriving DecidableEq, Repr

def Visit.found? : Visit → Option Found
  | file found => some found
  | directory _ | unreachable _ _ => none

/-- The path of an entry of a directory. -/
def entryPath (path name : String) : String :=
  if path.toList.getLast? == some '/' then path ++ name else path ++ "/" ++ name

mutual

/-- Everything at or below a tree whose path is given. -/
def walk (path : String) : FileTree → List Visit
  | file content => [.file ⟨path, content⟩]
  | directory entries =>
    let walks := (walkEntries path entries).mergeSort fun a b => a.1 ≤ b.1
    .directory path ::
      match textFault? path with
      | some fault => [.unreachable path fault]
      | none => walks.flatMap Prod.snd

/-- The walk below each entry, under the name of the entry. -/
def walkEntries (path : String) : List (String × FileTree) → List (String × List Visit)
  | [] => []
  | (name, tree) :: rest => (name, walk (entryPath path name) tree) :: walkEntries path rest

end

/-- What follows the last dot of a file's name. A name without a dot, or whose only dot comes first,
has no extension. -/
def Found.extension? (found : Found) : Option String :=
  let name := found.path.toList.reverse.takeWhile (· != '/')
  match name.dropWhile (· != '.') with
  | _ :: _ :: _ => some (String.ofList (name.takeWhile (· != '.')).reverse)
  | _ => none

end FileTree

end PathQuery.Command
