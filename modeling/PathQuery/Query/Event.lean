import PathQuery.Log
import PathQuery.Query.Error
/-!
# What is noted while a query is compiled
-/

namespace PathQuery.Query

inductive Event where
  | started (query root : String) (arguments includes : Nat) (selector : Bool)
  | nullArgument (name : String)
  | declared (name type : String)
  | dropped (name : String)
  | consumed (position : Nat) (call : String)
  | resolved (segment path owner field type : String)
  | omitted (field path type : String)
  | selected (path node : String)
  | includesIgnored (count : Nat) (query : String)
  | unconsumed (calls : List String) (query : String)
  | finished (query document : String)
  deriving DecidableEq, Repr

/-- A compilation or a part of it. -/
abbrev Compilation (α : Type) := Logged Event Error α

namespace Event

def level : Event → Level
  | includesIgnored _ _ | unconsumed _ _ => .warn
  | started _ _ _ _ _ | omitted _ _ _ => .debug
  | _ => .trace

def message : Event → String
  | started query root arguments includes selector =>
    s!"Compiling query `{query}` returning `{root}` ({arguments} arguments, " ++
      s!"{includes} includes, selector: {selector})."
  | nullArgument name => s!"Omitting null argument `{name}`."
  | declared name type => s!"Declared variable `${name}: {type}`."
  | dropped name => s!"Dropped unused variable `${name}`."
  | consumed position call => s!"Consumed method include #{position} (`{call}`)."
  | resolved segment path owner field type =>
    s!"Resolved include segment `{segment}` of `{path}` to `{owner}.{field}: {type}`."
  | omitted field path type =>
    s!"Omitting `{field}` from `{path}`: type `{type}` has no selectable fields."
  | selected path node => s!"Translated selector chain `{path}` to `{node}`."
  | includesIgnored count query =>
    s!"Ignoring {count} include(s) on query `{query}` because a selector was given."
  | unconsumed calls query =>
    s!"{calls.length} method include(s) were not consumed by any include path of query " ++
      s!"`{query}`: " ++ ", ".intercalate (calls.map fun call => s!"`{call}`")
  | finished query document => s!"Compiled query `{query}`:\n{document}"

end Event

end PathQuery.Query
