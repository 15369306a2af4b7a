import PathQuery.OrderedMap
import PathQuery.Path
import PathQuery.Schema.TypeRef
import PathQuery.Value.Basic
/-!
# Query specifications

What a client writes down to get one query: the remote query to call and the type it returns, the
arguments of the call, and what to select from the result. By default that is the leaf fields of the
root type and the paths of the includes below it; a selector takes the place of both.
-/

namespace PathQuery.Query

/-- A call of a parameterized relation, described by the relation's name and declared type. -/
structure RelationCall where
  name : String
  returnType : Schema.TypeRef
  parameters : OrderedMap String Value

/-- A dotted path to select, with the calls of parameterized relations that come with it. -/
structure Include where
  path : String
  calls : List RelationCall

/-- A chain of fields from the root type, under a label of its own. -/
structure Chain where
  label : String
  steps : List String
  deriving DecidableEq, Repr

namespace Chain

def path (chain : Chain) : String := Path.join chain.steps

def ofPath (label path : String) : Chain := ⟨label, Path.segments path⟩

end Chain

inductive Selector where
  | constructed (chains : List Chain)
  | single (chain : Chain)
  deriving DecidableEq, Repr

def Selector.chains : Selector → List Chain
  | constructed chains => chains
  | single chain => [chain]

structure Spec where
  name : String
  root : String
  arguments : OrderedMap String Value := ∅
  includes : List Include := []
  selector : Option Selector := none

end PathQuery.Query
