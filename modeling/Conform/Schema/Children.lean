import Conform.Schema.KeyGraph
import Conform.Schema.RuleTable

/-!
# Children of objects

Declaring children, and the order in which they are validated: a child comes after the siblings
that its schema reads through references. Declaring a key again replaces its schema in place.
-/

namespace Conform.ObjectForm

/-- The graph of the children: a key runs after the siblings that its schema references. -/
def graph (children : List (String × Schema)) : KeyGraph :=
  children.foldl (fun g child =>
    (child.2.siblingRefs 1).foldl (fun g peer => g.addAfter child.1 peer) g)
    (children.foldl (fun g child => g.addKey child.1) {})

/-- Declares children and sorts them; siblings that reference each other have no order. -/
def setChildren (f : ObjectForm Schema) (added : List (String × Schema)) :
    Except SchemaError (ObjectForm Schema) :=
  let children := Members.insertAll f.children added
  match (graph children).sort with
  | .ok order => .ok { f with keys := some children, order }
  | .error cycle => .error (.circular cycle)

/-- Adds a rename; a source can be renamed once. -/
def addRename (f : ObjectForm Schema) (rename : Rename) : Except SchemaError (ObjectForm Schema) :=
  if f.renames.any fun r => r.source == rename.source then .error (.renamedTwice rename.source)
  else .ok { f with renames := f.renames ++ [rename] }

/-- The children in the order of validation. -/
def orderedChildren (f : ObjectForm Schema) : List (String × Schema) :=
  f.order.filterMap fun key => (Members.get? f.children key).map fun schema => (key, schema)

end Conform.ObjectForm
