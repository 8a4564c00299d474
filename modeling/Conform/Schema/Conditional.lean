import Conform.Schema.Construct

/-!
# Alternatives and conditionals

Entries of alternatives, and `when`, which makes any schema depend on a condition: the branches
extend the schema, and the schema itself is used when no branch is picked.
-/

namespace Conform

/-- The cases of a conditional and the branch for all else. -/
structure When where
  cases : List (Case Schema) := []
  otherwise : Option Schema := none

namespace When

/-- Cases tested in order. -/
def switch (cases : List (Schema × Schema)) : When :=
  { cases := cases.map fun (test, branch) => ⟨some test, some branch⟩ }

/-- Changes the last case, the first one if there is none yet. -/
def updateLast (w : When) (f : Case Schema → Case Schema) : When :=
  match w.cases.reverse with
  | [] => { w with cases := [f {}] }
  | last :: before => { w with cases := (f last :: before).reverse }

/-- Sets the test of the last case. -/
def test (w : When) (schema : Schema) : When := w.updateLast ({ · with test := some schema })

/-- Sets the branch of the last case. -/
def branch (w : When) (schema : Schema) : When := w.updateLast ({ · with branch := some schema })

/-- Sets the branch for when no case holds. -/
def orElse (w : When) (schema : Schema) : When := { w with otherwise := some schema }

def hasBranch (w : When) : Bool := w.otherwise.isSome || w.cases.any fun c => c.branch.isSome

end When

namespace Schema

/-- The test of a case that has none: the value is there, and is not `null`, `false`, zero or
empty. -/
def isTruthy : Schema :=
  (any.deny [.literal .null, .literal (.bool false), .literal (.number 0), .literal (.string "")])
    |>.withPresence .required

/-- The test of a case under a condition. A reference is tested by the given schema, which demands a
value unless it says otherwise; a schema condition admits no test. -/
def caseTest (condition : Condition Schema) (test : Option Schema) :
    Except SchemaError (Option Schema) :=
  match condition, test with
  | .schema _, some _ => .error .testedTwice
  | .schema _, none => .ok none
  | .reference _, none => .ok (some isTruthy)
  | .reference _, some test =>
    .ok (some (if test.node.flags.presence.isNone then test.withPresence .required else test))

/-- The entry of a conditional; `wrap` changes its branches. -/
def conditionalEntry (condition : Condition Schema) (w : When)
    (wrap : Schema → Except SchemaError Schema) : Except SchemaError (Match Schema) :=
  if !w.hasBranch then .error .noBranch
  else do
    let cases ← w.cases.mapM fun c => do
      let test ← caseTest condition c.test
      let branch ← c.branch.mapM wrap
      pure (⟨test, branch⟩ : Case Schema)
    let cases ← match cases with
      | [] => do
        let test ← caseTest condition none
        pure [(⟨test, none⟩ : Case Schema)]
      | cases => pure cases
    let otherwise ← w.otherwise.mapM wrap
    pure (.conditional condition cases otherwise)

/-- The schema under a condition: each branch extends it, and it stands when no branch is picked. -/
def «when» (base : Schema) (condition : Condition Schema) (w : When) :
    Except SchemaError Schema := do
  let entry ← conditionalEntry condition w base.concat
  return (ofForm (.alternatives { entries := [entry], base := some base })).withPresence .ignore

/-- Adds an entry to alternatives. -/
def addEntry (s : Schema) (entry : Match Schema) : Schema :=
  s.updateForm fun
    | .alternatives form => .alternatives { form with entries := form.entries ++ [entry] }
    | form => form

/-- Tries another schema. -/
def attempt (s schema : Schema) : Schema := s.addEntry (.attempt schema)

/-- Adds a conditional to alternatives, its branches as they are. -/
def addWhen (s : Schema) (condition : Condition Schema) (w : When) : Except SchemaError Schema := do
  return s.addEntry (← conditionalEntry condition w .ok)

end Schema

end Conform
