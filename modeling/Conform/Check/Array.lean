import Conform.Check.Basic
import Conform.Json.Reader
import Conform.Schema.Construct

/-!
# Arrays

The members of an array are walked from left to right. A member is first held against the forbidden
item schemas, then taken by the ordered schema of its place, else by a required schema that no
member has matched yet, else by any item schema. Members are seen inside the array as it was before
the walk.
-/

namespace Conform.ArrayForm

/-- The item schemas that must each be matched by some member. -/
def requireds (form : ArrayForm Schema) : List Schema :=
  form.items.filter fun s => decide (s.node.flags.presence = some .required)

/-- The required item schemas, each with the place of the first one that is the same. -/
def numberedRequireds (form : ArrayForm Schema) : List (Nat × Schema) :=
  let requireds := form.requireds
  requireds.zipIdx.map fun (schema, place) =>
    ((requireds.findIdx? schema.isSame).getD place, schema)

/-- The item schemas that members may match. -/
def inclusions (form : ArrayForm Schema) : List Schema :=
  form.items.filter fun s =>
    decide (s.node.flags.presence ≠ some .required ∧ s.node.flags.presence ≠ some .forbidden)

/-- The forbidden item schemas, made optional so that a member can match them. -/
def exclusions (form : ArrayForm Schema) : List Schema :=
  (form.items.filter fun s => decide (s.node.flags.presence = some .forbidden)).map
    (·.updateFlags ({ · with presence := some .optional }))

/-- Whether the members have to be looked at. -/
def needsWalk (form : ArrayForm Schema) : Bool :=
  !form.items.isEmpty || !form.ordered.isEmpty || !form.sparse

/-- Reads a text that holds a JSON array. -/
def coerce (value : Value) : Value :=
  match value with
  | .string text =>
    match (text.toList.dropWhile Text.isBlank).head?, Json.parse? text with
    | some '[', some (.array items) => Value.ofJson (.array items)
    | _, _ => value
  | value => value

/-- Schemas that should have been matched: by label where they have one, the others by number. -/
def missedReport (site : Site) (value : Value) (missed : List Schema) : Report :=
  let known := missed.filterMap fun s => s.node.flags.label.map Value.string
  let unknown := Value.ofNat (missed.length - known.length)
  if known.isEmpty then
    site.report "array.includesRequiredUnknowns" value [("unknownMisses", unknown)]
  else if known.length < missed.length then
    site.report "array.includesRequiredBoth" value
      [("knownMisses", .array known), ("unknownMisses", unknown)]
  else site.report "array.includesRequiredKnowns" value [("knownMisses", .array known)]

/-- The report on schemas that should have been matched, if there are any. -/
def missedReports (site : Site) (value : Value) (missed : List Schema) : List Report :=
  if missed.isEmpty then [] else [missedReport site value missed]

/-- How far a walk has come. -/
structure Walk where
  /-- Required schemas not matched yet, with their numbers. -/
  requireds : List (Nat × Schema)
  /-- Ordered schemas of the places to come. -/
  ordereds : List Schema
  out : List Value := []
  reports : List Report := []

/-- What a member does to the walk. -/
inductive Step
  /-- On to the next member. -/
  | next (walk : Walk)
  /-- The walk ends here, all members accounted for. -/
  | finish (walk : Walk)
  /-- The first failure settles it. -/
  | abort (reports : List Report)

/-- What is the same for all members of a walk. -/
structure Ground where
  site : Site
  form : ArrayForm Schema
  /-- The array before the walk. -/
  parent : Value

namespace Ground

def position (g : Ground) (i : Nat) : Position := g.site.position.nest (.index i) g.parent

/-- A report about the member in place `i`. -/
def memberReport (g : Ground) (code : String) (i : Nat) (member : Value)
    (context : List (String × Value)) : Report :=
  reportAt g.site.schema (g.position i) code member (("pos", .ofNat i) :: context)

/-- Adds reports to the walk, which ends it if the first failure settles it; else goes on. -/
def fail (g : Ground) (walk : Walk) (reports : List Report) (goOn : Walk → Step) : Step :=
  let walk := { walk with reports := walk.reports ++ reports }
  if g.site.prefs.abortEarly then .abort walk.reports else goOn walk

/-- Whether a member without a value is one too many. -/
def isHole (g : Ground) (member : Value) : Bool := !g.form.sparse && !member.isDefined

/-- Whether some forbidden schema matches. -/
def isExcluded (g : Ground) (check : Check) (i : Nat) (member : Value) : List Schema → Run Bool
  | [] => return false
  | exclusion :: rest => do
    if ← check.passes exclusion member (g.position i) g.site.prefs then return true
    else g.isExcluded check i member rest

/-- A member taken by the ordered schema of its place. -/
def takeOrdered (g : Ground) (walk : Walk) (i : Nat) (outcome : Outcome) : Step :=
  if !outcome.isOk then
    g.fail walk outcome.reports fun walk => .next { walk with out := walk.out ++ [outcome.value] }
  else if outcome.strip then .next walk
  else if g.isHole outcome.value then
    g.fail walk [g.memberReport "array.sparse" i outcome.value []] .next
  else .next { walk with out := walk.out ++ [outcome.value] }

/-- A member taken by a required schema that was still to be matched. -/
def takeRequired (g : Ground) (walk : Walk) (i : Nat) (outcome : Outcome) : Step :=
  let push (walk : Walk) : Step := .next { walk with out := walk.out ++ [outcome.value] }
  if g.isHole outcome.value then
    g.fail walk [g.memberReport "array.sparse" i outcome.value []] push
  else push walk

/-- A member that matched an item schema. -/
def takeIncluded (g : Ground) (walk : Walk) (i : Nat) (outcome : Outcome) : Step :=
  if outcome.strip then .next walk
  else if g.isHole outcome.value then
    g.fail walk [g.memberReport "array.sparse" i outcome.value []] .next
  else .next { walk with out := walk.out ++ [outcome.value] }

/-- What trying the required schemas gave: the outcome and what is left to match, or all failures by
number. -/
inductive Tried
  | matched (outcome : Outcome) (left : List (Nat × Schema))
  | failed (outcomes : List (Nat × Outcome))

/-- Tries the required schemas in order. -/
def tryRequireds (g : Ground) (check : Check) (i : Nat) (member : Value)
    (before : List (Nat × Schema)) (failed : List (Nat × Outcome)) :
    List (Nat × Schema) → Run Tried
  | [] => return .failed failed
  | (number, schema) :: rest => do
    let outcome ← check schema member (g.position i) g.site.prefs
    if outcome.isOk then return .matched outcome (before ++ rest)
    else
      g.tryRequireds check i member (before ++ [(number, schema)]) (failed ++ [(number, outcome)])
        rest

/-- The outcome of an item schema. A required one that failed just before is not tried again. -/
def outcome (g : Ground) (check : Check) (i : Nat) (member : Value) (failed : List (Nat × Outcome))
    (number : Option Nat) (schema : Schema) : Run Outcome :=
  match number.bind fun n => failed.lookup n with
  | some outcome => return outcome
  | none => check schema member (g.position i) g.site.prefs

/-- Tries the item schemas in order. -/
def tryInclusions (g : Ground) (check : Check) (i : Nat) (member : Value)
    (failed : List (Nat × Outcome)) : List (Option Nat × Schema) → Run (Option Outcome × Outcome)
  | [] => return (none, default)
  | (number, schema) :: rest => do
    let outcome ← g.outcome check i member failed number schema
    if outcome.isOk then return (some outcome, outcome)
    else if rest.isEmpty then return (none, outcome)
    else g.tryInclusions check i member failed rest

/-- All item schemas that a member may match, required ones with their number. -/
def candidates (g : Ground) : List (Option Nat × Schema) :=
  g.form.inclusions.map (none, ·) ++
    g.form.numberedRequireds.map fun (number, schema) => (some number, schema)

/-- A member that no schema has a prior claim on. A single item schema reports for itself; several
report that none matched. -/
def includeMember (g : Ground) (check : Check) (walk : Walk) (i : Nat) (member : Value)
    (failed : List (Nat × Outcome)) : Run Step := do
  let keep (walk : Walk) : Step := .next { walk with out := walk.out ++ [member] }
  let candidates := g.candidates
  if candidates.isEmpty then return keep walk
  match ← g.tryInclusions check i member failed candidates with
  | (some outcome, _) => return g.takeIncluded walk i outcome
  | (none, last) =>
    if g.site.prefs.stripUnknown.arrays then return .next walk
    else if candidates.length = 1 then return g.fail walk last.reports keep
    else return g.fail walk [g.memberReport "array.includes" i member []] keep

/-- A member that no ordered schema takes. -/
def placeMember (g : Ground) (check : Check) (walk : Walk) (i : Nat) (member : Value) :
    Run Step := do
  match ← g.tryRequireds check i member [] [] walk.requireds with
  | .matched outcome left => return g.takeRequired { walk with requireds := left } i outcome
  | .failed failed => g.includeMember check walk i member failed

/-- One member, with those behind it. -/
def step (g : Ground) (check : Check) (walk : Walk) (i : Nat) (member : Value) (rest : List Value) :
    Run Step := do
  let skip (walk : Walk) : Step := .next { walk with ordereds := walk.ordereds.tail }
  if g.isHole member then
    return g.fail walk [g.memberReport "array.sparse" i member []] skip
  else if ← g.isExcluded check i member g.form.exclusions then
    return g.fail walk [g.memberReport "array.excludes" i member []] skip
  else if g.form.ordered.isEmpty then g.placeMember check walk i member
  else
    match walk.ordereds with
    | schema :: ordereds =>
      let outcome ← check schema member (g.position i) g.site.prefs
      return g.takeOrdered { walk with ordereds } i outcome
    | [] =>
      if g.form.items.isEmpty then
        let limit := Value.ofNat g.form.ordered.length
        return g.fail walk [g.memberReport "array.orderedLength" i member [("limit", limit)]]
          fun walk => .finish { walk with out := walk.out ++ member :: rest }
      else g.placeMember check walk i member

/-- Walks the members from place `i` on: the finished walk, or the reports that ended it. -/
def walk (g : Ground) (check : Check) (walk : Walk) (i : Nat) :
    List Value → Run (Except (List Report) Walk)
  | [] => return .ok walk
  | member :: rest => do
    match ← g.step check walk i member rest with
    | .next walk => g.walk check walk (i + 1) rest
    | .finish walk => return .ok walk
    | .abort reports => return .error reports

/-- The values of the ordered schemas behind the end, last one first. -/
def defaultsFromEnd (g : Ground) (check : Check) (size : Nat) (parent : Value) :
    List (Schema × Nat) → Run (List Value)
  | [] => return []
  | (schema, offset) :: before => do
    let position := g.site.position.nest (.index (size + offset)) parent
    let outcome ← check schema .undefined position g.site.prefs
    let values ← g.defaultsFromEnd check size parent before
    return outcome.value :: values

/-- The defaults of the ordered schemas that no member reached, without those missing at the end. -/
def defaults (g : Ground) (check : Check) (out : List Value) (ordereds : List Schema) :
    Run (List Value) := do
  let values ← g.defaultsFromEnd check out.length (.array out) ordereds.zipIdx.reverse
  return (values.dropWhile fun value => !value.isDefined).reverse

/-- The reports of a finished walk, with those on schemas that were not matched. -/
def reports (g : Ground) (walk : Walk) : List Report :=
  let missing := walk.ordereds.filter fun s => decide (s.node.flags.presence = some .required)
  walk.reports ++ missedReports g.site (.array walk.out) (walk.requireds.map (·.2)) ++
    missedReports g.site (.array walk.out) missing

/-- Reports schemas that were not matched, and otherwise adds the defaults of places not reached. -/
def close (g : Ground) (check : Check) (walk : Walk) : Run (List Value × List Report) := do
  let reports := g.reports walk
  if walk.ordereds.isEmpty || !reports.isEmpty then return (walk.out, reports)
  else return (walk.out ++ (← g.defaults check walk.out walk.ordereds), [])

end Ground

/-- Checks the members; gives the new ones and the reports. -/
def checkMembers (form : ArrayForm Schema) (check : Check) (site : Site) (members : List Value) :
    Run (List Value × List Report) := do
  let g : Ground := ⟨site, form, .array members⟩
  let start : Walk :=
    { requireds := form.numberedRequireds, ordereds := form.ordered }
  match ← g.walk check start 0 members with
  | .ok walk => g.close check walk
  | .error reports => return (members, reports)

/-- The members to check: another value counts as an array of one if the schema says so. -/
def members? (form : ArrayForm Schema) (value : Value) : Option (List Value) :=
  match value with
  | .array members => some members
  | value => if form.single then some [value] else none

/-- Arrays pass if their members do. -/
def base (form : ArrayForm Schema) (check : Check) (site : Site) (value : Value) : Run Outcome := do
  match form.members? value with
  | none => return .failure value (site.report "array.base" value)
  | some members =>
    if form.needsWalk then
      let (members, reports) ← form.checkMembers check site members
      return { value := .array members, reports }
    else return { value := .array members }

/-- The value compared for duplicates. -/
def compared (path : Option (List String)) (member : Value) : Value :=
  match path with
  | some path => member.reach path
  | none => member

/-- The first member that repeats an earlier one, with both places. -/
def duplicate? (path : Option (List String)) (ignoreUndefined : Bool) (seen : List (String × Nat))
    (i : Nat) : List Value → Option (Nat × Nat)
  | [] => none
  | member :: rest =>
    let value := compared path member
    if ignoreUndefined && !value.isDefined then duplicate? path ignoreUndefined seen (i + 1) rest
    else
      match seen.lookup value.setKey with
      | some first => some (first, i)
      | none => duplicate? path ignoreUndefined ((value.setKey, i) :: seen) (i + 1) rest

/-- The rule of distinct members. -/
def uniqueRule (site : Site) (given : Given) (value : Value) : Except Report Value :=
  match value with
  | .array members =>
    let comparator := given.text? "comparator"
    let path := comparator.map (Text.splitOn '.')
    match duplicate? path (given.isTrue "ignoreUndefined") [] 0 members with
    | none => .ok value
    | some (first, i) =>
      let context := [("pos", Value.ofNat i), ("dupePos", .ofNat first),
        ("dupeValue", members.getD first .undefined)]
      let context := context ++ (comparator.map fun path => ("path", Value.string path)).toList
      .error (reportAt site.schema (site.position.nest (.index i) value) "array.unique"
        (members.getD i .undefined) context)
  | _ => .ok value

/-- Whether some member from place `i` on matches. -/
def anyMatches (check : Check) (site : Site) (schema : Schema) (parent : Value) (i : Nat) :
    List Value → Run Bool
  | [] => return false
  | member :: rest => do
    if ← check.passes schema member (site.position.nest (.index i) parent) site.prefs then
      return true
    else anyMatches check site schema parent (i + 1) rest

/-- The rule that some member matches. -/
def hasRule (check : Check) (site : Site) (given : Given) (value : Value) :
    Run (Except Report Value) := do
  match value, given.schema? "schema" with
  | .array members, some schema =>
    if ← anyMatches check site schema value 0 members then return .ok value
    else
      match schema.node.flags.label with
      | some label =>
        return .error (site.report "array.hasKnown" value [("patternLabel", .string label)])
      | none => return .error (site.report "array.hasUnknown" value)
  | _, _ => return .ok value

/-- How many members a value has. -/
def size (value : Value) : Nat :=
  match value with
  | .array members => members.length
  | _ => 0

/-- The rules of arrays. -/
def rule (check : Check) (site : Site) (name : String) (given : Given) (value : Value) :
    Run (Except Report Value) :=
  let limit := given.count "limit"
  match name with
  | "min" => return site.requireSize "array.min" value limit (decide (limit ≤ size value))
  | "max" => return site.requireSize "array.max" value limit (decide (size value ≤ limit))
  | "length" => return site.requireSize "array.length" value limit (decide (size value = limit))
  | "unique" => return uniqueRule site given value
  | "has" => hasRule check site given value
  | _ => return .ok value

end Conform.ArrayForm
