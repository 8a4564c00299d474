import Conform.Check.Basic
import Conform.Json.Reader
import Conform.Schema.Children

/-!
# Objects

An object is checked in phases over a working copy of its members: renames, declared children in
their order, patterns and undeclared keys, and last the dependencies between keys. A child sees the
working copy as its parent, so a reference to a sibling reads what that sibling's check produced.
-/

namespace Conform

/-- The working copy of an object and what has been found so far. -/
structure ObjectPass where
  members : List (String × Value)
  reports : List Report := []
  /-- Children to be dropped once all of them are checked. -/
  stripped : List String := []
  /-- Whether the first failure has ended the check. -/
  stopped : Bool := false

namespace ObjectPass

/-- The working copy as children see it. -/
def value (p : ObjectPass) : Value := .object p.members

/-- What the working copy has under a key. -/
def member (p : ObjectPass) (key : String) : Value := (Members.get? p.members key).getD .undefined

def write (p : ObjectPass) (key : String) (value : Value) : ObjectPass :=
  { p with members := Members.insert p.members key value }

def erase (p : ObjectPass) (key : String) : ObjectPass :=
  { p with members := Members.erase p.members key }

def eraseAll (p : ObjectPass) (keys : List String) : ObjectPass := keys.foldl erase p

/-- Adds reports; any of them ends the check if the first failure settles it. -/
def fail (p : ObjectPass) (site : Site) (reports : List Report) : ObjectPass :=
  if reports.isEmpty then p
  else { p with reports := p.reports ++ reports, stopped := site.prefs.abortEarly }

/-- Takes a step for each item in turn until one of them ends the check. -/
def forEach {α : Type} {m : Type → Type} [Monad m] (step : ObjectPass → α → m ObjectPass)
    (p : ObjectPass) : List α → m ObjectPass
  | [] => return p
  | item :: rest => do
    if p.stopped then return p
    else forEach step (← step p item) rest

/-- Adds reports one by one, so that only the first counts if it settles the check. -/
def failEach (p : ObjectPass) (site : Site) (reports : List Report) : ObjectPass :=
  Id.run <| p.forEach (fun p report => p.fail site [report]) reports

end ObjectPass

namespace ObjectForm

/-- Whether members need not be looked at. -/
def isPlain (form : ObjectForm Schema) : Bool :=
  form.keys.isNone && form.renames.isEmpty && form.dependencies.isEmpty && form.patterns.isEmpty

/-- Reads a text that holds a JSON object. -/
def coerce (value : Value) : Value :=
  match value with
  | .string text =>
    match (text.toList.dropWhile Text.isBlank).head?, Json.parse? text with
    | some '\x7b', some (.object members) => Value.ofJson (.object members)
    | _, _ => value
  | value => value

/-! ### Renames -/

/-- Why a rename cannot be made: another one has taken its target, or the input has a member
there. -/
def renameConflict? (rename : Rename) (taken : List String) (p : ObjectPass) : Option String :=
  let isTaken := taken.contains rename.target
  if !rename.options.multiple && isTaken then some "object.rename.multiple"
  else if Members.contains p.members rename.target && !rename.options.override && !isTaken then
    some "object.rename.override"
  else none

/-- Moves a member to its new name. A member without a value clears its target. -/
def move (rename : Rename) (value : Value) (p : ObjectPass) : ObjectPass :=
  let p := if value.isDefined then p.write rename.target value else p.erase rename.target
  if !rename.options.keepSource && rename.source != rename.target then p.erase rename.source else p

/-- Makes the renames in order; `taken` are the targets of those already made. -/
def applyRenames (site : Site) (taken : List String) (p : ObjectPass) : List Rename → ObjectPass
  | [] => p
  | rename :: rest =>
    if p.stopped then p
    else
      match Members.get? p.members rename.source with
      | none => applyRenames site taken p rest
      | some value =>
        if rename.options.ignoreUndefined && !value.isDefined then applyRenames site taken p rest
        else
          match renameConflict? rename taken p with
          | some code =>
            let context := [("from", Value.string rename.source), ("to", .string rename.target)]
            applyRenames site taken (p.fail site [site.report code p.value context]) rest
          | none => applyRenames site (rename.target :: taken) (move rename value p) rest

/-! ### Declared children -/

/-- What a child that passes does to the working copy. A child to be stripped stays visible to its
siblings until all are checked. -/
def keepChild (p : ObjectPass) (key : String) (outcome : Outcome) : ObjectPass :=
  if outcome.strip then
    let p := { p with stripped := p.stripped ++ [key] }
    if Members.contains p.members key || outcome.value.isDefined then p.write key outcome.value
    else p
  else if outcome.value.isDefined then p.write key outcome.value
  else if (p.member key).isDefined then p.erase key
  else p

/-- What the outcome of a child does to the working copy. -/
def takeChild (site : Site) (p : ObjectPass) (key : String) (outcome : Outcome) : ObjectPass :=
  if !outcome.isOk then p.fail site outcome.reports else keepChild p key outcome

/-- Checks one child. -/
def checkChild (check : Check) (site : Site) (p : ObjectPass) (child : String × Schema) :
    Run ObjectPass := do
  let (key, schema) := child
  let position := site.position.nest (.key key) p.value
  return takeChild site p key (← check schema (p.member key) position site.prefs)

/-- Checks the children in their order, and drops those to be stripped if all could be checked. -/
def checkChildren (form : ObjectForm Schema) (check : Check) (site : Site) (p : ObjectPass) :
    Run ObjectPass := do
  let p ← p.forEach (checkChild check site) form.orderedChildren
  return if p.stopped then p else p.eraseAll p.stripped

/-! ### Patterns and undeclared keys -/

/-- Whether a pattern is about a key. -/
def isAbout (check : Check) (site : Site) (position : Position) (key : String) :
    KeyMatcher Schema → Run Bool
  | .pattern pattern => return pattern.isMatch key
  | .schema schema => check.passes schema (.string key) position site.prefs

/-- What an undeclared key that passes does to the working copy. -/
def keepMatched (p : ObjectPass) (key : String) (outcome : Outcome) : ObjectPass :=
  if outcome.strip || !outcome.value.isDefined then p.erase key else p.write key outcome.value

/-- What the outcome of an undeclared key does to the working copy. -/
def takeMatched (site : Site) (p : ObjectPass) (key : String) (outcome : Outcome) : ObjectPass :=
  if !outcome.isOk then p.fail site outcome.reports else keepMatched p key outcome

/-- Checks an undeclared key by the first pattern that is about it; none if there is no such
pattern. -/
def checkPatterns (check : Check) (site : Site) (p : ObjectPass) (key : String) :
    List (KeyPattern Schema) → Run (Option ObjectPass)
  | [] => return none
  | pattern :: rest => do
    let position := site.position.nest (.key key) p.value
    if ← isAbout check site position key pattern.matcher then
      let outcome ← check pattern.schema (p.member key) position site.prefs
      return some (takeMatched site p key outcome)
    else checkPatterns check site p key rest

/-- Holds undeclared keys against the patterns; gives back those that no pattern is about. -/
def checkUndeclared (form : ObjectForm Schema) (check : Check) (site : Site) (p : ObjectPass)
    (left : List String) : List String → Run (ObjectPass × List String)
  | [] => return (p, left)
  | key :: rest => do
    if p.stopped then return (p, left)
    else
      match ← checkPatterns check site p key form.patterns with
      | some p => form.checkUndeclared check site p left rest
      | none => form.checkUndeclared check site p (left ++ [key]) rest

/-- A report about an undeclared key, at the key's own path. -/
def unknownReport (site : Site) (p : ObjectPass) (key : String) : Report :=
  let position := site.position.localize (site.position.path ++ [.key key])
  reportAt site.schema position "object.allowUnknown" (p.member key)
    [("child", .string key), ("label", .string position.label)]

/-- Deals with keys that nothing is about: they are stripped, allowed, or reported. -/
def settleUnknown (form : ObjectForm Schema) (site : Site) (p : ObjectPass) (keys : List String) :
    ObjectPass :=
  if keys.isEmpty || (form.keys.isNone && form.patterns.isEmpty) then p
  else if site.prefs.stripUnknown.objects && form.unknown != some true then p.eraseAll keys
  else if form.unknown.getD site.prefs.allowUnknown then p
  else p.failEach site (keys.map (unknownReport site p))

/-- The phase of patterns and undeclared keys. -/
def checkUnknown (form : ObjectForm Schema) (check : Check) (site : Site) (p : ObjectPass)
    (keys : List String) : Run ObjectPass := do
  let (p, keys) ← form.checkUndeclared check site p [] keys
  return if p.stopped then p else form.settleUnknown site p keys

/-! ### Dependencies -/

/-- Whether the value has something at a dotted path. -/
def isPresent (value : Value) (path : String) : Bool :=
  (value.reach (Text.splitOn '.' path)).isDefined

def pathList (paths : List String) : Value := .array (paths.map Value.string)

/-- The reports on one dependency. -/
def dependencyReports (site : Site) (value : Value) (d : Dependency) : List Report :=
  let present := d.peers.filter (isPresent value)
  let missing := d.peers.filter fun peer => !isPresent value peer
  let report (code : String) (context : List (String × Value)) : Report :=
    site.report code value context
  let each (code : String) (offending : List String) : List Report :=
    match d.key with
    | some main =>
      if isPresent value main then
        offending.map fun peer => report code [("main", .string main), ("peer", .string peer)]
      else []
    | none => []
  let orMissing (reports : List Report) : List Report :=
    if present.isEmpty then [report "object.missing" [("peers", pathList d.peers)]] else reports
  let atMostOne (code : String) : List Report :=
    if 1 < present.length then [report code [("peers", pathList present)]] else []
  match d.relation with
  | .with => each "object.with" missing
  | .without => each "object.without" present
  | .xor => orMissing (atMostOne "object.xor")
  | .oxor => atMostOne "object.oxor"
  | .or => orMissing []
  | .and =>
    if !present.isEmpty && !missing.isEmpty then
      [report "object.and" [("present", pathList present), ("missing", pathList missing)]]
    else []
  | .nand =>
    match d.peers with
    | main :: others =>
      if missing.isEmpty then
        [report "object.nand" [("main", .string main), ("peers", pathList others)]]
      else []
    | [] => []

/-- The phase of dependencies. -/
def checkDependencies (form : ObjectForm Schema) (site : Site) (p : ObjectPass) : ObjectPass :=
  Id.run <| p.forEach
    (fun p dependency => p.failEach site (dependencyReports site p.value dependency))
    form.dependencies

/-! ### The whole -/

/-- All phases over the members of an object. -/
def checkMembers (form : ObjectForm Schema) (check : Check) (site : Site)
    (members : List (String × Value)) : Run ObjectPass := do
  let p := applyRenames site [] { members } form.renames
  if p.stopped then return p
  let declared := form.orderedChildren.map (·.1)
  let undeclared := (Members.keys p.members).filter fun key => !declared.contains key
  let p ← form.checkChildren check site p
  if p.stopped then return p
  let p ← form.checkUnknown check site p undeclared
  if p.stopped then return p
  return form.checkDependencies site p

/-- Only objects pass, if their members do. -/
def base (form : ObjectForm Schema) (check : Check) (site : Site) (value : Value) :
    Run Outcome := do
  match value with
  | .object members =>
    if form.isPlain then return { value }
    else
      let p ← form.checkMembers check site members
      return { value := p.value, reports := p.reports }
  | value => return .failure value (site.report "object.base" value)

/-! ### Rules -/

/-- How many members have a value. -/
def size (value : Value) : Nat :=
  match value with
  | .object members => (members.filter fun member => member.2.isDefined).length
  | _ => 0

/-- The rule about a value elsewhere: in the context, or inside the object. -/
def assertRule (check : Check) (site : Site) (given : Given) (value : Value) :
    Run (Except Report Value) := do
  match given.subject? "subject", given.schema? "schema" with
  | some subject, some schema =>
    let (found, path) :=
      if subject.isContext then (subject.resolve value site.scope, [])
      else (value.reach subject.path, subject.path.map Segment.key)
    let position := (site.position.nest (.key "") value).localize (site.position.path ++ path)
    if ← check.passes schema found position { site.prefs with allowUnknown := true } then
      return .ok value
    else
      let message := (given.text? "message").getD "pass the assertion test"
      return .error (reportAt site.schema position "object.assert" found
        [("ref", .string (".".intercalate subject.path)), ("message", .string message)])
  | _, _ => return .ok value

/-- The rules of objects. -/
def rule (check : Check) (site : Site) (name : String) (given : Given) (value : Value) :
    Run (Except Report Value) :=
  let limit := given.count "limit"
  match name with
  | "min" => return site.requireSize "object.min" value limit (decide (limit ≤ size value))
  | "max" => return site.requireSize "object.max" value limit (decide (size value ≤ limit))
  | "length" => return site.requireSize "object.length" value limit (decide (size value = limit))
  | "assert" => assertRule check site given value
  | _ => return .ok value

end ObjectForm

end Conform
