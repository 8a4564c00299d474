/-!
# Sibling order

A key whose schema references a sibling is validated after that sibling, so that the reference sees
the sibling's final value. The graph records which keys run after which; sorting it releases a key
when all keys it runs after are done, and otherwise keeps the order of declaration. Where no order
exists, a chain of keys that leads back to its start is the reason.
-/

namespace Conform

/-- Keys in order of declaration, and for each the keys it runs after. -/
structure KeyGraph where
  keys : List String := []
  /-- Pairs of a key and a key it runs after, in the order in which they were recorded. -/
  edges : List (String × String) := []
  deriving Repr, Inhabited

namespace KeyGraph

/-- Declares a key; a declared key stays where it is. -/
def addKey (g : KeyGraph) (key : String) : KeyGraph :=
  if key ∈ g.keys then g else { g with keys := g.keys ++ [key] }

/-- Records that `key` runs after `peer`. Keys that are not declared and a key after itself are
ignored. -/
def addAfter (g : KeyGraph) (key peer : String) : KeyGraph :=
  if key ∈ g.keys ∧ peer ∈ g.keys ∧ key ≠ peer ∧ (key, peer) ∉ g.edges then
    { g with edges := g.edges ++ [(key, peer)] }
  else g

/-- The keys that `key` runs after, in the order in which they were recorded. -/
def peers (g : KeyGraph) (key : String) : List String :=
  g.edges.filterMap fun (k, peer) => if k = key then some peer else none

/-- Whether all keys that `key` runs after are done. -/
def isFree (g : KeyGraph) (done : List String) (key : String) : Bool :=
  (g.peers key).all (done.contains ·)

/-- The keys that run after `key` and that are free once it is done, in order of declaration. -/
def released (g : KeyGraph) (done : List String) (key : String) : List String :=
  g.keys.filter fun k => (g.peers k).contains key && g.isFree (key :: done) k

/-- Takes keys off the queue; the keys done come in reverse. -/
def drain (g : KeyGraph) : Nat → List String → List String → List String
  | 0, _, done => done
  | _, [], done => done
  | fuel + 1, key :: queue, done => g.drain fuel (queue ++ g.released done key) (key :: done)

/-- The keys in an order in which each can run, as far as that goes. -/
def order (g : KeyGraph) : List String :=
  (g.drain g.keys.length (g.keys.filter (g.isFree [])) []).reverse

/-- A search for a cycle: the keys visited so far, and the cycle once there is one. -/
structure Search where
  visited : List String
  cycle : Option (List String) := none

/-- Follows the keys that `key` runs after, on a path that led to it, nearest first. -/
def follow (g : KeyGraph) : Nat → List String → String → Search → Search
  | 0, _, _, search => search
  | fuel + 1, path, key, search =>
    let path := key :: path
    (g.peers key).foldl (fun search peer =>
      if search.cycle.isSome then search
      else if !search.visited.contains peer then g.follow fuel path peer search
      else if path.contains peer then
        { search with cycle := some (peer :: (path.takeWhile (· != peer)).reverse ++ [peer]) }
      else search)
      { search with visited := key :: search.visited }

/-- A chain of keys, each running after the next, that ends where it starts; empty if there is
none. -/
def findCycle (g : KeyGraph) : List String :=
  let search := g.keys.foldl (fun search key =>
    if search.cycle.isSome || search.visited.contains key then search
    else g.follow (g.keys.length + 1) [] key search) { visited := [] }
  search.cycle.getD []

/-- The keys in an order in which each runs after its peers, or a cycle. -/
def sort (g : KeyGraph) : Except (List String) (List String) :=
  let order := g.order
  if order.length = g.keys.length then .ok order else .error g.findCycle

end KeyGraph

end Conform
