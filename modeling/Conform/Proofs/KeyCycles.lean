import Mathlib.Data.List.Chain
import Conform.Proofs.KeyOrder

/-!
# Cycles among keys

Where a sort fails, a search in depth tells why: from a key it goes to the keys that it runs after,
and it remembers the path that led there. What carries the argument is one invariant of a search
without result (`Searching`): a key that was visited is on the path or finished, and a key is
finished after its peers.

A peer that is on the path closes a cycle (`isCycle_of_path`). A search that meets none
finishes every key, and the keys as they were finished are an order, so that the sort had
succeeded (`sort_of_order`).

The search is two nested recursions, over the keys of the graph and over the peers of a key, with
what was visited handed on. The invariant is kept by going on to a new key (`Searching.enter`) and
by leaving one whose peers are finished (`Searching.leave`). As long as there is no result the path
holds different declared keys, so it cannot be longer than the list of keys, and the fuel that the
search is given does for every path.

A search comes to one of two things, a cycle or the key is finished (`Settles`); both are handed on
from the peers to the key and from key to key. If no key finds a cycle all of them are finished,
each after its peers, and then sorting had not failed. So the reason that is given is never empty,
and it is a chain of keys that closes.

Main statement: `sort_error`.
-/

namespace Conform.KeyGraph

variable {g : KeyGraph}

/-- Keys run after declared keys only. -/
def Closed (g : KeyGraph) : Prop := ∀ key, ∀ peer ∈ g.peers key, peer ∈ g.keys

/-- A chain of keys, each running after the next, that ends where it starts. -/
def IsCycle (g : KeyGraph) (chain : List String) : Prop :=
  (∃ key between, chain = key :: between ++ [key]) ∧ chain.IsChain fun key peer =>
    peer ∈ g.peers key

/-! ### Steps of the search -/

/-- What the search does about one peer of the first key of the path. -/
def look (g : KeyGraph) (fuel : Nat) (path : List String) (search : Search)
    (peer : String) : Search :=
  if search.cycle.isSome then search
  else if !search.visited.contains peer then g.follow fuel path peer search
  else if path.contains peer then
    { search with cycle := some (peer :: (path.takeWhile (· != peer)).reverse ++ [peer]) }
  else search

theorem follow_succ (fuel : Nat) (path : List String) (key : String) (search : Search) :
    g.follow (fuel + 1) path key search =
      (g.peers key).foldl (g.look fuel (key :: path))
      { search with visited := key :: search.visited } := rfl

/-- What the search does about one key of the graph. -/
def start (g : KeyGraph) (search : Search) (key : String) : Search :=
  if search.cycle.isSome || search.visited.contains key then search
  else g.follow (g.keys.length + 1) [] key search

theorem findCycle_eq : g.findCycle = (g.keys.foldl g.start { visited := [] }).cycle.getD [] := rfl

/-- Once there is a cycle, the search is over. -/
theorem foldl_found {step : Search → String → Search}
    (hstep : ∀ search key, search.cycle.isSome = true → step search key = search)
    (keys : List String) {search : Search} {chain : List String} (h : search.cycle = some chain) :
    (keys.foldl step search).cycle = some chain := by
  have hsome : search.cycle.isSome = true := by rw [h]; rfl
  induction keys with
  | nil => exact h
  | cons key rest ih => rwa [List.foldl_cons, hstep search key hsome]

theorem look_found (fuel : Nat) (path : List String) (search : Search) (peer : String)
    (h : search.cycle.isSome = true) : g.look fuel path search peer = search := if_pos h

theorem start_found (search : Search) (key : String) (h : search.cycle.isSome = true) :
    g.start search key = search := by
  unfold start
  rw [h, Bool.true_or, if_pos rfl]

/-! ### The invariant -/

/-- The state of a search without result: the path to here, nearest key first, and, last one first,
the keys that are finished. -/
structure Searching (g : KeyGraph) (path finished : List String) (search : Search) : Prop where
  cycle : search.cycle = none
  /-- A key is on the path or finished at most once. -/
  nodup : (path ++ finished).Nodup
  declared : ∀ key ∈ path ++ finished, key ∈ g.keys
  visited : ∀ key, key ∈ search.visited ↔ key ∈ path ++ finished
  /-- The path leads from a key to one that it runs after. -/
  linked : path.IsChain fun key next => key ∈ g.peers next
  /-- A key is finished after its peers. -/
  after : ∀ later key earlier, finished = later ++ key :: earlier →
    ∀ peer ∈ g.peers key, peer ∈ earlier

namespace Searching

variable {path finished : List String} {search : Search} {key : String}

theorem begin (g : KeyGraph) : Searching g [] [] { visited := [] } where
  cycle := rfl
  nodup := List.nodup_nil
  declared := fun _ h => absurd h List.not_mem_nil
  visited := fun _ => Iff.rfl
  linked := .nil
  after := fun _ _ _ h => absurd h (by simp)

/-- Going on to a key that was not visited. -/
theorem enter (h : Searching g path finished search) (hkey : key ∈ g.keys)
    (hnew : key ∉ search.visited) (hlink : ∀ next ∈ path.head?, key ∈ g.peers next) :
    Searching g (key :: path) finished { search with visited := key :: search.visited } where
  cycle := h.cycle
  nodup := List.nodup_cons.mpr ⟨fun hin => hnew ((h.visited key).mpr hin), h.nodup⟩
  declared := by
    intro k hk
    rcases List.mem_cons.mp hk with rfl | hk
    · exact hkey
    · exact h.declared k hk
  visited := by
    intro k
    rw [List.mem_cons, h.visited, List.cons_append, List.mem_cons]
  linked := List.isChain_cons.mpr ⟨hlink, h.linked⟩
  after := h.after

/-- Leaving a key whose peers are finished. -/
theorem leave (h : Searching g (key :: path) finished search)
    (hpeers : ∀ peer ∈ g.peers key, peer ∈ finished) :
    Searching g path (key :: finished) search where
  cycle := h.cycle
  nodup := (List.perm_middle.nodup_iff).mpr h.nodup
  declared := fun k hk => h.declared k (List.perm_middle.mem_iff.mp hk)
  visited := fun k => (h.visited k).trans (List.perm_middle.mem_iff).symm
  linked := h.linked.tail
  after := by
    intro later k earlier heq peer hp
    cases later with
    | nil =>
      obtain ⟨rfl, rfl⟩ := List.cons.inj heq
      exact hpeers peer hp
    | cons first later => exact h.after later k earlier (List.cons.inj heq).2 peer hp

/-- The path holds declared keys, none twice, so it is no longer than the list of keys. -/
theorem length_le (h : Searching g path finished search) : path.length ≤ g.keys.length := by
  have hpath : path.Nodup := (List.nodup_append.mp h.nodup).1
  have hsub : path ⊆ g.keys := fun k hk => h.declared k (List.mem_append_left _ hk)
  exact (hpath.subperm hsub).length_le

end Searching

/-! ### Cycles found -/

theorem takeWhile_ne {peer : String} {keys : List String} (h : peer ∈ keys) :
    ∃ back, keys = keys.takeWhile (· != peer) ++ peer :: back := by
  induction keys with
  | nil => exact absurd h List.not_mem_nil
  | cons key rest ih =>
    by_cases hkey : key = peer
    · subst hkey
      exact ⟨rest, by simp⟩
    · obtain ⟨back, hback⟩ := ih ((List.mem_cons.mp h).resolve_left (Ne.symm hkey))
      refine ⟨back, ?_⟩
      rw [List.takeWhile_cons_of_pos (by simpa using hkey), List.cons_append, ← hback]

/-- A key that runs after one on the path to it closes a cycle: the path from there on, and back. -/
theorem isCycle_of_path {path : List String} {key peer : String}
    (hlinked : (key :: path).IsChain fun key next => key ∈ g.peers next)
    (hpeer : peer ∈ g.peers key) (hin : peer ∈ key :: path) :
    g.IsCycle (peer :: ((key :: path).takeWhile (· != peer)).reverse ++ [peer]) := by
  refine ⟨⟨_, _, rfl⟩, ?_⟩
  obtain ⟨back, hsplit⟩ := takeWhile_ne hin
  generalize (key :: path).takeWhile (· != peer) = front at hsplit ⊢
  -- the path, with the step that closes it in front
  have hclosed : ((peer :: front ++ [peer]) ++ back).IsChain fun key next =>
      key ∈ g.peers next := by
    rw [List.append_assoc, List.cons_append, List.singleton_append, ← hsplit]
    exact List.isChain_cons_cons.mpr ⟨hpeer, hlinked⟩
  have hturned : peer :: front.reverse ++ [peer] = (peer :: front ++ [peer]).reverse := by simp
  rw [hturned, List.isChain_reverse]
  exact hclosed.left_of_append

/-- The search has found a cycle. -/
def Found (g : KeyGraph) (search : Search) : Prop :=
    ∃ chain, search.cycle = some chain ∧ g.IsCycle chain

theorem Found.foldl {search : Search} (h : g.Found search) {step : Search → String → Search}
    (hstep : ∀ search key, search.cycle.isSome = true → step search key = search)
    (keys : List String) : g.Found (keys.foldl step search) := by
  obtain ⟨chain, hchain, hcycle⟩ := h
  exact ⟨chain, foldl_found hstep keys hchain, hcycle⟩

/-! ### The search -/

/-- What a search from `key` comes to: a cycle, or the key is finished. -/
def Settles (g : KeyGraph) (path finished : List String) (key : String) (search : Search) : Prop :=
  g.Found search ∨ ∃ more, Searching g path (more ++ finished) search ∧ key ∈ more ++ finished

/-- A walk over keys comes to something if each of its steps does. -/
theorem foldl_settles {step : Search → String → Search} {path : List String} {keys : List String}
    (hfound : ∀ search key, search.cycle.isSome = true → step search key = search)
    (hstep : ∀ finished search key, key ∈ keys → Searching g path finished search →
      Settles g path finished key (step search key))
    {finished : List String} {search : Search} (h : Searching g path finished search) :
    g.Found (keys.foldl step search) ∨
      ∃ more, Searching g path (more ++ finished) (keys.foldl step search) ∧
        ∀ key ∈ keys, key ∈ more ++ finished := by
  induction keys generalizing finished search with
  | nil => exact .inr ⟨[], h, fun _ hk => absurd hk List.not_mem_nil⟩
  | cons key rest ih =>
    rw [List.foldl_cons]
    rcases hstep finished search key (List.mem_cons_self ..) h with hcycle | ⟨more, hmore, hin⟩
    · exact .inl (hcycle.foldl hfound rest)
    · -- what is finished stays finished while the rest is walked
      rcases ih (fun finished search k hk =>
        hstep finished search k (List.mem_cons_of_mem _ hk)) hmore with
        hcycle | ⟨others, hothers, hall⟩
      · exact .inl hcycle
      · refine .inr ⟨others ++ more, ?_, fun k hk => ?_⟩
        · rw [List.append_assoc]
          exact hothers
        · rw [List.append_assoc]
          rcases List.mem_cons.mp hk with rfl | hk
          · exact List.mem_append_right _ hin
          · exact hall k hk

/-- One peer of the first key of the path, if searches from the peers come to something. -/
theorem look_settles {path finished : List String} {search : Search} {key : String}
    {fuel : Nat} {peer : String} (h : Searching g (key :: path) finished search)
    (hpeer : peer ∈ g.peers key)
    (hfollow : peer ∉ search.visited →
      Settles g (key :: path) finished peer (g.follow fuel (key :: path) peer search)) :
    Settles g (key :: path) finished peer (g.look fuel (key :: path) search peer) := by
  unfold look
  rw [h.cycle]
  by_cases hvisited : peer ∈ search.visited
  · have hcontains : search.visited.contains peer = true := List.contains_iff_mem.mpr hvisited
    rw [hcontains]
    by_cases hpath : peer ∈ key :: path
    · have hcycle := isCycle_of_path h.linked hpeer hpath
      rw [List.contains_iff_mem.mpr hpath]
      exact .inl ⟨_, rfl, hcycle⟩
    · have hfinished : peer ∈ finished :=
        (List.mem_append.mp ((h.visited peer).mp hvisited)).resolve_left hpath
      rw [Bool.eq_false_iff.mpr fun hin => hpath (List.contains_iff_mem.mp hin)]
      exact .inr ⟨[], h, hfinished⟩
  · have hcontains : search.visited.contains peer = false :=
      Bool.eq_false_iff.mpr fun hin => hvisited (List.contains_iff_mem.mp hin)
    rw [hcontains]
    exact hfollow hvisited

/-- Following a key that was not visited comes to a cycle or finishes the key. There is fuel for a
path through all keys. -/
theorem follow_settles (hclosed : g.Closed) (fuel : Nat)
    {path finished : List String} {search : Search}
    {key : String} (h : Searching g path finished search) (hkey : key ∈ g.keys)
    (hnew : key ∉ search.visited)
    (hlink : ∀ next ∈ path.head?, key ∈ g.peers next) (hfuel : g.keys.length < fuel + path.length) :
    Settles g path finished key (g.follow fuel path key search) := by
  induction fuel generalizing path finished search key with
  | zero =>
    have hlength := h.length_le
    omega
  | succ fuel ih =>
    have henter := h.enter hkey hnew hlink
    rw [follow_succ]
    have hlook (finished : List String) (search : Search) (peer : String)
        (hpeer : peer ∈ g.peers key) (hsearch : Searching g (key :: path) finished search) :
        Settles g (key :: path) finished peer (g.look fuel (key :: path) search peer) := by
      refine look_settles hsearch hpeer fun hnew => ?_
      refine ih hsearch (hclosed key peer hpeer) hnew (fun next hnext => ?_) ?_
      · obtain rfl : key = next := Option.some.inj hnext
        exact hpeer
      · rw [List.length_cons]
        omega
    rcases foldl_settles (look_found fuel (key :: path)) hlook henter with
        hfound | ⟨more, hmore, hall⟩
    · exact .inl hfound
    · exact .inr ⟨key :: more, hmore.leave hall, List.mem_cons_self ..⟩

/-- A search from a declared key finds a cycle or finishes the key. -/
theorem start_settles (hclosed : g.Closed) {finished : List String} {search : Search} {key : String}
    (hkey : key ∈ g.keys) (h : Searching g [] finished search) :
    Settles g [] finished key (g.start search key) := by
  unfold start
  rw [h.cycle, Option.isSome_none, Bool.false_or]
  split
  next hvisited =>
    have hfinished : key ∈ finished := (h.visited key).mp (List.contains_iff_mem.mp hvisited)
    exact .inr ⟨[], h, hfinished⟩
  next hnew =>
    refine follow_settles hclosed _ h hkey (fun hin => hnew (List.contains_iff_mem.mpr hin))
      (fun _ hnone => nomatch hnone) ?_
    rw [List.length_nil]
    omega

/-! ### Sorts that fail -/

/-- Keys as a search finishes them are an order, so there is nothing that keeps
them from being sorted. -/
theorem Searching.sorted {finished : List String} {search : Search}
    (h : Searching g [] finished search)
    (hkeys : g.keys.Nodup) (hall : ∀ key ∈ g.keys, key ∈ finished) : g.sort = .ok g.order := by
  have hnodup : finished.Nodup := h.nodup
  have hperm : finished.reverse.Perm g.keys :=
    (List.reverse_perm finished).trans
      ((List.perm_ext_iff_of_nodup hnodup hkeys).mpr fun k => ⟨h.declared k, hall k⟩)
  refine sort_of_order hkeys hperm fun key hkey peer hpeer => ?_
  obtain ⟨later, earlier, rfl⟩ := List.append_of_mem (hall key hkey)
  exact sublist_reverse (h.after later key earlier rfl peer hpeer)

/-- The reason that a sort gives for failing is a cycle. -/
theorem sort_error (hclosed : g.Closed) (hkeys : g.keys.Nodup) {chain : List String}
    (h : g.sort = .error chain) : g.IsCycle chain := by
  rcases foldl_settles start_found (fun _ _ _ => start_settles hclosed) (Searching.begin g) with
    ⟨found, hfound, hcycle⟩ | ⟨more, hmore, hall⟩
  · have hchain : g.findCycle = chain := by
      unfold sort at h
      dsimp only at h
      split at h
      next => exact absurd h (by simp)
      next => exact Except.error.inj h
    rw [← hchain, findCycle_eq, hfound]
    exact hcycle
  · rw [List.append_nil] at hmore hall
    rw [hmore.sorted hkeys hall] at h
    exact absurd h (by simp)

end Conform.KeyGraph
