import Mathlib.Data.List.Chain
import Mathlib.Logic.Relation
import Conform.Proofs.ChildOrder
import Conform.Proofs.KeyCycles

/-!
# What sorting keys comes to

A graph is told keys and, of the keys told so far, which runs after which; all else that it is told
is ignored (`KeyGraph.keys_ofEntries`, `KeyGraph.mem_peers_ofEntries`). Sorting it succeeds exactly
when no key runs after itself, in however many steps. The order that it gives depends on the keys
and on the relation alone, and where there is none the reason is a cycle of the relation.

What is entered is a list, and a graph is the fold of it. Two things are said of a list of entries
without a graph: which keys it declares, each at its first place, and which key runs after which
according to it (`declared`, `RunsAfter`). An entry that names a key which is not declared yet, or
that lets a key run after itself, is ignored. Going through the list from its end gives both what
the graph lists and what it has recorded.

Sorting takes the keys that run after nothing, in their order, and then each key that is released
by those. So the result has the keys without peers in front (`order_front`) and every other key
behind its peers. If keys are left, each of them waits for one that is left, and following these
until one comes back gives a chain that closes, which is what is reported. That the result depends
on the relation only, and not on the order in which it was entered, is because the queue is filled
in the order of the keys.

Main statement: `KeyGraph.sort_sorts`.
-/

namespace Conform.KeyGraph

/-! ### What is entered into a graph -/

/-- What is entered into a graph: a key, or that a key runs after a peer. -/
inductive Entry
  | declare (key : String)
  | after (key peer : String)

def Entry.key? : Entry → Option String
  | .declare key => some key
  | .after _ _ => none

def enter (g : KeyGraph) : Entry → KeyGraph
  | .declare key => g.addKey key
  | .after key peer => g.addAfter key peer

def ofEntries (entries : List Entry) : KeyGraph := entries.foldl enter {}

/-- The keys that are entered, in the order in which each is entered first. -/
def declared (entries : List Entry) : List String := (entries.filterMap Entry.key?).eraseDups

/-- It is entered that `key` runs after `peer`, another key, when both are declared. -/
def RunsAfter (entries : List Entry) (key peer : String) : Prop :=
  key ≠ peer ∧ ∃ front, front ++ [.after key peer] <+: entries ∧ key ∈ declared front ∧
    peer ∈ declared front

section

variable {entries : List Entry} {key peer : String}

theorem ofEntries_concat (entries : List Entry) (entry : Entry) :
    ofEntries (entries ++ [entry]) = (ofEntries entries).enter entry := by
  rw [ofEntries, List.foldl_append]
  rfl

theorem mem_declared : key ∈ declared entries ↔ .declare key ∈ entries := by
  unfold declared
  rw [List.mem_eraseDups, List.mem_filterMap]
  constructor
  · rintro ⟨entry, hentry, hkey⟩
    cases entry with
    | declare k => exact Option.some.inj hkey ▸ hentry
    | after => exact nomatch hkey
  · exact fun h => ⟨_, h, rfl⟩

theorem eraseDups_concat (keys : List String) (key : String) :
    (keys ++ [key]).eraseDups = if key ∈ keys then keys.eraseDups else keys.eraseDups ++ [key] := by
  rw [List.eraseDups_append]
  by_cases hin : key ∈ keys
  · rw [if_pos hin]
    simp [List.removeAll, hin]
  · rw [if_neg hin]
    simp [List.removeAll, hin, List.eraseDups_cons]

theorem declared_declare (entries : List Entry) (key : String) :
    declared (entries ++ [.declare key]) =
      if key ∈ declared entries then declared entries else declared entries ++ [key] := by
  have hsplit : (entries ++ [Entry.declare key]).filterMap Entry.key? =
      entries.filterMap Entry.key? ++ [key] :=
    List.filterMap_append
  unfold declared
  simp only [hsplit, eraseDups_concat, List.mem_eraseDups]

theorem declared_after (entries : List Entry) (key peer : String) :
    declared (entries ++ [.after key peer]) = declared entries := by
  have hsplit : (entries ++ [Entry.after key peer]).filterMap Entry.key? =
      entries.filterMap Entry.key? ++ [] :=
    List.filterMap_append
  unfold declared
  rw [hsplit, List.append_nil]

/-- The keys of the graph are those entered. -/
theorem keys_ofEntries (entries : List Entry) : (ofEntries entries).keys = declared entries := by
  induction entries using List.reverseRecOn with
  | nil => rfl
  | append_singleton entries entry ih =>
    rw [ofEntries_concat]
    cases entry with
    | declare key =>
      show ((ofEntries entries).addKey key).keys = _
      rw [declared_declare, addKey, ih]
      split
      · exact ih
      · rfl
    | after key peer =>
      exact (keys_addAfter _ key peer).trans (ih.trans (declared_after entries key peer).symm)

theorem nodup_declared (entries : List Entry) : (declared entries).Nodup := by
  induction entries using List.reverseRecOn with
  | nil => exact List.nodup_nil
  | append_singleton entries entry ih =>
    cases entry with
    | after key peer => rwa [declared_after]
    | declare key =>
      rw [declared_declare]
      split
      next => exact ih
      next hnew =>
        rw [← List.concat_eq_append]
        exact ih.concat hnew

/-- The last entry is heeded if it is of two declared keys. -/
theorem runsAfter_concat {entry : Entry} :
    RunsAfter (entries ++ [entry]) key peer ↔
      RunsAfter entries key peer ∨
        entry = .after key peer ∧ key ≠ peer ∧ key ∈ declared entries ∧
        peer ∈ declared entries := by
  unfold RunsAfter
  constructor
  · rintro ⟨hne, front, hfront, hkey, hpeer⟩
    rcases List.prefix_concat_iff.mp hfront with heq | hbefore
    · obtain ⟨rfl, hentry⟩ := List.append_inj' heq rfl
      exact .inr ⟨(List.singleton_inj.mp hentry).symm, hne, hkey, hpeer⟩
    · exact .inl ⟨hne, front, hbefore, hkey, hpeer⟩
  · rintro (⟨hne, front, hfront, hkey, hpeer⟩ | ⟨rfl, hne, hkey, hpeer⟩)
    · exact ⟨hne, front, hfront.trans (List.prefix_append ..), hkey, hpeer⟩
    · exact ⟨hne, entries, List.prefix_rfl, hkey, hpeer⟩

/-- The graph has recorded the relation that was entered. -/
theorem mem_peers_ofEntries :
    peer ∈ (ofEntries entries).peers key ↔ RunsAfter entries key peer := by
  -- entries are recorded in turn, so the last one is taken off
  induction entries using List.reverseRecOn with
  | nil =>
    refine ⟨fun h => absurd h List.not_mem_nil, fun ⟨_, front, hfront, _⟩ => ?_⟩
    exact absurd (List.prefix_nil.mp hfront) (by simp)
  | append_singleton entries entry ih =>
    rw [ofEntries_concat, runsAfter_concat, ← ih, mem_peers, mem_peers]
    cases entry with
    | declare k =>
      have hedges : ((ofEntries entries).enter (.declare k)).edges = (ofEntries entries).edges := by
        show ((ofEntries entries).addKey k).edges = _
        unfold addKey
        split <;> rfl
      rw [hedges]
      exact ⟨.inl, fun h => h.resolve_right fun hother => nomatch hother.1⟩
    | after k p =>
      refine mem_edges_addAfter.trans (or_congr_right ?_)
      rw [keys_ofEntries]
      constructor
      · rintro ⟨rfl, rfl, hkey, hpeer, hne⟩
        exact ⟨rfl, hne, hkey, hpeer⟩
      · rintro ⟨heq, hne, hkey, hpeer⟩
        obtain ⟨rfl, rfl⟩ := Entry.after.inj heq
        exact ⟨rfl, rfl, hkey, hpeer, hne⟩

theorem RunsAfter.declared (h : RunsAfter entries key peer) :
    key ∈ KeyGraph.declared entries ∧ peer ∈ KeyGraph.declared entries := by
  obtain ⟨-, front, hfront, hkey, hpeer⟩ := h
  have hsub : ∀ k, k ∈ KeyGraph.declared front → k ∈ KeyGraph.declared entries := fun k hk =>
    mem_declared.mpr (hfront.subset (List.mem_append_left _ (mem_declared.mp hk)))
  exact ⟨hsub key hkey, hsub peer hpeer⟩

theorem closed_ofEntries (entries : List Entry) : (ofEntries entries).Closed := by
  intro key peer hpeer
  rw [keys_ofEntries]
  exact (mem_peers_ofEntries.mp hpeer).declared.2

theorem nodup_keys_ofEntries (entries : List Entry) : (ofEntries entries).keys.Nodup :=
  keys_ofEntries entries ▸ nodup_declared entries

end

/-! ### Orders and cycles -/

/-- Nothing leads back to itself. -/
def Acyclic (r : String → String → Prop) : Prop := ∀ key, ¬ Relation.TransGen r key key

theorem idxOf_lt {order : List String} (hnodup : order.Nodup) {peer key : String}
    (h : [peer, key].Sublist order) : order.idxOf peer < order.idxOf key := by
  have hkey : key ∈ order := h.subset (List.mem_cons_of_mem _ (List.mem_cons_self ..))
  obtain ⟨front, back, rfl⟩ := List.append_of_mem hkey
  have hpeer : peer ∈ front := mem_front hnodup h
  have hnew : key ∉ front :=
    fun hin => (List.nodup_append.mp hnodup).2.2 key hin key (List.mem_cons_self ..) rfl
  rw [List.idxOf_append_of_mem hpeer, List.idxOf_append_of_notMem hnew]
  have hlt := List.idxOf_lt_length_iff.mpr hpeer
  omega

/-- Where each key is listed after the keys it runs after, none runs after itself. -/
theorem acyclic_of_order {r : String → String → Prop} {order : List String} (hnodup : order.Nodup)
    (h : ∀ key peer, r key peer → [peer, key].Sublist order) : Acyclic r := by
  intro key hcycle
  have hlt : ∀ k, Relation.TransGen r key k → order.idxOf k < order.idxOf key := by
    intro k hk
    induction hk with
    | single hstep => exact idxOf_lt hnodup (h _ _ hstep)
    | tail _ hstep ih => exact (idxOf_lt hnodup (h _ _ hstep)).trans ih
  exact Nat.lt_irrefl _ (hlt key hcycle)

theorem not_acyclic_of_chain {r : String → String → Prop} {key : String} {between : List String}
    (h : (key :: between ++ [key]).IsChain r) : ¬ Acyclic r := by
  intro hacyclic
  cases between with
  | nil => exact hacyclic key (.single (List.isChain_pair.mp h))
  | cons next rest =>
    obtain ⟨hstep, hrest⟩ := List.isChain_cons_cons.mp h
    have hback : Relation.ReflTransGen r next key :=
      List.relationReflTransGen_of_exists_isChain_cons (rest ++ [key]) hrest (by simp)
    exact hacyclic key (.head' hstep hback)

/-! ### Keys that run first -/

variable {g : KeyGraph}

theorem drain_extends (fuel : Nat) (queue done : List String) :
    ∃ more, g.drain fuel queue done = more ++ done := by
  induction fuel generalizing queue done with
  | zero => exact ⟨[], rfl⟩
  | succ fuel ih =>
    cases queue with
    | nil => exact ⟨[], rfl⟩
    | cons key queue =>
      obtain ⟨more, hmore⟩ := ih (queue ++ g.released done key) (key :: done)
      exact ⟨more ++ [key], by rw [drain, hmore, List.append_assoc]; rfl⟩

/-- What stands on the queue is done in its order, before all that is released later. -/
theorem drain_front {front : List String} {fuel : Nat} (hfuel : front.length ≤ fuel)
    (rest done : List String) :
    ∃ more, g.drain fuel (front ++ rest) done = more ++ (front.reverse ++ done) := by
  induction front generalizing fuel rest done with
  | nil => exact drain_extends fuel rest done
  | cons key front ih =>
    obtain ⟨fuel, rfl⟩ := Nat.exists_eq_add_of_le' (Nat.lt_of_lt_of_le (Nat.zero_lt_succ _) hfuel)
    obtain ⟨more, hmore⟩ :=
      ih (Nat.le_of_succ_le_succ hfuel) (rest ++ g.released done key) (key :: done)
    refine ⟨more, ?_⟩
    rw [List.cons_append, drain, List.append_assoc, hmore, List.reverse_cons, List.append_assoc]
    rfl

/-- The keys that run after nothing come first, as they were declared. -/
theorem order_front (g : KeyGraph) : ∃ rest, g.order = g.keys.filter (g.isFree []) ++ rest := by
  have hfuel : (g.keys.filter (g.isFree [])).length ≤ g.keys.length := List.length_filter_le ..
  obtain ⟨more, hmore⟩ := drain_front (g := g) hfuel [] []
  refine ⟨more.reverse, ?_⟩
  rw [List.append_nil, List.append_nil] at hmore
  rw [order, hmore, List.reverse_append, List.reverse_reverse]

/-! ### Sorting -/

/-- What an order of keys is to be. -/
structure Sorts (entries : List Entry) (order : List String) : Prop where
  /-- Every declared key is listed once. -/
  perm : order.Perm (declared entries)
  /-- A key is listed after its peers. -/
  after : ∀ key peer, RunsAfter entries key peer → [peer, key].Sublist order
  /-- The keys without peers come first, as they were declared. -/
  first : ∃ free rest, order = free ++ rest ∧ free.Sublist (declared entries) ∧
    ∀ key, key ∈ free ↔ key ∈ declared entries ∧ ∀ peer, ¬ RunsAfter entries key peer

theorem sorts_of_sort {entries : List Entry} {order : List String}
    (h : (ofEntries entries).sort = .ok order) : Sorts entries order := by
  obtain ⟨hperm, hafter⟩ := sort_ok (nodup_keys_ofEntries entries) h
  obtain ⟨-, horder⟩ := sort_eq_ok h
  obtain ⟨rest, hfront⟩ := order_front (ofEntries entries)
  rw [keys_ofEntries] at hperm hafter hfront
  refine ⟨hperm, fun key peer hruns => hafter key hruns.declared.1 peer
    (mem_peers_ofEntries.mpr hruns), ?_⟩
  refine ⟨_, rest, horder.symm.trans hfront, List.filter_sublist, fun key => ?_⟩
  rw [List.mem_filter, isFree_iff]
  refine and_congr_right fun _ => ?_
  constructor
  · exact fun hnone peer hruns =>
      absurd (hnone peer (mem_peers_ofEntries.mpr hruns)) List.not_mem_nil
  · exact fun hnone peer hpeer => absurd (mem_peers_ofEntries.mp hpeer) (hnone peer)

/-- Sorting gives an order exactly when nothing runs after itself. The order has every key once,
after its peers and, if it has none, in front, and it is the same for all entries of these keys and
this relation. Where there is no order, the reason is a chain of keys, each running after the next,
that ends where it starts. -/
theorem sort_sorts (entries : List Entry) :
    ((∃ order, (ofEntries entries).sort = .ok order) ↔ Acyclic (RunsAfter entries)) ∧
    (∀ order, (ofEntries entries).sort = .ok order →
      Sorts entries order ∧
      ∀ others, declared others = declared entries →
        (∀ key peer, RunsAfter others key peer ↔ RunsAfter entries key peer) →
        (ofEntries others).sort = .ok order) ∧
    ∀ chain, (ofEntries entries).sort = .error chain →
      (∃ key between, chain = key :: between ++ [key]) ∧ chain.IsChain (RunsAfter entries) := by
  have hpeers : (fun key peer => peer ∈ (ofEntries entries).peers key) = RunsAfter entries := by
    funext key peer
    exact propext mem_peers_ofEntries
  have herror (chain : List String) (h : (ofEntries entries).sort = .error chain) :
      (∃ key between, chain = key :: between ++ [key]) ∧ chain.IsChain (RunsAfter entries) := by
    have hcycle := sort_error (closed_ofEntries entries) (nodup_keys_ofEntries entries) h
    exact ⟨hcycle.1, hpeers ▸ hcycle.2⟩
  refine ⟨⟨?_, fun hacyclic => ?_⟩,
    fun order h => ⟨sorts_of_sort h, fun others hkeys hrelation => ?_⟩, herror⟩
  · rintro ⟨order, h⟩
    have hsorts := sorts_of_sort h
    exact acyclic_of_order (hsorts.perm.nodup_iff.mpr (nodup_declared entries)) hsorts.after
  · -- a chain that ends where it starts is what the relation has none of
    cases h : (ofEntries entries).sort with
    | ok order => exact ⟨order, rfl⟩
    | error chain =>
      obtain ⟨⟨key, between, rfl⟩, hchain⟩ := herror chain h
      exact absurd hacyclic (not_acyclic_of_chain hchain)
  · -- sorting sees the keys and the edges, and both are those of the other entries
    refine sort_congr ?_ (fun key peer => ?_) h
    · rw [keys_ofEntries, keys_ofEntries, hkeys]
    · rw [mem_peers_ofEntries, mem_peers_ofEntries, hrelation]

-- a peer that is declared later is ignored; the cycle is told from the key where it closes
example :
    (ofEntries [.declare "a", .after "a" "c", .declare "b", .declare "c", .after "b" "c",
      .after "c" "b"]).sort =
    .error ["b", "c", "b"] := by decide

end Conform.KeyGraph
