import Mathlib.Data.List.Induction
import Mathlib.Data.List.Nodup
import Mathlib.Data.List.Perm.Subperm
import Conform.Schema.KeyGraph

/-!
# Sorting keys

`KeyGraph.sort` takes keys off a queue of keys that are free to run. What carries the argument is
one invariant of the queue and the keys done: no key is in both or in either twice, and whatever a
key runs after was done before the key was queued. A step keeps it (`Sorting.step`), so the order
at the end lists every key once, each after its peers.

A second invariant is that nothing that can run is forgotten (`AllQueued`). It makes the sort
succeed whenever there is an order at all, whatever the order in which keys were declared.

Both invariants are stated of a state, the queue and the keys done, and each comes with three
lemmas: it holds at the start, a step keeps it, and so it holds however long the queue is worked on.
The fuel is the number of keys. As no key is done twice, this is enough to empty the queue, which is
where the second invariant is used: if there is an order, its first key that is not done would have
all its peers done and so be queued, but nothing is queued.

What is released by a key are those keys that wait for it and for nothing else any more, in the
order in which keys were declared. Only the keys and the set of peers of each enter into that, so
graphs that agree in these are sorted alike (`sort_congr`).

Main statements: `sort_ok`, for the order that `sort` gives, and `sort_of_order`, for when it gives
one. The cycle that it gives otherwise is another matter (`sort_error`).
-/

namespace Conform.KeyGraph

variable {g : KeyGraph}

/-! ### Peers and free keys -/

theorem mem_peers {key peer : String} : peer ∈ g.peers key ↔ (key, peer) ∈ g.edges := by
  unfold peers
  rw [List.mem_filterMap]
  constructor
  · rintro ⟨⟨k, p⟩, hmem, heq⟩
    dsimp only at heq
    by_cases hk : k = key
    · subst hk
      rw [if_pos rfl] at heq
      exact Option.some.inj heq ▸ hmem
    · rw [if_neg hk] at heq
      exact absurd heq (by simp)
  · intro hmem
    exact ⟨(key, peer), hmem, if_pos rfl⟩

theorem isFree_iff {done : List String} {key : String} :
    g.isFree done key = true ↔ ∀ peer ∈ g.peers key, peer ∈ done := by
  unfold isFree
  rw [List.all_eq_true]
  exact ⟨fun h peer hp => by simpa using h peer hp, fun h peer hp => by simpa using h peer hp⟩

theorem mem_released {done : List String} {key k : String} :
    k ∈ g.released done key ↔
      k ∈ g.keys ∧ key ∈ g.peers k ∧ ∀ peer ∈ g.peers k, peer ∈ key :: done := by
  unfold released
  rw [List.mem_filter, Bool.and_eq_true, isFree_iff, List.contains_iff_mem]

/-! ### The invariant of the queue -/

/-- The state of a sort: the keys on the queue and, last one first, those done. -/
structure Sorting (g : KeyGraph) (queue done : List String) : Prop where
  /-- A key is queued or done at most once. -/
  nodup : (queue ++ done).Nodup
  declared : ∀ key ∈ queue ++ done, key ∈ g.keys
  /-- What is on the queue can run now. -/
  free : ∀ key ∈ queue, ∀ peer ∈ g.peers key, peer ∈ done
  /-- What is done ran after its peers. -/
  after : ∀ later key earlier, done = later ++ key :: earlier →
    ∀ peer ∈ g.peers key, peer ∈ earlier

namespace Sorting

variable {queue done : List String} {key : String}

/-- Every peer of a key that is queued or done is done. -/
theorem peer_done (h : Sorting g queue done) (hk : key ∈ queue ++ done) :
    ∀ peer ∈ g.peers key, peer ∈ done := by
  intro peer hp
  rcases List.mem_append.mp hk with hq | hd
  · exact h.free key hq peer hp
  · obtain ⟨later, earlier, rfl⟩ := List.append_of_mem hd
    have := h.after later key earlier rfl peer hp
    exact List.mem_append_right _ (List.mem_cons_of_mem _ this)

/-- The keys released by a key are neither queued nor done: that key, a peer of theirs, was not
done. -/
theorem released_new (h : Sorting g (key :: queue) done) {k : String}
    (hk : k ∈ g.released done key) : k ∉ key :: queue ++ done := by
  intro hmem
  have hpeer : key ∈ g.peers k := (mem_released.mp hk).2.1
  have hdone : key ∈ done := h.peer_done hmem key hpeer
  have hnd := h.nodup
  rw [List.cons_append, List.nodup_cons] at hnd
  exact hnd.1 (List.mem_append_right _ hdone)

/-- Running the first key of the queue keeps the invariant. -/
theorem step (hkeys : g.keys.Nodup) (h : Sorting g (key :: queue) done) :
    Sorting g (queue ++ g.released done key) (key :: done) := by
  have hnd := h.nodup
  refine ⟨?_, ?_, ?_, ?_⟩
  · -- the released keys are new, and distinct as a part of the declared ones
    have hperm : (queue ++ g.released done key ++ key :: done).Perm
        (g.released done key ++ (key :: queue ++ done)) := by
      calc (queue ++ g.released done key ++ key :: done).Perm
            (g.released done key ++ queue ++ key :: done) :=
              List.Perm.append_right _ List.perm_append_comm
        _ = g.released done key ++ (queue ++ key :: done) := List.append_assoc ..
        List.Perm _ (g.released done key ++ (key :: queue ++ done)) :=
              List.Perm.append_left _ List.perm_middle
    rw [hperm.nodup_iff, List.nodup_append]
    refine ⟨hkeys.filter _, hnd, ?_⟩
    intro k hk k' hk' heq
    exact h.released_new hk (heq ▸ hk')
  · intro k hk
    rcases List.mem_append.mp hk with hq | hd
    · rcases List.mem_append.mp hq with hq | hr
      · exact h.declared k (List.mem_append_left _ (List.mem_cons_of_mem _ hq))
      · exact (mem_released.mp hr).1
    · rcases List.mem_cons.mp hd with rfl | hd
      · exact h.declared k (List.mem_append_left _ (List.mem_cons_self ..))
      · exact h.declared k (List.mem_append_right _ hd)
  · -- a queued key waits for nothing: it did so before, or was released for that
    intro k hk peer hp
    rcases List.mem_append.mp hk with hq | hr
    · exact List.mem_cons_of_mem _ (h.free k (List.mem_cons_of_mem _ hq) peer hp)
    · exact (mem_released.mp hr).2.2 peer hp
  · -- the key that runs now is the only new place where a peer could be missing
    intro later k earlier heq peer hp
    cases later with
    | nil =>
      injection heq with hkey hdone
      subst hkey
      exact hdone ▸ h.free key (List.mem_cons_self ..) peer hp
    | cons first later =>
      injection heq with _ hdone
      exact h.after later k earlier hdone peer hp

/-- The queue starts with the keys that run after nothing. -/
theorem start (hkeys : g.keys.Nodup) : Sorting g (g.keys.filter (g.isFree [])) [] := by
  refine ⟨?_, ?_, ?_, ?_⟩
  · rw [List.append_nil]
    exact hkeys.filter _
  · intro k hk
    rw [List.append_nil] at hk
    exact (List.mem_filter.mp hk).1
  · intro k hk
    exact isFree_iff.mp (List.mem_filter.mp hk).2
  · intro later k earlier heq
    exact absurd heq (by simp)

/-- However long the queue is worked on, what is done satisfies the invariant. -/
theorem drain (hkeys : g.keys.Nodup) (fuel : Nat) :
    ∀ {queue done : List String}, Sorting g queue done →
      ∃ left, Sorting g left (g.drain fuel queue done) := by
  induction fuel with
  | zero => exact fun h => ⟨_, h⟩
  | succ fuel ih =>
    intro queue done h
    cases queue with
    | nil => exact ⟨[], h⟩
    | cons key queue => exact ih (h.step hkeys)

end Sorting

/-! ### The order -/

/-- What stands behind a key is in front of it once the list is turned around. -/
theorem sublist_reverse {peer key : String} {later earlier : List String} (h : peer ∈ earlier) :
    [peer, key].Sublist (later ++ key :: earlier).reverse := by
  rw [List.reverse_append, List.reverse_cons, List.append_assoc]
  have hfront : [peer].Sublist earlier.reverse :=
    List.singleton_sublist.mpr (List.mem_reverse.mpr h)
  have hback : [key].Sublist ([key] ++ later.reverse) := List.sublist_append_left ..
  exact hfront.append hback

/-- The order lists declared keys, none twice, each after its peers. -/
theorem order_sound (hkeys : g.keys.Nodup) :
    g.order.Nodup ∧ (∀ key ∈ g.order, key ∈ g.keys) ∧
      ∀ key ∈ g.order, ∀ peer ∈ g.peers key, [peer, key].Sublist g.order := by
  obtain ⟨left, h⟩ := Sorting.drain hkeys g.keys.length (Sorting.start hkeys)
  have hdone := (List.nodup_append.mp h.nodup).2.1
  unfold order
  refine ⟨?_, ?_, ?_⟩
  · exact List.nodup_reverse.mpr hdone
  · intro key hk
    exact h.declared key (List.mem_append_right _ (List.mem_reverse.mp hk))
  · intro key hk peer hp
    obtain ⟨later, earlier, heq⟩ := List.append_of_mem (List.mem_reverse.mp hk)
    rw [heq]
    exact sublist_reverse (h.after later key earlier heq peer hp)

theorem sort_eq_ok {order : List String} (h : g.sort = .ok order) :
    g.order.length = g.keys.length ∧ g.order = order := by
  unfold sort at h
  dsimp only at h
  split at h
  next hlength => exact ⟨hlength, Except.ok.inj h⟩
  next => exact absurd h (by simp)

/-- A sort that succeeds lists every key once, and each after its peers. -/
theorem sort_ok (hkeys : g.keys.Nodup) {order : List String} (h : g.sort = .ok order) :
    order.Perm g.keys ∧ ∀ key ∈ g.keys, ∀ peer ∈ g.peers key, [peer, key].Sublist order := by
  obtain ⟨hlen, rfl⟩ := sort_eq_ok h
  obtain ⟨hnd, hsub, hafter⟩ := order_sound hkeys
  have hperm : g.order.Perm g.keys := (hnd.subperm hsub).perm_of_length_le (Nat.le_of_eq hlen.symm)
  exact ⟨hperm, fun key hk => hafter key (hperm.mem_iff.mpr hk)⟩

/-! ### Graphs that are sorted alike -/

section Alike

variable {h : KeyGraph} (hkeys : h.keys = g.keys)
  (hpeers : ∀ key peer, peer ∈ h.peers key ↔ peer ∈ g.peers key)
include hkeys hpeers

theorem released_congr (done : List String) (key : String) :
    h.released done key = g.released done key := by
  unfold released
  rw [hkeys]
  refine List.filter_congr fun k _ => ?_
  have hcontains : (h.peers k).contains key = (g.peers k).contains key := by
    rw [Bool.eq_iff_iff, List.contains_iff_mem, List.contains_iff_mem]
    exact hpeers k key
  have hfree : h.isFree (key :: done) k = g.isFree (key :: done) k := by
    rw [Bool.eq_iff_iff, isFree_iff, isFree_iff]
    simp only [hpeers]
  rw [hcontains, hfree]

/-- It does not matter in which order edges were recorded. -/
theorem order_congr : h.order = g.order := by
  have hdrain (fuel : Nat) (queue done : List String) :
      h.drain fuel queue done = g.drain fuel queue done := by
    induction fuel generalizing queue done with
    | zero => rfl
    | succ fuel ih =>
      cases queue with
      | nil => rfl
      | cons key queue =>
        rw [drain, drain, released_congr hkeys hpeers]
        exact ih _ _
  have hstart : h.keys.filter (h.isFree []) = g.keys.filter (g.isFree []) := by
    rw [hkeys]
    refine List.filter_congr fun k _ => ?_
    rw [Bool.eq_iff_iff, isFree_iff, isFree_iff]
    simp only [hpeers]
  unfold order
  rw [hstart, hdrain, hkeys]

theorem sort_congr {order : List String} (hsort : g.sort = .ok order) : h.sort = .ok order := by
  obtain ⟨hlength, rfl⟩ := sort_eq_ok hsort
  unfold sort
  dsimp only
  rw [order_congr hkeys hpeers, hkeys, if_pos hlength]

end Alike

/-! ### Sorts that succeed -/

/-- Every declared key whose peers are done is queued or done. -/
def AllQueued (g : KeyGraph) (queue done : List String) : Prop :=
  ∀ key ∈ g.keys, (∀ peer ∈ g.peers key, peer ∈ done) → key ∈ queue ++ done

namespace AllQueued

variable {queue done : List String} {key : String}

/-- What a key was the last to keep back is released by it. -/
theorem step (h : AllQueued g (key :: queue) done) :
    AllQueued g (queue ++ g.released done key) (key :: done) := by
  intro k hk hpeers
  by_cases hkey : key ∈ g.peers k
  · have hreleased : k ∈ g.released done key := mem_released.mpr ⟨hk, hkey, hpeers⟩
    exact List.mem_append_left _ (List.mem_append_right _ hreleased)
  · -- its peers were done before
    have hdone : ∀ peer ∈ g.peers k, peer ∈ done := by
      intro peer hp
      rcases List.mem_cons.mp (hpeers peer hp) with rfl | hd
      · exact absurd hp hkey
      · exact hd
    rcases List.mem_append.mp (h k hk hdone) with hqueue | hd
    · rcases List.mem_cons.mp hqueue with rfl | hq
      · exact List.mem_append_right _ (List.mem_cons_self ..)
      · exact List.mem_append_left _ (List.mem_append_left _ hq)
    · exact List.mem_append_right _ (List.mem_cons_of_mem _ hd)

theorem start (g : KeyGraph) : AllQueued g (g.keys.filter (g.isFree [])) [] := by
  intro k hk hpeers
  rw [List.append_nil]
  exact List.mem_filter.mpr ⟨hk, isFree_iff.mpr hpeers⟩

/-- The queue is worked on until it is empty, or until there is no fuel left. -/
theorem drain (fuel : Nat) : ∀ {queue done : List String}, AllQueued g queue done →
    AllQueued g [] (g.drain fuel queue done) ∨
    (g.drain fuel queue done).length = done.length + fuel := by
  induction fuel with
  | zero => exact fun _ => .inr rfl
  | succ fuel ih =>
    intro queue done h
    cases queue with
    | nil => exact .inl h
    | cons key queue =>
      rcases ih h.step with hall | hlength
      · exact .inl hall
      · refine .inr (hlength.trans ?_)
        rw [List.length_cons]
        omega

end AllQueued

/-- In a list without repetition, what is listed in front of a key stands in front of it. -/
theorem mem_front {peer key : String} {front back : List String}
    (hnodup : (front ++ key :: back).Nodup)
    (h : [peer, key].Sublist (front ++ key :: back)) : peer ∈ front := by
  obtain ⟨-, hback, hapart⟩ := List.nodup_append.mp hnodup
  have hkey : key ∉ back := (List.nodup_cons.mp hback).1
  obtain ⟨left, right, heq, hleft, hright⟩ := List.sublist_append_iff.mp h
  cases left with
  | nil =>
    rw [List.nil_append] at heq
    rw [← heq] at hright
    have hlast : [key].Sublist back := by
      cases hright with
      | cons _ hsub => exact (List.sublist_cons_self peer [key]).trans hsub
      | cons_cons _ hsub => exact hsub
    exact absurd (List.singleton_sublist.mp hlast) hkey
  | cons first left =>
    obtain ⟨rfl, -⟩ := List.cons.inj heq
    exact hleft.subset (List.mem_cons_self ..)

section Order

variable {order : List String} (hkeys : g.keys.Nodup) (hperm : order.Perm g.keys)
  (hafter : ∀ key ∈ g.keys, ∀ peer ∈ g.peers key, [peer, key].Sublist order)
include hkeys hperm hafter

/-- Once the queue is empty, every key of an order is done, from the front of
the order to its back. -/
theorem AllQueued.covers {done : List String} (h : AllQueued g [] done) :
    ∀ key ∈ g.keys, key ∈ done := by
  -- the front of the order grows by one key at a time
  have hfront : ∀ front back, order = front ++ back → ∀ key ∈ front, key ∈ done := by
    intro front
    induction front using List.reverseRecOn with
    | nil => exact fun _ _ _ h => absurd h List.not_mem_nil
    | append_singleton front key ih =>
      intro back horder
      have horder : order = front ++ key :: back := by rw [horder, List.append_assoc]; rfl
      have hkey : key ∈ g.keys := by
        refine hperm.mem_iff.mp ?_
        rw [horder]
        exact List.mem_append_right _ (List.mem_cons_self ..)
      have hpeers : ∀ peer ∈ g.peers key, peer ∈ front := by
        intro peer hp
        have hsub := hafter key hkey peer hp
        have hnodup := hperm.nodup_iff.mpr hkeys
        rw [horder] at hsub hnodup
        exact mem_front hnodup hsub
      intro k hk
      rcases List.mem_append.mp hk with hk | hk
      · exact ih (key :: back) horder k hk
      · obtain rfl := List.mem_singleton.mp hk
        exact h k hkey fun peer hp => ih (k :: back) horder peer (hpeers peer hp)
  intro key hk
  exact hfront order [] (List.append_nil _).symm key (hperm.mem_iff.mpr hk)

/-- If the keys can be listed with each after its peers, the sort succeeds. -/
theorem sort_of_order : g.sort = .ok g.order := by
  obtain ⟨hnodup, hdeclared, -⟩ := order_sound hkeys
  have hlength : g.order.length = g.keys.length := by
    rcases AllQueued.drain g.keys.length (AllQueued.start g) with hall | hlength
    · have hsub : g.keys ⊆ g.order := by
        intro key hk
        exact List.mem_reverse.mpr (hall.covers hkeys hperm hafter key hk)
      exact Nat.le_antisymm (hnodup.subperm hdeclared).length_le (hkeys.subperm hsub).length_le
    · unfold KeyGraph.order
      rw [List.length_reverse, hlength, List.length_nil, Nat.zero_add]
  unfold sort
  dsimp only
  rw [if_pos hlength]

end Order

end Conform.KeyGraph
