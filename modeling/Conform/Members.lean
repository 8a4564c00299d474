/-!
# Members: keyed entries in the order they were first written

An object, a set of allowed values and a table of message templates all keep their entries in the
order in which each key was first written. Writing a key again changes its value and keeps its
place; a removed key closes the gap. The entries are an ordinary list of pairs, so the functions
here live in the namespace `Members` and take the list.

Main statements: what `insert` and `erase` do to a look-up, and that both keep keys distinct.
-/

namespace Conform.Members

variable {α : Type}

/-- The keys, in order. -/
def keys (members : List (String × α)) : List String := members.map (·.1)

/-- The values, in the order of their keys. -/
def values (members : List (String × α)) : List α := members.map (·.2)

/-- The value under `key`. -/
def get? (members : List (String × α)) (key : String) : Option α :=
  match members with
  | [] => none
  | (k, v) :: rest => if k = key then some v else get? rest key

/-- Whether `key` has a value. -/
def contains (members : List (String × α)) (key : String) : Bool := (get? members key).isSome

/-- Writes `value` under `key`: in the key's place if it has one, else at the end. -/
def insert (members : List (String × α)) (key : String) (value : α) : List (String × α) :=
  match members with
  | [] => [(key, value)]
  | (k, v) :: rest => if k = key then (key, value) :: rest else (k, v) :: insert rest key value

/-- Removes `key`; the entries after it move up. -/
def erase (members : List (String × α)) (key : String) : List (String × α) :=
  members.filter (fun entry => entry.1 != key)

/-- Writes `value` under `key` only when the key has no value yet. -/
def insertNew (members : List (String × α)) (key : String) (value : α) : List (String × α) :=
  if contains members key then members else members ++ [(key, value)]

/-- Writes every entry of `added`, one after another. -/
def insertAll (members added : List (String × α)) : List (String × α) :=
  added.foldl (fun acc entry => insert acc entry.1 entry.2) members

/-- The entries written in order: a repeated key keeps its first place and its last value. -/
def ofList (entries : List (String × α)) : List (String × α) := insertAll [] entries

/-- Keys are distinct; every operation of this file keeps that. -/
def Distinct (members : List (String × α)) : Prop := (keys members).Nodup

@[simp] theorem get?_nil (key : String) : get? ([] : List (String × α)) key = none := rfl

theorem get?_cons (k key : String) (v : α) (rest : List (String × α)) :
    get? ((k, v) :: rest) key = if k = key then some v else get? rest key := rfl

/-- A written key reads back, and no other key is touched. -/
theorem get?_insert (members : List (String × α)) (key other : String) (value : α) :
    get? (insert members key value) other =
      if key = other then some value else get? members other := by
  induction members with
  | nil => simp [insert, get?]
  | cons entry rest ih =>
    obtain ⟨k, v⟩ := entry
    simp only [insert]
    split
    · next h => subst h; by_cases hk : k = other <;> simp [get?, hk]
    · next h =>
      by_cases hk : k = other
      · subst hk; simp [get?, Ne.symm h]
      · simp [get?, hk, ih]

theorem get?_eq_none_iff (members : List (String × α)) (key : String) :
    get? members key = none ↔ key ∉ keys members := by
  induction members with
  | nil => simp [keys]
  | cons entry rest ih =>
    obtain ⟨k, v⟩ := entry
    by_cases hk : k = key
    · simp [get?, keys, hk]
    · simpa [get?, keys, hk, Ne.symm hk] using ih

/-- A removed key is gone, and no other key is touched. -/
theorem get?_erase (members : List (String × α)) (key other : String) :
    get? (erase members key) other = if key = other then none else get? members other := by
  induction members with
  | nil => simp [erase]
  | cons entry rest ih =>
    obtain ⟨k, v⟩ := entry
    unfold erase at ih ⊢
    by_cases hk : k = key
    · subst hk
      by_cases ho : k = other <;> simp_all [get?]
    · by_cases ho : k = other
      · subst ho; simp [get?, hk, Ne.symm hk]
      · simp [get?, hk, ho, ih]

/-- Writing a key adds it at the end, or leaves the list of keys alone. -/
theorem keys_insert (members : List (String × α)) (key : String) (value : α) :
    keys (insert members key value) =
      if key ∈ keys members then keys members else keys members ++ [key] := by
  induction members with
  | nil => simp [insert, keys]
  | cons entry rest ih =>
    obtain ⟨k, v⟩ := entry
    simp only [insert]
    split
    · next h => subst h; simp [keys]
    · next h =>
      have ih' : List.map (fun x => x.1) (insert rest key value) =
          if key ∈ keys rest then keys rest else keys rest ++ [key] := ih
      by_cases hk : key ∈ keys rest <;> simp_all [keys, Ne.symm h]

theorem keys_erase (members : List (String × α)) (key : String) :
    keys (erase members key) = (keys members).filter (· != key) := by
  simp [erase, keys, List.filter_map, Function.comp_def]

theorem Distinct.insert {members : List (String × α)} (h : Distinct members) (key : String)
    (value : α) : Distinct (insert members key value) := by
  unfold Distinct at *
  rw [keys_insert]
  split
  · exact h
  · next hk =>
    refine List.nodup_append.2 ⟨h, by simp, fun a ha b hb hab => hk ?_⟩
    simp only [List.mem_singleton] at hb
    exact hb ▸ hab ▸ ha

theorem Distinct.erase {members : List (String × α)} (h : Distinct members) (key : String) :
    Distinct (erase members key) := by
  unfold Distinct at *
  rw [keys_erase]
  exact h.filter _

theorem Distinct.insertAll {members : List (String × α)} (h : Distinct members)
    (added : List (String × α)) : Distinct (insertAll members added) := by
  unfold Members.insertAll
  induction added generalizing members with
  | nil => exact h
  | cons entry rest ih => exact ih (h.insert entry.1 entry.2)

/-- A written list holds what it held and the new entry. -/
theorem mem_of_mem_insert {members : List (String × α)} {key : String} {value : α}
    {entry : String × α} (h : entry ∈ insert members key value) :
    entry ∈ members ∨ entry = (key, value) := by
  induction members with
  | nil => exact .inr (List.mem_singleton.mp h)
  | cons first rest ih =>
    obtain ⟨k, v⟩ := first
    unfold insert at h
    split at h
    · rcases List.mem_cons.mp h with rfl | hrest
      · exact .inr rfl
      · exact .inl (List.mem_cons_of_mem _ hrest)
    · rcases List.mem_cons.mp h with rfl | hrest
      · exact .inl (List.mem_cons_self ..)
      · exact (ih hrest).imp_left (List.mem_cons_of_mem _)

theorem mem_of_mem_insertAll {members added : List (String × α)} {entry : String × α}
    (h : entry ∈ insertAll members added) : entry ∈ members ∨ entry ∈ added := by
  induction added generalizing members with
  | nil => exact .inl h
  | cons first rest ih =>
    rcases ih h with hin | hrest
    · rcases mem_of_mem_insert hin with hold | rfl
      · exact .inl hold
      · exact .inr (List.mem_cons_self ..)
    · exact .inr (List.mem_cons_of_mem _ hrest)

theorem distinct_nil : Distinct ([] : List (String × α)) := List.nodup_nil

theorem contains_iff (members : List (String × α)) (key : String) :
    contains members key = true ↔ key ∈ keys members := by
  unfold contains
  rw [Option.isSome_iff_ne_none, ne_eq, get?_eq_none_iff, Decidable.not_not]

/-- What a key reads back stands in the list. -/
theorem mem_of_get? {members : List (String × α)} {key : String} {value : α}
    (h : get? members key = some value) : (key, value) ∈ members := by
  induction members with
  | nil => exact absurd h (by simp)
  | cons entry rest ih =>
    obtain ⟨k, v⟩ := entry
    rw [get?_cons] at h
    by_cases hk : k = key
    · rw [if_pos hk] at h
      obtain rfl : v = value := Option.some.inj h
      exact hk ▸ List.mem_cons_self ..
    · rw [if_neg hk] at h
      exact List.mem_cons_of_mem _ (ih h)

/-- Among distinct keys every entry reads back. -/
theorem Distinct.get?_of_mem {members : List (String × α)} (h : Distinct members) {key : String}
    {value : α} (hmem : (key, value) ∈ members) : get? members key = some value := by
  induction members with
  | nil => exact absurd hmem (by simp)
  | cons entry rest ih =>
    obtain ⟨k, v⟩ := entry
    have hnd : k ∉ keys rest ∧ (keys rest).Nodup := List.nodup_cons.mp h
    rw [get?_cons]
    rcases List.mem_cons.mp hmem with heq | hrest
    · obtain ⟨rfl, rfl⟩ := Prod.mk.inj heq
      exact if_pos rfl
    · have hk : k ≠ key := fun he => hnd.1 (he ▸ List.mem_map_of_mem (f := (·.1)) hrest)
      rw [if_neg hk]
      exact ih hnd.2 hrest

end Conform.Members
