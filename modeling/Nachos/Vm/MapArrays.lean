import Nachos.Lib.Runs
import Nachos.Vm.Map
import Mathlib.Logic.Function.Basic

/-! `Map` as its two parallel arrays, and when it answers like a map. -/

namespace Nachos

/-- The members of the class; behind `count` the arrays hold what the allocator left there. -/
structure MapArrays (κ ο : Type) where
  keys : Nat → κ
  array : Nat → ο
  capacity : Nat
  count : Nat

namespace MapArrays

variable {κ ο : Type}

/-- `Map::Map`. -/
def new (keys : Nat → κ) (array : Nat → ο) : MapArrays κ ο := ⟨keys, array, 300, 0⟩

/-- `Map::insert`; `realloc` keeps what is in the arrays. -/
def insert (map : MapArrays κ ο) (key : κ) (object : ο) : MapArrays κ ο where
  keys := Function.update map.keys map.count key
  array := Function.update map.array map.count object
  capacity := if map.count ≥ map.capacity then map.capacity * 2 else map.capacity
  count := map.count + 1

/-- `Map::getCount`. -/
def getCount (map : MapArrays κ ο) : Nat := map.count

/-- `Map::getKeys`. -/
def getKeys (map : MapArrays κ ο) : List κ := (List.range map.count).map map.keys

/-- The body of the loop that closes the gap. -/
def shift (map : MapArrays κ ο) (i : Nat) : MapArrays κ ο :=
  if i + 1 < map.count then { map with
    keys := Function.update map.keys i (map.keys (i + 1))
    array := Function.update map.array i (map.array (i + 1)) }
  else map

/-- The loop that closes the gap at an index. -/
def close (map : MapArrays κ ο) (index : Nat) : MapArrays κ ο :=
  (List.range' index (map.count - index)).foldl shift map

/-- The arrays hold the pairs of a map. -/
structure Represents (arrays : MapArrays κ ο) (map : Map κ ο) : Prop where
  capacity : arrays.capacity = map.capacity
  entries : (List.range arrays.count).map (fun i => (arrays.keys i, arrays.array i)) = map.entries

variable {arrays : MapArrays κ ο} {map : Map κ ο}

/-- The count is the number of pairs. -/
theorem Represents.count (represents : arrays.Represents map) :
    map.entries.length = arrays.count := by
  rw [← represents.entries, List.length_map, List.length_range]

/-- A pair is found at its index. -/
theorem Represents.getElem? (represents : arrays.Represents map) (index : Nat) :
    map.entries[index]? =
      if index < arrays.count then some (arrays.keys index, arrays.array index) else none := by
  rw [← represents.entries, List.getElem?_map]
  split
  · rename_i inside
    -- Behind the counter the arrays hold leftovers, in front of it the pairs of the map.
    rw [List.getElem?_range inside, Option.map_some]
  · rename_i outside
    rw [List.getElem?_eq_none (by simpa using outside), Option.map_none]

/-- The keys are those of the map. -/
theorem Represents.getKeys (represents : arrays.Represents map) :
    arrays.getKeys = map.getKeys := by
  rw [Map.getKeys, ← represents.entries, List.map_map]
  rfl

/-- A new map is empty. -/
theorem represents_new (keys : Nat → κ) (array : Nat → ο) :
    (new keys array).Represents Map.empty := ⟨rfl, rfl⟩

/-- Inserting appends the pair. -/
theorem Represents.insert (represents : arrays.Represents map) (key : κ) (object : ο) :
    (arrays.insert key object).Represents (map.insert key object) := by
  have count := represents.count
  refine ⟨?_, ?_⟩
  · -- The doubling of a full array is the same in both.
    simp only [MapArrays.insert, Map.insert, count, represents.capacity]
  · simp only [MapArrays.insert, Map.insert, List.range_succ, List.map_append, List.map_singleton,
      Function.update_self, ← represents.entries]
    refine congrArg (· ++ _) (List.map_congr_left fun index member => ?_)
    -- The new pair stands behind the counter, so no earlier slot is written.
    have apart : index ≠ arrays.count := by
      have inside := List.mem_range.mp member
      omega
    rw [Function.update_of_ne apart, Function.update_of_ne apart]

/-- Closing the gap moves the later pairs down by one. -/
theorem close_getElem (arrays : MapArrays κ ο) (index : Nat) :
    (arrays.close index).capacity = arrays.capacity ∧
      (arrays.close index).count = arrays.count ∧
      ∀ position, position + 1 < arrays.count →
        (arrays.close index).keys position =
          (if position < index then arrays.keys position else arrays.keys (position + 1)) ∧
        (arrays.close index).array position =
          (if position < index then arrays.array position else arrays.array (position + 1)) := by
  -- After some turns the pairs behind the gap, up to the current one, have moved.
  have turns (steps : Nat) : ∃ moved, (List.range' index steps).foldl shift arrays = moved ∧
      moved.capacity = arrays.capacity ∧ moved.count = arrays.count ∧
      ∀ position, (index ≤ position ∧ position < index + steps ∧ position + 1 < arrays.count →
          moved.keys position = arrays.keys (position + 1) ∧
          moved.array position = arrays.array (position + 1)) ∧
        (position < index ∨ index + steps ≤ position →
          moved.keys position = arrays.keys position ∧
          moved.array position = arrays.array position) := by
    induction steps with
    | zero => exact ⟨arrays, rfl, rfl, rfl, fun position => ⟨by omega, fun _ => ⟨rfl, rfl⟩⟩⟩
    | succ steps ih =>
      obtain ⟨moved, same, capacity, count, found⟩ := ih
      -- One more turn copies the pair behind the current slot into it, if there is one.
      refine ⟨moved.shift (index + steps), ?_, ?_, ?_, fun position => ?_⟩
      · rw [List.range'_1_concat, List.foldl_append, same]
        rfl
      · unfold shift
        split <;> exact capacity
      · unfold shift
        split <;> exact count
      · have next := (found (index + steps + 1)).2 (by omega)
        unfold shift
        rw [count]
        by_cases here : position = index + steps
        · -- The slot of this turn takes the pair behind it, which no earlier turn has touched.
          split
          · rw [here]
            simp only [Function.update_self]
            exact ⟨fun _ => next, by omega⟩
          · exact ⟨by omega, by omega⟩
        · refine ⟨fun within => ?_, fun without => ?_⟩
          · -- A slot of an earlier turn keeps what that turn gave it.
            have before := (found position).1 (by omega)
            split
            · simpa only [Function.update_of_ne here] using before
            · exact before
          · -- A slot out of reach keeps what it had.
            have before := (found position).2 (by omega)
            split
            · simpa only [Function.update_of_ne here] using before
            · exact before
  -- The loop of `remove` runs from the index of the key to the end of the pairs.
  obtain ⟨moved, same, capacity, count, found⟩ := turns (arrays.count - index)
  have closed : arrays.close index = moved := same
  rw [closed]
  refine ⟨capacity, count, fun position within => ?_⟩
  split
  · exact (found position).2 (by omega)
  · exact (found position).1 (by omega)

variable [DecidableEq κ]

/-- The search for a key from an index on, which leaves the array where nothing else stops it. -/
def search (map : MapArrays κ ο) (key : κ) (goesOn : Nat → Bool) : Nat → Nat → Except Fault Nat
  | 0, _ => .error .diverges
  | fuel + 1, index =>
    if index < map.capacity then
      if key ≠ map.keys index ∧ goesOn index then search map key goesOn fuel (index + 1)
      else .ok index
    else .error (.wildAccess index)

/-- `Map::operator[]`, whose search also ends at the first index that is not in use. -/
def get (map : MapArrays κ ο) (key : κ) : Except Fault ο := do
  let index ← map.search key (· < map.count) (map.capacity + 1) 0
  return map.array index

/-- `Map::remove`, whose search ends at the key only; the counter is unsigned. -/
def remove (map : MapArrays κ ο) (key : κ) : Except Fault (MapArrays κ ο) := do
  let index ← map.search key (fun _ => true) (map.capacity + 1) 0
  return { map.close index with count := if map.count = 0 then 2 ^ 64 - 1 else map.count - 1 }

variable {key : κ}

/-- The search stops at the first index that has the key. -/
theorem search_first {goesOn : Nat → Bool} {target : Nat} (inside : target < arrays.capacity)
    (here : arrays.keys target = key) {fuel index : Nat} (ahead : index ≤ target)
    (enough : target - index < fuel)
    (before : ∀ earlier, index ≤ earlier → earlier < target →
      arrays.keys earlier ≠ key ∧ goesOn earlier = true) :
    arrays.search key goesOn fuel index = .ok target := by
  induction fuel generalizing index with
  | zero => omega
  | succ fuel ih =>
    -- A target inside the array keeps the search inside it.
    have within : index < arrays.capacity := by omega
    rw [search, if_pos within]
    by_cases arrived : index = target
    · rw [if_neg (by simp [arrived, here]), arrived]
    · -- The key here is another one, so the search moves on.
      obtain ⟨other, continues⟩ := before index le_rfl (by omega)
      rw [if_pos ⟨other.symm, continues⟩]
      exact ih (by omega) (by omega) fun earlier later less => before earlier (by omega) less

/-- A key that is listed has a first index. -/
theorem Represents.first (represents : arrays.Represents map) (listed : key ∈ arrays.getKeys) :
    ∃ target < arrays.count, arrays.keys target = key ∧
      (∀ earlier < target, arrays.keys earlier ≠ key) ∧
      map.entries.findIdx? (fun pair => pair.1 == key) = some target := by
  cases found : map.entries.findIdx? (fun pair => pair.1 == key) with
  -- A listed key has a pair, which the search would have found.
  | none =>
    rw [represents.getKeys] at listed
    obtain ⟨pair, member, named⟩ := List.mem_map.mp listed
    have fails := List.findIdx?_eq_none_iff.mp found pair member
    simp [named] at fails
  | some target =>
    obtain ⟨inside, named, before⟩ := List.findIdx?_eq_some_iff_getElem.mp found
    -- The arrays and the list agree on every key in front of the counter.
    have keyAt (index : Nat) (within : index < map.entries.length) :
        map.entries[index].1 = arrays.keys index := by
      have pair := represents.getElem? index
      rw [List.getElem?_eq_getElem within, if_pos (represents.count ▸ within),
        Option.some.injEq] at pair
      rw [pair]
    refine ⟨target, represents.count ▸ inside, ?_, fun earlier less same => ?_, rfl⟩
    · rw [← keyAt target inside]
      simpa using named
    · have differ := before earlier less
      rw [keyAt earlier (by omega), same] at differ
      simp at differ

/-- The lookup of a key that is listed finds what the map answers. -/
theorem Represents.get (represents : arrays.Represents map) (listed : key ∈ arrays.getKeys) :
    ∃ object, arrays.get key = .ok object ∧ map.get? key = some object := by
  obtain ⟨target, inside, here, before, found⟩ := represents.first listed
  -- A pair that is counted lies inside the array, so no search leaves it.
  have room : target < arrays.capacity := by
    have fits := map.fits
    rw [represents.count] at fits
    rw [represents.capacity]
    omega
  have stops := @search_first κ ο arrays _ key (· < arrays.count) target room here
    (arrays.capacity + 1) 0 (Nat.zero_le _) (by omega)
    fun earlier _ less => ⟨before earlier less, decide_eq_true (by omega)⟩
  refine ⟨arrays.array target, Runs.bind_eq_ok.mpr ⟨target, stops, rfl⟩, ?_⟩
  rw [Map.get?, List.find?_eq_bind_findIdx?_getElem?, found, Option.bind_some,
    represents.getElem?, if_pos inside, Option.map_some]

/-- Removing a key that is listed removes its first pair. -/
theorem Represents.remove (represents : arrays.Represents map) (listed : key ∈ arrays.getKeys) :
    ∃ after, arrays.remove key = .ok after ∧ after.Represents (map.erase key) := by
  obtain ⟨target, inside, here, before, found⟩ := represents.first listed
  have room : target < arrays.capacity := by
    have fits := map.fits
    rw [represents.count] at fits
    rw [represents.capacity]
    omega
  have stops := @search_first κ ο arrays _ key (fun _ => true) target room here
    (arrays.capacity + 1) 0 (Nat.zero_le _) (by omega)
    fun earlier _ less => ⟨before earlier less, rfl⟩
  obtain ⟨capacity, -, closed⟩ := close_getElem arrays target
  refine ⟨_, Runs.bind_eq_ok.mpr ⟨target, stops, rfl⟩, capacity.trans represents.capacity, ?_⟩
  -- A key is listed, so the counter of `remove` is not zero and does not wrap.
  have fewer : (if arrays.count = 0 then 2 ^ 64 - 1 else arrays.count - 1) = arrays.count - 1 :=
    if_neg (by omega)
  -- The abstract map drops the first pair with the key, which is the one at the target.
  have erased : (map.erase key).entries = map.entries.eraseIdx target := by
    show map.entries.eraseP _ = _
    rw [List.eraseP_eq_eraseIdx, found]
  rw [erased]
  refine List.ext_getElem? fun position => ?_
  simp only [fewer, List.getElem?_map, List.getElem?_eraseIdx, represents.getElem?]
  -- The pairs behind the target are one position further back in the old map.
  by_cases within : position + 1 < arrays.count
  · obtain ⟨keys, objects⟩ := closed position within
    have last : position < arrays.count := by omega
    rw [List.getElem?_range (by omega), Option.map_some, keys, objects, if_pos within, if_pos last]
    by_cases early : position < target
    · simp only [if_pos early]
    · simp only [if_neg early]
  · -- Behind the last pair there is nothing in either.
    rw [List.getElem?_eq_none (by rw [List.length_range]; omega), Option.map_none, if_neg within]
    split
    · omega
    · rfl

/-- A use of a map. -/
inductive Operation (κ ο : Type) where
  | insert (key : κ) (object : ο)
  | remove (key : κ)
  /-- `operator[]`. -/
  | get (key : κ)
  deriving DecidableEq, Repr

/-- One use. -/
def step (map : MapArrays κ ο) : Operation κ ο → Except Fault (MapArrays κ ο)
  | .insert key object => .ok (map.insert key object)
  | .remove key => map.remove key
  | .get key =>
    match map.get key with
    | .ok _ => .ok map
    | .error fault => .error fault

/-- The uses themselves are what is recorded. -/
def observe (_ : MapArrays κ ο) (operation : Operation κ ο) (_ : MapArrays κ ο) :
    List (Operation κ ο) := [operation]

/-- What a use means to a function from keys to objects. -/
def Operation.apply (objects : κ → Option ο) : Operation κ ο → κ → Option ο
  | .insert key object => Function.update objects key (some object)
  | .remove key => Function.update objects key none
  | .get _ => objects

/-- The object of the most recent insert of each key that was not followed by its removal. -/
def latest (history : List (Operation κ ο)) : κ → Option ο :=
  history.foldl Operation.apply fun _ => none

/-- `remove` and `operator[]` are only used with keys that are present. -/
def Present (map : MapArrays κ ο) : Operation κ ο → Prop
  | .insert _ _ => True
  | .remove key | .get key => key ∈ map.getKeys

/-- In addition, no key is inserted while it is present. -/
def InsertsAbsent (map : MapArrays κ ο) : Operation κ ο → Prop
  | .insert key _ => key ∉ map.getKeys
  | .remove key | .get key => key ∈ map.getKeys

instance (map : MapArrays κ ο) (operation : Operation κ ο) :
    Decidable (map.InsertsAbsent operation) :=
  match operation with
  | .insert key _ => inferInstanceAs (Decidable (key ∉ map.getKeys))
  | .remove key | .get key => inferInstanceAs (Decidable (key ∈ map.getKeys))

/-- A new map, in any memory. -/
def Fresh (map : MapArrays κ ο) : Prop := ∃ keys array, map = new keys array

/-- The map answers as its history says. -/
structure Answers (map : MapArrays κ ο) (history : List (Operation κ ο)) : Prop where
  listed : ∀ key, key ∈ map.getKeys ↔ (latest history key).isSome
  found : ∀ key object, latest history key = some object → map.get key = .ok object

/-- The latest object after one more use. -/
theorem latest_concat (history : List (Operation κ ο)) (operation : Operation κ ο) :
    latest (history ++ [operation]) = operation.apply (latest history) := by
  rw [latest, List.foldl_append]
  rfl

/-- The arrays hold a map without duplicates, which is the one that the history says. -/
structure Lawful (arrays : MapArrays κ ο) (history : List (Operation κ ο)) : Prop where
  held : ∃ map : Map κ ο, arrays.Represents map ∧ map.getKeys.Nodup ∧
    ∀ key, map.get? key = latest history key

/-- Every use that the condition admits keeps this. -/
theorem Lawful.step {after : MapArrays κ ο} {history : List (Operation κ ο)}
    {operation : Operation κ ο} (lawful : arrays.Lawful history)
    (admitted : arrays.InsertsAbsent operation) (stepped : arrays.step operation = .ok after) :
    after.Lawful (history ++ observe arrays operation after) := by
  obtain ⟨map, represents, distinct, same⟩ := lawful.held
  rw [observe]
  cases operation with
  | insert key object =>
    obtain rfl := Except.ok.inj stepped
    -- The condition admits only keys that are absent, so no earlier pair shadows this one.
    have absent : key ∉ map.getKeys := represents.getKeys ▸ admitted
    have unanswered : map.get? key = none := by
      by_contra present
      obtain ⟨object, answers⟩ := Option.ne_none_iff_exists'.mp present
      exact absent ((Map.mem_getKeys map key).mpr ⟨object, answers⟩)
    refine ⟨map.insert key object, represents.insert key object, ?_, fun other => ?_⟩
    · -- The keys stay different because the new one is not among them.
      rw [Map.getKeys_insert, ← List.concat_eq_append]
      exact distinct.concat absent
    · -- The new key answers with its object, every other key as before.
      rw [latest_concat, Operation.apply, Map.get?_insert]
      by_cases here : other = key
      · rw [here, unanswered, Function.update_self, if_pos rfl, Option.none_or]
      · rw [Function.update_of_ne here, if_neg (Ne.symm here), Option.or_none, same]
  | remove key =>
    -- The first pair with the key goes, and by the invariant it is the only one.
    obtain ⟨removed, done, represented⟩ := represents.remove admitted
    obtain rfl := Except.ok.inj (done.symm.trans stepped)
    refine ⟨map.erase key, represented, ?_, fun other => ?_⟩
    · rw [Map.getKeys_erase]
      exact distinct.erase key
    · rw [latest_concat, Operation.apply, Map.get?_erase map distinct]
      by_cases here : other = key
      · rw [here, if_pos rfl, Function.update_self]
      · rw [if_neg here, Function.update_of_ne here, same]
  | get key =>
    -- A lookup of a present key changes nothing.
    obtain ⟨object, answers, -⟩ := represents.get admitted
    rw [MapArrays.step, answers] at stepped
    obtain rfl := Except.ok.inj stepped
    exact ⟨map, represents, distinct, fun other => by rw [latest_concat, Operation.apply, same]⟩

/-- Such arrays answer as the history says. -/
theorem Lawful.answers {history : List (Operation κ ο)} (lawful : arrays.Lawful history) :
    arrays.Answers history := by
  obtain ⟨map, represents, distinct, same⟩ := lawful.held
  refine ⟨fun key => ?_, fun key object late => ?_⟩
  · -- A key is listed when the map has an answer for it, which is what the history says.
    rw [represents.getKeys, Map.mem_getKeys, same, Option.isSome_iff_exists]
  · -- A key the history knows is listed, so the search of the arrays stops at its pair.
    have listed : key ∈ arrays.getKeys := by
      rw [represents.getKeys, Map.mem_getKeys, same]
      exact ⟨object, late⟩
    obtain ⟨other, answers, again⟩ := represents.get listed
    rw [same, late, Option.some.injEq] at again
    rw [answers, again]

/--
In every run that inserts no key while it is present, the map answers as the history says.

Every use that the claim admits succeeds there, and inserting a key that is present goes wrong: when
the key is removed again, it is still listed.
-/
theorem answers_of_insertsAbsent {history : List (Operation κ ο)}
    (traced : Runs.Traced step Fresh InsertsAbsent observe arrays history) :
    arrays.Answers history ∧
      (∀ operation, arrays.Present operation → ∃ after, arrays.step operation = .ok after) ∧
      ∀ key object, key ∈ arrays.getKeys → ∃ after, (arrays.insert key object).remove key = .ok after ∧
        key ∈ after.getKeys := by
  -- The invariant is that the arrays hold a map without duplicates, which starts empty.
  have lawful : arrays.Lawful history := by
    refine traced.invariant Lawful ?_ ?_
    · rintro state ⟨keys, array, rfl⟩
      exact ⟨Map.empty, represents_new keys array, List.nodup_nil, fun _ => rfl⟩
    · exact fun state operation after history held admitted stepped => held.step admitted stepped
  obtain ⟨map, represents, distinct, same⟩ := lawful.held
  -- Every use with a key that is present finds its index.
  refine ⟨lawful.answers, fun operation present => ?_, fun key object listed => ?_⟩
  · cases operation with
    | insert key object => exact ⟨_, rfl⟩
    | remove key =>
      obtain ⟨after, done, -⟩ := represents.remove present
      exact ⟨after, done⟩
    | get key =>
      obtain ⟨object, answers, -⟩ := represents.get present
      exact ⟨arrays, by rw [step, answers]⟩
  · -- After the second insert the key is listed twice, and removing it takes one of the two.
    have twice := represents.insert key object
    have present : key ∈ (arrays.insert key object).getKeys := by
      rw [twice.getKeys, Map.getKeys_insert]
      exact List.mem_append_right _ List.mem_cons_self
    obtain ⟨after, removed, represented⟩ := twice.remove present
    refine ⟨after, removed, ?_⟩
    -- The first pair is gone, the second one is still there.
    rw [represents.getKeys] at listed
    rw [represented.getKeys, Map.getKeys_erase, Map.getKeys_insert, List.erase_append_left _ listed]
    exact List.mem_append_right _ List.mem_cons_self

/-- A key is inserted, removed and inserted again, among others. -/
def insertAgain : List (Operation Nat Nat) :=
  [.insert 1 10, .insert 2 20, .remove 1, .insert 1 30, .get 1]

/-- That run meets the condition. -/
theorem answers_insertAgain : ∃ map : MapArrays Nat Nat,
    Runs.run step (new (fun _ => 0) (fun _ => 0)) insertAgain = .ok map ∧
      map.Answers insertAgain := by
  -- The run is evaluated, and so is the condition at each of its uses.
  obtain ⟨map, ran, -⟩ := Runs.exists_of_runsTo
    (show Runs.runsTo step (new (fun _ => 0) (fun _ => 0)) insertAgain (fun _ => true) = true by
      decide)
  have guarded : Runs.Guarded step InsertsAbsent (new (fun _ => 0) (fun _ => 0)) insertAgain := by
    decide
  have started : Runs.Traced step Fresh InsertsAbsent observe (new (fun _ => 0) (fun _ => 0)) [] :=
    .start ⟨_, _, rfl⟩
  exact ⟨map, ran, (answers_of_insertsAbsent (started.extend guarded ran)).1⟩

/-- After two inserts of one key the lookup still finds the object of the first one. -/
theorem not_answers_insertTwice : ∃ map : MapArrays Nat Nat,
    Runs.Traced step Fresh Present observe map [.insert 1 10, .insert 1 20] ∧
      map.get 1 = .ok 10 ∧ ¬ map.Answers [.insert 1 10, .insert 1 20] := by
  have started : Runs.Traced step Fresh Present observe
      (new (fun _ => 0) (fun _ => 0) : MapArrays Nat Nat) [] := .start ⟨_, _, rfl⟩
  have guarded : Runs.Guarded step Present (new (fun _ => 0) (fun _ => 0) : MapArrays Nat Nat)
      [.insert 1 10, .insert 1 20] := ⟨trivial, trivial, trivial⟩
  refine ⟨_, started.extend guarded rfl, rfl, fun answers => ?_⟩
  -- The history says that the second object is found, but the search has stopped at the first.
  have second := answers.found 1 20 rfl
  simp [get, search, insert, new, bind, Except.bind, pure, Except.pure] at second

end MapArrays

end Nachos
