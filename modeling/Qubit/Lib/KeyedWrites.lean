import Qubit.Lib.FiniteMap

/-!
# Last write wins

A store written under keys, by inserting a value or by removing the entry, holds
after any sequence of writes what the last write to each key left there. The
order of writes to different keys does not matter, and neither do earlier writes
to the same key.
-/

universe u v

/-- One write to a keyed store: a value to insert, or `none` to remove the entry. -/
structure KeyedWrite (K : Type u) (V : Type v) where
  key : K
  value : Option V
deriving DecidableEq

namespace KeyedWrite

variable {K : Type u} {V : Type v} [DecidableEq K]

def perform (map : Finmap fun _ : K => V) (write : KeyedWrite K V) : Finmap fun _ : K => V :=
  match write.value with
  | some value => map.insert write.key value
  | none => map.erase write.key

def replay (map : Finmap fun _ : K => V) (writes : List (KeyedWrite K V)) :
    Finmap fun _ : K => V :=
  writes.foldl perform map

/-- The last of the writes to a key. -/
def last (key : K) (writes : List (KeyedWrite K V)) : Option (KeyedWrite K V) :=
  (writes.filter (fun write => write.key = key)).getLast?

theorem lookup_perform (map : Finmap fun _ : K => V) (write : KeyedWrite K V) (key : K) :
    (perform map write).lookup key =
      if write.key = key then write.value else map.lookup key := by
  unfold perform
  by_cases same : write.key = key
  · subst same
    cases found : write.value with
    | none => simp
    | some value => simp
  · rw [if_neg same]
    cases write.value with
    | none => exact Finmap.lookup_erase_ne (Ne.symm same)
    | some value => exact Finmap.lookup_insert_of_ne _ (Ne.symm same)

theorem last_concat (key : K) (writes : List (KeyedWrite K V)) (write : KeyedWrite K V) :
    last key (writes ++ [write]) = if write.key = key then some write else last key writes := by
  unfold last
  rw [List.filter_append]
  by_cases same : write.key = key
  · simp [same]
  · simp [same]

/-- After any writes, each key holds what the last write to it left, or what it held before. -/
theorem lookup_replay (map : Finmap fun _ : K => V) (writes : List (KeyedWrite K V)) (key : K) :
    (replay map writes).lookup key =
      ((last key writes).map KeyedWrite.value).getD (map.lookup key) := by
  induction writes using List.reverseRecOn with
  | nil => rfl
  | append_singleton writes write ih =>
      rw [replay, List.foldl_append, List.foldl_cons, List.foldl_nil, lookup_perform, last_concat]
      by_cases same : write.key = key
      · simp [same]
      · rw [if_neg same, if_neg same]
        exact ih

/-- A system whose every action performs at most one write leaves the replay of these writes. -/
theorem foldl_eq_replay {State Action : Type*} {step : State → Action → State}
    (store : State → Finmap fun _ : K => V) {write? : Action → Option (KeyedWrite K V)}
    (store_step : ∀ state action, store (step state action) =
      (write? action).elim (store state) (perform (store state)))
    (state : State) (actions : List Action) :
    store (actions.foldl step state) = replay (store state) (actions.filterMap write?) := by
  induction actions generalizing state with
  | nil => rfl
  | cons action rest ih =>
      rw [List.foldl_cons, ih, store_step, List.filterMap_cons]
      cases write? action with
      | none => rfl
      | some write => rfl

theorem last_eq_none_iff {key : K} {writes : List (KeyedWrite K V)} :
    last key writes = none ↔ ∀ write ∈ writes, write.key ≠ key := by
  simp [last]

theorem last_append {key : K} (before after : List (KeyedWrite K V)) :
    last key (before ++ after) = (last key after).or (last key before) := by
  simp [last, List.filter_append, List.getLast?_append]

theorem last_cons {key : K} (write : KeyedWrite K V) (writes : List (KeyedWrite K V)) :
    last key (write :: writes) =
      (last key writes).or (if write.key = key then some write else none) := by
  rw [← List.singleton_append, last_append]
  congr 1
  by_cases same : write.key = key
  · simp [last, same]
  · simp [last, same]

/-- The last write to a key is a write to it after which no other write to it follows. -/
theorem last_eq_some_iff {key : K} {writes : List (KeyedWrite K V)} {write : KeyedWrite K V} :
    last key writes = some write ↔
      ∃ before after, writes = before ++ write :: after ∧ write.key = key ∧
        ∀ later ∈ after, later.key ≠ key := by
  constructor
  · intro found
    induction writes with
    | nil => simp [last] at found
    | cons first rest ih =>
        rw [last_cons] at found
        cases restLast : last key rest with
        | none =>
            rw [restLast, Option.none_or] at found
            split at found
            · rename_i firstKey
              rw [Option.some.injEq] at found
              subst found
              exact ⟨[], rest, rfl, firstKey, last_eq_none_iff.mp restLast⟩
            · cases found
        | some write' =>
            rw [restLast, Option.some_or] at found
            rcases ih (restLast.trans found) with ⟨before, after, split, writeKey, unwritten⟩
            exact ⟨first :: before, after, by rw [split, List.cons_append], writeKey, unwritten⟩
  · rintro ⟨before, after, rfl, writeKey, unwritten⟩
    rw [last_append, last_cons, last_eq_none_iff.mpr unwritten, if_pos writeKey]
    rfl

theorem key_of_last_eq_some {key : K} {writes : List (KeyedWrite K V)} {write : KeyedWrite K V}
    (found : last key writes = some write) : write.key = key := by
  rcases last_eq_some_iff.mp found with ⟨_, _, _, writeKey, _⟩
  exact writeKey

theorem mem_of_last_eq_some {key : K} {writes : List (KeyedWrite K V)} {write : KeyedWrite K V}
    (found : last key writes = some write) : write ∈ writes := by
  rcases last_eq_some_iff.mp found with ⟨before, after, rfl, -, -⟩
  exact List.mem_append_right _ List.mem_cons_self

theorem exists_last_of_mem {writes : List (KeyedWrite K V)} {write : KeyedWrite K V}
    (member : write ∈ writes) : ∃ found, last write.key writes = some found := by
  rw [← Option.ne_none_iff_exists', ne_eq, last_eq_none_iff]
  intro silent
  exact silent write member rfl

/-- A store that was empty holds what its last write inserted. -/
theorem lookup_replay_empty_iff {writes : List (KeyedWrite K V)} {key : K} {value : V} :
    (replay ∅ writes).lookup key = some value ↔
      last key writes = some { key, value := some value } := by
  rw [lookup_replay, Finmap.lookup_empty]
  cases found : last key writes with
  | none => simp
  | some write =>
      have writeKey := key_of_last_eq_some found
      cases write
      simp only at writeKey
      simp [writeKey]

/-- Whatever is stored after writes to an empty store was written by one of them. -/
theorem mem_of_lookup_replay {writes : List (KeyedWrite K V)} {key : K} {value : V}
    (found : (replay ∅ writes).lookup key = some value) :
    { key, value := some value } ∈ writes :=
  mem_of_last_eq_some (lookup_replay_empty_iff.mp found)

theorem last_map_eq_some_iff {key : K} {keys : List K} {value : Option V}
    {write : KeyedWrite K V} :
    last key (keys.map fun other => { key := other, value }) = some write ↔
      key ∈ keys ∧ write = { key, value } := by
  rw [last_eq_some_iff]
  constructor
  · rintro ⟨before, after, split, writeKey, -⟩
    have member : write ∈ keys.map fun other => { key := other, value } := by
      rw [split]
      exact List.mem_append_right _ List.mem_cons_self
    rcases List.mem_map.mp member with ⟨other, otherMem, rfl⟩
    subst writeKey
    exact ⟨otherMem, rfl⟩
  · rintro ⟨member, rfl⟩
    rw [← last_eq_some_iff]
    cases found : last key (keys.map fun other => { key := other, value }) with
    | none =>
        exact absurd rfl (last_eq_none_iff.mp found _ (List.mem_map_of_mem member))
    | some write =>
        rcases last_eq_some_iff.mp found with ⟨before, after, split, writeKey, -⟩
        have listed : write ∈ keys.map fun other => { key := other, value } := by
          rw [split]
          exact List.mem_append_right _ List.mem_cons_self
        rcases List.mem_map.mp listed with ⟨other, -, rfl⟩
        subst writeKey
        rfl

theorem last_map (key : K) (keys : List K) (value : Option V) :
    last key (keys.map fun other => { key := other, value }) =
      if key ∈ keys then some { key, value } else none := by
  by_cases member : key ∈ keys
  · rw [if_pos member]
    exact last_map_eq_some_iff.mpr ⟨member, rfl⟩
  · rw [if_neg member, Option.eq_none_iff_forall_ne_some]
    intro write found
    exact member (last_map_eq_some_iff.mp found).1

/-- When every event performs at most one write, the last write is that of the last such event. -/
theorem last_filterMap_eq_some_iff {Event : Type*} {write? : Event → Option (KeyedWrite K V)}
    {key : K} {events : List Event} {write : KeyedWrite K V} :
    last key (events.filterMap write?) = some write ↔
      ∃ before event after, events = before ++ event :: after ∧ write? event = some write ∧
        write.key = key ∧ ∀ later ∈ after, ∀ written ∈ write? later, written.key ≠ key := by
  rw [last_eq_some_iff]
  constructor
  · rintro ⟨before, after, split, writeKey, unwritten⟩
    rcases List.filterMap_eq_append_iff.mp split with ⟨first, second, rfl, -, rest⟩
    rcases List.filterMap_eq_cons_iff.mp rest with ⟨silent, event, third, rfl, none', writes, rfl⟩
    refine ⟨first ++ silent, event, third, by simp, writes, writeKey, ?_⟩
    intro later laterMem written writtenMem
    exact unwritten written (List.mem_filterMap.mpr ⟨later, laterMem, writtenMem⟩)
  · rintro ⟨before, event, after, rfl, writes, writeKey, unwritten⟩
    refine ⟨before.filterMap write?, after.filterMap write?, ?_, writeKey, ?_⟩
    · rw [List.filterMap_append, List.filterMap_cons_some writes]
    · intro later laterMem
      rcases List.mem_filterMap.mp laterMem with ⟨event', eventMem, written⟩
      exact unwritten event' eventMem later written

/-- The last of the writes that events perform is that of the last event that has one. -/
theorem last_flatMap {Event : Type*} (writesOf : Event → List (KeyedWrite K V)) (key : K)
    (events : List Event) :
    last key (events.flatMap writesOf) =
      (events.filterMap fun event => last key (writesOf event)).getLast? := by
  induction events using List.reverseRecOn with
  | nil => rfl
  | append_singleton events event ih =>
      rw [List.flatMap_append, List.flatMap_singleton, last_append, ih, List.filterMap_append,
        List.getLast?_append]
      cases found : last key (writesOf event) with
      | none => simp [found]
      | some write => simp [found]

/-- The last of the writes that events perform belongs to the last event writing to the key. -/
theorem last_flatMap_eq_some_iff {Event : Type v} {writesOf : Event → List (KeyedWrite K V)}
    {key : K} {events : List Event} {write : KeyedWrite K V} :
    last key (events.flatMap writesOf) = some write ↔
      ∃ before event after, events = before ++ event :: after ∧
        last key (writesOf event) = some write ∧
          ∀ later ∈ after, last key (writesOf later) = none := by
  have silent : ∀ events : List Event, last key (events.flatMap writesOf) = none ↔
      ∀ event ∈ events, last key (writesOf event) = none := by
    intro events
    simp only [last_eq_none_iff, List.mem_flatMap]
    constructor
    · intro unwritten event member write writeMem
      exact unwritten write ⟨event, member, writeMem⟩
    · rintro unwritten write ⟨event, member, writeMem⟩
      exact unwritten event member write writeMem
  constructor
  · intro found
    induction events with
    | nil => simp [last] at found
    | cons first rest ih =>
        rw [List.flatMap_cons, last_append] at found
        cases restLast : last key (rest.flatMap writesOf) with
        | none =>
            rw [restLast, Option.none_or] at found
            exact ⟨[], first, rest, rfl, found, (silent rest).mp restLast⟩
        | some write' =>
            rw [restLast, Option.some_or] at found
            rcases ih (restLast.trans found) with ⟨before, event, after, split, writes, unwritten⟩
            exact ⟨first :: before, event, after, by rw [split, List.cons_append], writes,
              unwritten⟩
  · rintro ⟨before, event, after, rfl, writes, unwritten⟩
    rw [List.flatMap_append, List.flatMap_cons, last_append, last_append,
      (silent after).mpr unwritten, Option.none_or, writes, Option.some_or]

/-- Replaying the same writes once more changes nothing. -/
theorem replay_replay (map : Finmap fun _ : K => V) (writes : List (KeyedWrite K V)) :
    replay (replay map writes) writes = replay map writes := by
  refine Finmap.ext_lookup fun key => ?_
  rw [lookup_replay, lookup_replay]
  cases last key writes with
  | none => rfl
  | some write => rfl

theorem last_eq_some_iff_of_nodup {key : K} {writes : List (KeyedWrite K V)}
    (nodup : (writes.map KeyedWrite.key).Nodup) {write : KeyedWrite K V} :
    last key writes = some write ↔ write ∈ writes ∧ write.key = key := by
  constructor
  · intro found
    rcases last_eq_some_iff.mp found with ⟨before, after, rfl, writeKey, -⟩
    exact ⟨List.mem_append_right _ List.mem_cons_self, writeKey⟩
  · rintro ⟨member, rfl⟩
    cases found : last write.key writes with
    | none => exact absurd rfl (last_eq_none_iff.mp found write member)
    | some other =>
        rcases last_eq_some_iff.mp found with ⟨before, after, rfl, sameKey, -⟩
        rw [List.inj_on_of_nodup_map nodup (List.mem_append_right _ List.mem_cons_self) member
          sameKey]

/-- Writes to different keys can be replayed in any order. -/
theorem replay_perm (map : Finmap fun _ : K => V) {writes others : List (KeyedWrite K V)}
    (nodup : (writes.map KeyedWrite.key).Nodup) (perm : others.Perm writes) :
    replay map others = replay map writes := by
  have othersNodup : (others.map KeyedWrite.key).Nodup :=
    (perm.map KeyedWrite.key).nodup_iff.mpr nodup
  refine Finmap.ext_lookup fun key => ?_
  have sameLast : last key others = last key writes := by
    apply Option.ext
    intro write
    rw [last_eq_some_iff_of_nodup othersNodup, last_eq_some_iff_of_nodup nodup, perm.mem_iff]
  rw [lookup_replay, lookup_replay, sameLast]

/-! ## The last item that gives a value -/

/-- What the last item that gives anything gives. -/
def GivenLast {A : Type u} {B : Type v} (gives : A → B → Prop) (items : List A) (value : B) :
    Prop :=
  ∃ before item after, items = before ++ item :: after ∧ gives item value ∧
    ∀ later ∈ after, ∀ other, ¬gives later other

theorem getLast?_filterMap_eq_some_iff {A : Type u} {B : Type v} {give? : A → Option B}
    {gives : A → B → Prop} (gives_iff : ∀ item value, give? item = some value ↔ gives item value)
    {items : List A} {value : B} :
    (items.filterMap give?).getLast? = some value ↔ GivenLast gives items value := by
  have silent : ∀ item, give? item = none ↔ ∀ other, ¬gives item other := by
    intro item
    simp only [Option.eq_none_iff_forall_ne_some, ne_eq, gives_iff]
  rw [List.getLast?_eq_some_iff]
  constructor
  · rintro ⟨front, split⟩
    rcases List.filterMap_eq_append_iff.mp split with ⟨first, second, rfl, -, rest⟩
    rcases List.filterMap_eq_cons_iff.mp rest with ⟨unused, item, after, rfl, -, given, none'⟩
    refine ⟨first ++ unused, item, after, by simp, (gives_iff item value).mp given, ?_⟩
    intro later laterMem
    exact (silent later).mp (List.filterMap_eq_nil_iff.mp none' later laterMem)
  · rintro ⟨before, item, after, rfl, given, unwritten⟩
    have none' : after.filterMap give? = [] := by
      rw [List.filterMap_eq_nil_iff]
      intro later laterMem
      exact (silent later).mpr (unwritten later laterMem)
    refine ⟨before.filterMap give?, ?_⟩
    rw [List.filterMap_append, List.filterMap_cons_some ((gives_iff item value).mpr given), none']

end KeyedWrite
