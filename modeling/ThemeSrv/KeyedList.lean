import Mathlib.Data.List.Nodup
import Mathlib.Data.Set.Basic

/-!
# Lists of keyed entries

Containers whose entries are told apart by a key: looking an entry up,
removing it, changing it in place.  When no two entries have the same key,
looking up is membership, and all three keep the keys distinct.
-/

namespace KeyedList

variable {Entry Key : Type*} [DecidableEq Key] (key : Entry → Key)

/-- No two entries have the same key. -/
def Distinct (entries : List Entry) : Prop :=
  (entries.map key).Nodup

/-- The entry with a key. -/
def lookup (entries : List Entry) (wanted : Key) : Option Entry :=
  entries.find? fun entry => decide (key entry = wanted)

/-- The other entries. -/
def without (entries : List Entry) (unwanted : Key) : List Entry :=
  entries.filter fun entry => decide (key entry ≠ unwanted)

/-- The entries, the one with a key changed. -/
def changed (entries : List Entry) (wanted : Key) (change : Entry → Entry) : List Entry :=
  entries.map fun entry => if key entry = wanted then change entry else entry

/-- The last entry with a key: what holds after writes in this order. -/
def latest (entries : List Entry) (wanted : Key) : Option Entry :=
  lookup key entries.reverse wanted

variable {key} {entries : List Entry}

omit [DecidableEq Key] in
theorem Distinct.eq_of_key_eq (distinct : Distinct key entries) {entry entry' : Entry}
    (member : entry ∈ entries) (member' : entry' ∈ entries) (same : key entry = key entry') :
    entry = entry' :=
  List.inj_on_of_nodup_map distinct member member' same

theorem key_of_lookup {wanted : Key} {entry : Entry}
    (found : lookup key entries wanted = some entry) : key entry = wanted := by
  simpa using List.find?_some found

theorem mem_of_lookup {wanted : Key} {entry : Entry}
    (found : lookup key entries wanted = some entry) : entry ∈ entries :=
  List.mem_of_find?_eq_some found

theorem lookup_eq_none {wanted : Key} :
    lookup key entries wanted = none ↔ ∀ entry ∈ entries, key entry ≠ wanted := by
  simp [lookup, List.find?_eq_none]

theorem lookup_eq_some (distinct : Distinct key entries) {wanted : Key} {entry : Entry} :
    lookup key entries wanted = some entry ↔ entry ∈ entries ∧ key entry = wanted := by
  constructor
  · intro found
    exact ⟨mem_of_lookup found, key_of_lookup found⟩
  · rintro ⟨member, rfl⟩
    have some : (lookup key entries (key entry)).isSome := by
      apply List.find?_isSome.2
      exact ⟨entry, member, by simp⟩
    obtain ⟨entry', found⟩ := Option.isSome_iff_exists.1 some
    rw [found, distinct.eq_of_key_eq (mem_of_lookup found) member (key_of_lookup found)]

theorem lookup_changed {wanted : Key} {change : Entry → Entry}
    (kept : ∀ entry, key (change entry) = key entry) (other : Key) :
    lookup key (changed key entries wanted change) other =
      (lookup key entries other).map fun entry =>
        if key entry = wanted then change entry else entry := by
  have same : (fun entry => decide (key entry = other)) ∘
      (fun entry => if key entry = wanted then change entry else entry) =
      fun entry => decide (key entry = other) := by
    funext entry
    dsimp only [Function.comp]
    split
    · rw [kept]
    · rfl
  rw [lookup, changed, List.find?_map, same]
  rfl

theorem lookup_append_new (entry : Entry) (wanted : Key) :
    lookup key (entries ++ [entry]) wanted =
      (lookup key entries wanted).or (if key entry = wanted then some entry else none) := by
  rw [lookup, List.find?_append]
  by_cases same : key entry = wanted
  · simp [lookup, same]
  · simp [lookup, same]

theorem latest_append_new (entry : Entry) (wanted : Key) :
    latest key (entries ++ [entry]) wanted =
      if key entry = wanted then some entry else latest key entries wanted := by
  by_cases same : key entry = wanted
  · simp [latest, lookup, same]
  · simp [latest, lookup, same]

theorem key_of_latest {wanted : Key} {entry : Entry}
    (found : latest key entries wanted = some entry) : key entry = wanted :=
  key_of_lookup found

theorem mem_of_latest {wanted : Key} {entry : Entry}
    (found : latest key entries wanted = some entry) : entry ∈ entries :=
  List.mem_reverse.1 (mem_of_lookup found)

theorem exists_latest {entry : Entry} (member : entry ∈ entries) :
    ∃ found, latest key entries (key entry) = some found := by
  apply Option.isSome_iff_exists.1
  apply List.find?_isSome.2
  exact ⟨entry, List.mem_reverse.2 member, by simp⟩

theorem mem_without {unwanted : Key} {entry : Entry} :
    entry ∈ without key entries unwanted ↔ entry ∈ entries ∧ key entry ≠ unwanted := by
  simp [without]

theorem mem_changed {wanted : Key} {change : Entry → Entry} {entry : Entry} :
    entry ∈ changed key entries wanted change ↔
      ∃ old ∈ entries, (if key old = wanted then change old else old) = entry := by
  simp [changed]

/-- Nothing changes where no entry has the key. -/
theorem changed_of_lookup_none {wanted : Key} {change : Entry → Entry}
    (missing : lookup key entries wanted = none) : changed key entries wanted change = entries := by
  have unchanged : ∀ entry ∈ entries,
      (if key entry = wanted then change entry else entry) = entry := by
    intro entry member
    rw [if_neg (lookup_eq_none.1 missing entry member)]
  calc
    changed key entries wanted change = entries.map id := List.map_congr_left unchanged
    _ = entries := List.map_id entries

/-- What was changed and is then removed need not be changed. -/
theorem without_changed {wanted : Key} {change : Entry → Entry}
    (kept : ∀ entry, key (change entry) = key entry) :
    without key (changed key entries wanted change) wanted = without key entries wanted := by
  induction entries with
  | nil => rfl
  | cons entry entries ih =>
      simp only [without, changed, ne_eq, decide_not] at ih
      by_cases same : key entry = wanted
      · simp [without, changed, same, kept, ih]
      · simp [without, changed, same, ih]

theorem without_append_new {entry : Entry} (unused : ∀ other ∈ entries, key other ≠ key entry) :
    without key (entries ++ [entry]) (key entry) = entries := by
  have kept : entries.filter (fun other => decide (key other ≠ key entry)) = entries := by
    apply List.filter_eq_self.2
    intro other member
    simpa using unused other member
  rw [without, List.filter_append, kept]
  simp

/-! ### Two places -/

theorem without_comm (unwanted unwanted' : Key) :
    without key (without key entries unwanted) unwanted' =
      without key (without key entries unwanted') unwanted :=
  List.filter_comm _ _ _

theorem changed_comm {wanted wanted' : Key} {change change' : Entry → Entry}
    (kept : ∀ entry, key (change entry) = key entry)
    (kept' : ∀ entry, key (change' entry) = key entry) (apart : wanted ≠ wanted') :
    changed key (changed key entries wanted change) wanted' change' =
      changed key (changed key entries wanted' change') wanted change := by
  simp only [changed, List.map_map]
  apply List.map_congr_left
  intro entry member
  dsimp only [Function.comp]
  by_cases first : key entry = wanted
  · have second : key entry ≠ wanted' := first ▸ apart
    simp [first, kept, apart]
  · by_cases second : key entry = wanted'
    · simp [second, kept', apart.symm]
    · simp [first, second]

theorem without_changed_comm {wanted unwanted : Key} {change : Entry → Entry}
    (kept : ∀ entry, key (change entry) = key entry) :
    without key (changed key entries wanted change) unwanted =
      changed key (without key entries unwanted) wanted change := by
  rw [without, changed, List.filter_map]
  apply congrArg
  apply List.filter_congr
  intro entry member
  dsimp only [Function.comp]
  split
  · rw [kept]
  · rfl

theorem without_append_other {entry : Entry} {unwanted : Key} (apart : key entry ≠ unwanted) :
    without key (entries ++ [entry]) unwanted = without key entries unwanted ++ [entry] := by
  simp [without, apart]

theorem changed_append_other {entry : Entry} {wanted : Key} {change : Entry → Entry}
    (apart : key entry ≠ wanted) :
    changed key (entries ++ [entry]) wanted change =
      changed key entries wanted change ++ [entry] := by
  simp [changed, apart]

omit [DecidableEq Key] in
theorem Distinct.append_new (distinct : Distinct key entries) {entry : Entry}
    (unused : ∀ other ∈ entries, key other ≠ key entry) : Distinct key (entries ++ [entry]) := by
  have apart : List.Disjoint (entries.map key) [key entry] := by
    intro k member single
    obtain ⟨other, otherMember, rfl⟩ := List.mem_map.1 member
    exact unused other otherMember (List.mem_singleton.1 single)
  simpa [Distinct] using List.Nodup.append distinct (List.nodup_singleton (key entry)) apart

omit [DecidableEq Key] in
theorem Distinct.filter (distinct : Distinct key entries) (keep : Entry → Bool) :
    Distinct key (entries.filter keep) :=
  List.Nodup.sublist (List.filter_sublist.map key) distinct

theorem Distinct.changed {Other : Type*} {other : Entry → Other} (distinct : Distinct other entries)
    {wanted : Key} {change : Entry → Entry} (kept : ∀ entry, other (change entry) = other entry) :
    Distinct other (changed key entries wanted change) := by
  have same : (KeyedList.changed key entries wanted change).map other = entries.map other := by
    rw [KeyedList.changed, List.map_map]
    apply List.map_congr_left
    intro entry member
    dsimp only [Function.comp]
    split
    · exact kept entry
    · rfl
  unfold Distinct
  rw [same]
  exact distinct

end KeyedList
