import ThemeSrv.ConfigLines
import ThemeSrv.ConfigTables

/-!
# Writing a configuration and reading it back

A written file is read back into a fresh parser item by item.  A value with a
bracketed text is taken for a section: it is lost, and what follows it in its
section is filed under the section it names.  So a configuration comes back
just when, for every item, the last value that is filed under its name is its
own, or none is and it has its default.
-/

namespace ThemeSrv

/-- A value, and the item it is filed under. -/
structure Filing where
  sectionName : Text
  key : Text
  value : Text
  deriving DecidableEq, Repr

def Filing.place (filing : Filing) : Text × Text :=
  (foldCase filing.sectionName, foldCase filing.key)

/-- The values without brackets, filed under the last bracketed value in front
of them, or under the section itself. -/
def fileEntries (name : Text) : List ConfigEntry → List Filing
  | [] => []
  | entry :: entries =>
      match bracketName entry.value with
      | some bracketed => fileEntries bracketed entries
      | none => ⟨name, entry.key, entry.value⟩ :: fileEntries name entries

namespace ConfigParser

def filings (parser : ConfigParser) : List Filing :=
  parser.sections.flatMap fun node => fileEntries node.name node.entries

/-- The last value filed under an item, as the reader stores it; otherwise the
default. -/
def filedValue (parser : ConfigParser) (name : Text) (entry : ConfigEntry) : Text :=
  match KeyedList.latest Filing.place parser.filings (foldCase name, foldCase entry.key) with
  | some filing => storedValue entry.item.valueType filing.value
  | none => entry.item.value

/-- Every item has the last value filed under it. -/
def Harmless (parser : ConfigParser) : Prop :=
  ∀ node ∈ parser.sections, ∀ entry ∈ node.entries,
    parser.filedValue node.name entry = entry.value

instance (parser : ConfigParser) : Decidable parser.Harmless :=
  inferInstanceAs (Decidable (∀ node ∈ parser.sections, ∀ entry ∈ node.entries,
    parser.filedValue node.name entry = entry.value))

/-- No value holds a text in brackets. -/
def Unbracketed (parser : ConfigParser) : Prop :=
  ∀ node ∈ parser.sections, ∀ entry ∈ node.entries, bracketName entry.value = none

/-- What is written and read into a fresh parser has the same values. -/
def Restored (parser : ConfigParser) (table : List ConfigItem) : Prop :=
  ∀ fresh : ConfigParser, fresh.Over table → fresh.AtDefaults → ∀ name key,
    ((fresh.read (some parser.write)).2.findItem name key).map ConfigEntry.value =
      (parser.findItem name key).map ConfigEntry.value

/-! ### Reading as filing -/

def file (parser : ConfigParser) (filing : Filing) : ConfigParser :=
  parser.store filing.sectionName filing.key fun entry =>
    storedValue entry.item.valueType filing.value

/-- The section a header or a bracketed value leaves current. -/
def named (parser : ConfigParser) (name : Text) : Option Text :=
  (parser.findSection name).map fun _ => name

theorem named_file (parser : ConfigParser) (filing : Filing) (name : Text) :
    (parser.file filing).named name = parser.named name := by
  have same := findSection_store parser filing.sectionName filing.key name
    fun entry => storedValue entry.item.valueType filing.value
  unfold named file
  cases before : parser.findSection name with
  | none =>
      rw [before] at same
      rw [Option.isSome_eq_false_iff.1 same |> Option.isNone_iff_eq_none.1]
  | some node =>
      rw [before] at same
      obtain ⟨after, found⟩ := Option.isSome_iff_exists.1 same
      rw [found]
      rfl

/-- What is filed under a section that is not there is ignored. -/
theorem setRead_named (parser : ConfigParser) (name key value : Text) :
    parser.setRead (parser.named name) key value = parser.file ⟨name, key, value⟩ := by
  unfold named
  cases found : parser.findSection name with
  | some node => rfl
  | none =>
      have same : parser.file ⟨name, key, value⟩ = parser := by
        rw [file, store, modifySection, KeyedList.changed_of_lookup_none found]
      rw [same]
      rfl

theorem foldl_readEntry (entries : List ConfigEntry) (parser : ConfigParser) (name : Text) :
    (entries.foldl readEntry (parser, parser.named name)).1 =
      (fileEntries name entries).foldl file parser := by
  induction entries generalizing parser name with
  | nil => rfl
  | cons entry entries ih =>
      rw [List.foldl_cons, readEntry, fileEntries]
      cases bracketName entry.value with
      | some bracketed => exact ih parser bracketed
      | none =>
          simp only [setRead_named]
          rw [← named_file parser ⟨name, entry.key, entry.value⟩, ih]
          rfl

theorem foldl_readSection (sections : List ConfigSection) (reading : ConfigReading) :
    (sections.foldl readSection reading).1 =
      (sections.flatMap fun node => fileEntries node.name node.entries).foldl file reading.1 := by
  induction sections generalizing reading with
  | nil => rfl
  | cons node sections ih =>
      rw [List.foldl_cons, ih, List.flatMap_cons, List.foldl_append]
      congr 1
      exact foldl_readEntry node.entries reading.1 node.name

/-- Of what is filed under an item, the last is stored. -/
theorem findItem_foldl_file (filings : List Filing) (parser : ConfigParser) (name key : Text) :
    (filings.foldl file parser).findItem name key =
      (parser.findItem name key).map fun entry =>
        match KeyedList.latest Filing.place filings (foldCase name, foldCase key) with
        | some filing => { entry with value := storedValue entry.item.valueType filing.value }
        | none => entry := by
  induction filings using List.reverseRecOn with
  | nil => simp [KeyedList.latest, KeyedList.lookup]
  | append_singleton filings filing ih =>
      rw [List.foldl_append, List.foldl_cons, List.foldl_nil, file, findItem_store, ih,
        Option.map_map, KeyedList.latest_append_new]
      congr 1
      funext entry
      by_cases here : filing.place = (foldCase name, foldCase key)
      · have stored : (foldCase filing.sectionName, foldCase filing.key) =
            (foldCase name, foldCase key) := here
        simp only [Function.comp, here, stored, if_true]
        cases KeyedList.latest Filing.place filings (foldCase name, foldCase key) <;> rfl
      · have notStored : (foldCase filing.sectionName, foldCase filing.key) ≠
            (foldCase name, foldCase key) := here
        simp only [Function.comp, here, notStored, if_false]

/-! ### The table of the daemon -/

theorem daemonConfig_names : ∀ item ∈ daemonConfig, ∀ c ∈ item.sectionName, isWordChar c := by
  have letters : ∀ item ∈ daemonConfig, item.sectionName.all isWordChar := by decide +kernel
  intro item member
  exact List.all_eq_true.1 (letters item member)

theorem daemonConfig_keys : ∀ item ∈ daemonConfig, IsWord item.key := by
  have nonempty : ∀ item ∈ daemonConfig, item.key ≠ [] := by decide +kernel
  have letters : ∀ item ∈ daemonConfig, item.key.all isWordChar := by decide +kernel
  intro item member
  exact ⟨nonempty item member, List.all_eq_true.1 (letters item member)⟩

/-- The daemon's configuration with an address for its clients. -/
def withAuthaddr (address : Text) : ConfigParser :=
  (new daemonConfig).store "gate".toList "authaddr".toList fun _ => address

theorem withAuthaddr_reached (address : Text) : Reached daemonConfig (withAuthaddr address) := by
  have isString : ((new daemonConfig).findItem "gate".toList "authaddr".toList).map
      (fun entry => entry.item.valueType) = some .string := by decide +kernel
  obtain ⟨entry, found, typed⟩ := Option.map_eq_some_iff.1 isString
  have set : setString .debug (new daemonConfig) "gate".toList "authaddr".toList address =
      .ok (withAuthaddr address) := by
    simp only [setString, setAs, found, typed]
    rfl
  exact Reached.set Reached.new set

/-! ### Round trips -/

variable {table : List ConfigItem} {parser : ConfigParser}

theorem Over.writable (overTable : parser.Over table)
    (names : ∀ item ∈ table, ∀ c ∈ item.sectionName, isWordChar c)
    (keys : ∀ item ∈ table, IsWord item.key)
    (plain : ∀ node ∈ parser.sections, ∀ entry ∈ node.entries, IsPlain entry.value) :
    ∀ node ∈ parser.sections, node.IsWritable := by
  intro node member
  constructor
  · obtain ⟨item, itemMember, spelled⟩ := overTable.namesSpelled node member
    rw [← spelled]
    exact names item itemMember
  · intro entry entryMember
    constructor
    · obtain ⟨item, itemMember, spelled⟩ := overTable.keysSpelled node member entry entryMember
      rw [← spelled]
      exact keys item itemMember
    · exact plain node member entry entryMember

/-- The defaults of an item that is in a parser are those of a fresh parser. -/
theorem Over.findItem_fresh (overTable : parser.Over table) {fresh : ConfigParser}
    (freshOver : fresh.Over table) (atDefaults : fresh.AtDefaults) {name key : Text} :
    (fresh.findItem name key).map (fun entry => (entry.item, entry.value)) =
      (parser.findItem name key).map fun entry => (entry.item, entry.item.value) := by
  have same : (fresh.findItem name key).map ConfigEntry.item =
      (parser.findItem name key).map ConfigEntry.item := by
    rw [overTable.defined, freshOver.defined]
  cases found : fresh.findItem name key with
  | none =>
      rw [found, Option.map_none] at same
      rw [Option.map_eq_none_iff.1 same.symm]
      rfl
  | some fresh' =>
      rw [found, Option.map_some] at same
      obtain ⟨entry, foundEntry, sameItem⟩ := Option.map_eq_some_iff.1 same.symm
      obtain ⟨node, member, -, entryMember, -⟩ := freshOver.findItem_eq_some.1 found
      rw [foundEntry, Option.map_some, Option.map_some, sameItem,
        atDefaults node member fresh' entryMember]

/-- What is read back: for every item the last value filed under it. -/
theorem Over.findItem_restored (overTable : parser.Over table)
    (names : ∀ item ∈ table, ∀ c ∈ item.sectionName, isWordChar c)
    (keys : ∀ item ∈ table, IsWord item.key)
    (plain : ∀ node ∈ parser.sections, ∀ entry ∈ node.entries, IsPlain entry.value)
    {fresh : ConfigParser} (freshOver : fresh.Over table) (atDefaults : fresh.AtDefaults)
    (name key : Text) :
    ((fresh.read (some parser.write)).2.findItem name key).map ConfigEntry.value =
      (parser.findItem name key).map fun entry => parser.filedValue name entry := by
  have defaults : (fresh.findItem name key).map _ = (parser.findItem name key).map _ :=
    overTable.findItem_fresh freshOver atDefaults
  have filed : (fresh.read (some parser.write)).2 = parser.filings.foldl file fresh := by
    rw [read_write (overTable.writable names keys plain)]
    exact foldl_readSection parser.sections (fresh, none)
  rw [filed, findItem_foldl_file, Option.map_map]
  cases found : parser.findItem name key with
  | none =>
      rw [found, Option.map_none, Option.map_eq_none_iff] at defaults
      rw [defaults]
      rfl
  | some entry =>
      obtain ⟨node, -, -, -, keyed⟩ := overTable.findItem_eq_some.1 found
      rw [found, Option.map_some] at defaults
      obtain ⟨fresh', foundFresh, same⟩ := Option.map_eq_some_iff.1 defaults
      obtain ⟨sameItem, value⟩ := Prod.mk.inj same
      rw [foundFresh, Option.map_some, Option.map_some, filedValue, ← keyed]
      simp only [Function.comp, ConfigEntry.foldedKey]
      cases KeyedList.latest Filing.place parser.filings (foldCase name, foldCase entry.key) with
      | none => simp only [value]
      | some filing => simp only [sameItem]

/-- A configuration is restored exactly when every item has the last value
that is filed under it. -/
theorem restored_iff (names : ∀ item ∈ table, ∀ c ∈ item.sectionName, isWordChar c)
    (keys : ∀ item ∈ table, IsWord item.key) (overTable : parser.Over table)
    (plain : ∀ node ∈ parser.sections, ∀ entry ∈ node.entries, IsPlain entry.value) :
    parser.Restored table ↔ parser.Harmless := by
  constructor
  · intro restored node member entry entryMember
    have found : parser.findItem node.name entry.key = some entry :=
      overTable.findItem_eq_some.2 ⟨node, member, rfl, entryMember, rfl⟩
    have back := restored (new table) (over_new table) (atDefaults_new table) node.name entry.key
    rw [overTable.findItem_restored names keys plain (over_new table) (atDefaults_new table), found,
      Option.map_some, Option.map_some] at back
    exact Option.some.inj back
  · intro harmless fresh freshOver atDefaults name key
    rw [overTable.findItem_restored names keys plain freshOver atDefaults]
    cases found : parser.findItem name key with
    | none => rfl
    | some entry =>
        obtain ⟨node, member, named, entryMember, -⟩ := overTable.findItem_eq_some.1 found
        have own := harmless node member entry entryMember
        have same : foldCase node.name = foldCase name := named
        rw [filedValue, same] at own
        rw [Option.map_some, Option.map_some, filedValue, own]

theorem restored_new_address :
    (withAuthaddr "10.0.0.1".toList).Restored daemonConfig :=
  (restored_iff daemonConfig_names daemonConfig_keys
    (withAuthaddr_reached "10.0.0.1".toList).overTable (by decide +kernel)).2 (by decide +kernel)

/-- An IPv6 address in brackets is not restored. -/
theorem not_restored_every_value :
    ¬ ∀ (table : List ConfigItem) (parser : ConfigParser),
      (∀ item ∈ table, ∀ c ∈ item.sectionName, isWordChar c) →
      (∀ item ∈ table, IsWord item.key) → Reached table parser →
      (∀ node ∈ parser.sections, ∀ entry ∈ node.entries,
        IsPlain entry.value ∧ (entry.item.valueType ≠ .string → entry.value ≠ [])) →
      parser.Restored table := by
  intro claim
  have plain : ∀ node ∈ (withAuthaddr "[::1]".toList).sections, ∀ entry ∈ node.entries,
      IsPlain entry.value ∧ (entry.item.valueType ≠ .string → entry.value ≠ []) := by
    decide +kernel
  have reached := withAuthaddr_reached "[::1]".toList
  have restored := claim daemonConfig (withAuthaddr "[::1]".toList) daemonConfig_names
    daemonConfig_keys reached plain
  have back := restored (new daemonConfig) (over_new daemonConfig) (atDefaults_new daemonConfig)
    "gate".toList "authaddr".toList
  rw [reached.overTable.findItem_restored daemonConfig_names daemonConfig_keys
    (fun node member entry entryMember => (plain node member entry entryMember).1)
    (over_new daemonConfig) (atDefaults_new daemonConfig)] at back
  revert back
  decide +kernel

theorem mem_fileEntries {name : Text} {entries : List ConfigEntry} {filing : Filing}
    (unbracketed : ∀ entry ∈ entries, bracketName entry.value = none) :
    filing ∈ fileEntries name entries ↔
      ∃ entry ∈ entries, filing = ⟨name, entry.key, entry.value⟩ := by
  induction entries with
  | nil => simp [fileEntries]
  | cons entry entries ih =>
      obtain ⟨first, others⟩ := List.forall_mem_cons.1 unbracketed
      simp [fileEntries, first, ih others]

/-- Where no value holds a text in brackets, every item is restored. -/
theorem Unbracketed.harmless (unbracketed : parser.Unbracketed) (overTable : parser.Over table)
    (stored : ∀ node ∈ parser.sections, ∀ entry ∈ node.entries,
      entry.item.valueType ≠ .string → entry.value ≠ []) : parser.Harmless := by
  have origin {filing : Filing} : filing ∈ parser.filings ↔ ∃ node ∈ parser.sections,
      ∃ entry ∈ node.entries, filing = ⟨node.name, entry.key, entry.value⟩ := by
    rw [filings, List.mem_flatMap]
    constructor
    · rintro ⟨node, member, filed⟩
      exact ⟨node, member, (mem_fileEntries (unbracketed node member)).1 filed⟩
    · rintro ⟨node, member, filed⟩
      exact ⟨node, member, (mem_fileEntries (unbracketed node member)).2 filed⟩
  intro node member entry entryMember
  have filed : Filing.mk node.name entry.key entry.value ∈ parser.filings :=
    origin.2 ⟨node, member, entry, entryMember, rfl⟩
  obtain ⟨filing, latest⟩ : ∃ filing, KeyedList.latest Filing.place parser.filings
      (foldCase node.name, foldCase entry.key) = some filing := KeyedList.exists_latest filed
  obtain ⟨node', member', entry', entryMember', rfl⟩ := origin.1 (KeyedList.mem_of_latest latest)
  have samePlace : Filing.place ⟨node'.name, entry'.key, entry'.value⟩ =
      (foldCase node.name, foldCase entry.key) := KeyedList.key_of_latest latest
  obtain ⟨sameName, sameKey⟩ := Prod.mk.inj samePlace
  obtain rfl := overTable.names.eq_of_key_eq member' member sameName
  obtain rfl := (overTable.keys node' member).eq_of_key_eq entryMember' entryMember sameKey
  rw [filedValue, latest]
  have kept := stored node' member entry' entryMember
  by_cases isString : entry'.item.valueType = .string
  · simp [storedValue, isString]
  · simp [storedValue, kept isString]

end ConfigParser

end ThemeSrv
