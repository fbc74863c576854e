import ThemeSrv.ConfigParser

/-!
# Parsers over a table of definitions

Which items a parser holds depends on its table alone: setting and reading
values keeps the names, the keys and the definitions.  The order in which the
maps are iterated is not part of it.
-/

namespace ThemeSrv

/-- What tells items apart. -/
def ConfigItem.place (item : ConfigItem) : Text × Text :=
  (foldCase item.sectionName, foldCase item.key)

/-- The definition of an item: a later one in the table replaces an earlier one. -/
def definition (table : List ConfigItem) (name key : Text) : Option ConfigItem :=
  KeyedList.latest ConfigItem.place table (foldCase name, foldCase key)

/-- The parser holds the items of the table, in any order and with any values. -/
structure ConfigParser.Over (table : List ConfigItem) (parser : ConfigParser) : Prop where
  names : KeyedList.Distinct ConfigSection.foldedName parser.sections
  keys : ∀ node ∈ parser.sections, KeyedList.Distinct ConfigEntry.foldedKey node.entries
  declared : ∀ name, (parser.findSection name).isSome ↔
    ∃ item ∈ table, foldCase item.sectionName = foldCase name
  defined : ∀ name key, (parser.findItem name key).map ConfigEntry.item = definition table name key
  namesSpelled : ∀ node ∈ parser.sections, ∃ item ∈ table, item.sectionName = node.name
  keysSpelled : ∀ node ∈ parser.sections, ∀ entry ∈ node.entries,
    ∃ item ∈ table, item.key = entry.key

/-- Every item has the value its definition gives it. -/
def ConfigParser.AtDefaults (parser : ConfigParser) : Prop :=
  ∀ node ∈ parser.sections, ∀ entry ∈ node.entries, entry.value = entry.item.value

namespace ConfigParser

/-! ### Storing a value -/

theorem findSection_modifySection {change : ConfigSection → ConfigSection}
    (kept : ∀ node, (change node).foldedName = node.foldedName) (parser : ConfigParser)
    (name other : Text) :
    (parser.modifySection name change).findSection other =
      (parser.findSection other).map fun node =>
        if node.foldedName = foldCase name then change node else node :=
  KeyedList.lookup_changed kept _

theorem find_modify {change : ConfigEntry → ConfigEntry}
    (kept : ∀ entry, (change entry).foldedKey = entry.foldedKey) (node : ConfigSection)
    (key other : Text) :
    (node.modify key change).find other =
      (node.find other).map fun entry =>
        if entry.foldedKey = foldCase key then change entry else entry :=
  KeyedList.lookup_changed kept _

theorem foldedName_of_findSection {parser : ConfigParser} {name : Text} {node : ConfigSection}
    (found : parser.findSection name = some node) : node.foldedName = foldCase name :=
  KeyedList.key_of_lookup found

theorem foldedKey_of_find {node : ConfigSection} {key : Text} {entry : ConfigEntry}
    (found : node.find key = some entry) : entry.foldedKey = foldCase key :=
  KeyedList.key_of_lookup found

theorem findSection_congr (parser : ConfigParser) {name other : Text}
    (same : foldCase name = foldCase other) :
    parser.findSection name = parser.findSection other := by
  rw [findSection, same, findSection]

theorem findSection_store (parser : ConfigParser) (name key other : Text)
    (value : ConfigEntry → Text) :
    ((parser.store name key value).findSection other).isSome =
      (parser.findSection other).isSome := by
  rw [store, findSection_modifySection (by intro node; rfl), Option.isSome_map]

theorem findItem_store (parser : ConfigParser) (name key : Text) (value : ConfigEntry → Text)
    (otherName otherKey : Text) :
    (parser.store name key value).findItem otherName otherKey =
      (parser.findItem otherName otherKey).map fun entry =>
        if (foldCase name, foldCase key) = (foldCase otherName, foldCase otherKey) then
          { entry with value := value entry }
        else entry := by
  rw [findItem, store, findSection_modifySection (by intro node; rfl), findItem]
  cases found : parser.findSection otherName with
  | none => rfl
  | some node =>
      have named := foldedName_of_findSection found
      by_cases sameName : foldCase name = foldCase otherName
      · have modified : node.foldedName = foldCase name := by rw [named, sameName]
        simp only [Option.map_some, modified, if_true, Option.bind_some]
        rw [find_modify (by intro entry; rfl)]
        cases foundEntry : node.find otherKey with
        | none => rfl
        | some entry =>
            have keyed := foldedKey_of_find foundEntry
            simp [keyed, sameName, eq_comm]
      · have unmodified : node.foldedName ≠ foldCase name := by
          rw [named]
          exact Ne.symm sameName
        simp [unmodified, sameName]

theorem mem_store {parser : ConfigParser} {name key : Text} {value : ConfigEntry → Text}
    {node : ConfigSection} (member : node ∈ (parser.store name key value).sections) :
    ∃ old ∈ parser.sections, old.name = node.name ∧
      (node.entries = old.entries ∨ node.entries =
        KeyedList.changed ConfigEntry.foldedKey old.entries (foldCase key)
          fun entry => { entry with value := value entry }) := by
  obtain ⟨old, oldMember, rfl⟩ := KeyedList.mem_changed.1 member
  refine ⟨old, oldMember, ?_⟩
  split
  · exact ⟨rfl, Or.inr rfl⟩
  · exact ⟨rfl, Or.inl rfl⟩

theorem Over.store {table : List ConfigItem} {parser : ConfigParser} (overTable : parser.Over table)
    (name key : Text) (value : ConfigEntry → Text) :
    (parser.store name key value).Over table where
  names := overTable.names.changed fun _ => rfl
  keys := by
    intro node member
    obtain ⟨old, oldMember, -, same | changed⟩ := mem_store member
    · rw [same]
      exact overTable.keys old oldMember
    · rw [changed]
      exact (overTable.keys old oldMember).changed fun _ => rfl
  declared := by
    intro other
    rw [findSection_store]
    exact overTable.declared other
  defined := by
    intro otherName otherKey
    rw [findItem_store, Option.map_map, ← overTable.defined]
    congr 1
    funext entry
    dsimp only [Function.comp]
    split <;> rfl
  namesSpelled := by
    intro node member
    obtain ⟨old, oldMember, same, -⟩ := mem_store member
    rw [← same]
    exact overTable.namesSpelled old oldMember
  keysSpelled := by
    intro node member entry entryMember
    obtain ⟨old, oldMember, -, same | changed⟩ := mem_store member
    · rw [same] at entryMember
      exact overTable.keysSpelled old oldMember entry entryMember
    · rw [changed] at entryMember
      obtain ⟨oldEntry, oldEntryMember, rfl⟩ := KeyedList.mem_changed.1 entryMember
      obtain ⟨item, itemMember, spelled⟩ := overTable.keysSpelled old oldMember oldEntry oldEntryMember
      exact ⟨item, itemMember, by split <;> exact spelled⟩

/-- The entries of a parser are the ones that are found. -/
theorem Over.findItem_eq_some {table : List ConfigItem} {parser : ConfigParser}
    (overTable : parser.Over table) {name key : Text} {entry : ConfigEntry} :
    parser.findItem name key = some entry ↔ ∃ node ∈ parser.sections,
      node.foldedName = foldCase name ∧ entry ∈ node.entries ∧
        entry.foldedKey = foldCase key := by
  rw [findItem, Option.bind_eq_some_iff]
  constructor
  · rintro ⟨node, found, foundEntry⟩
    exact ⟨node, KeyedList.mem_of_lookup found, foldedName_of_findSection found,
      KeyedList.mem_of_lookup foundEntry, foldedKey_of_find foundEntry⟩
  · rintro ⟨node, member, named, entryMember, keyed⟩
    exact ⟨node, (KeyedList.lookup_eq_some overTable.names).2 ⟨member, named⟩,
      (KeyedList.lookup_eq_some (overTable.keys node member)).2 ⟨entryMember, keyed⟩⟩

/-! ### Defining an item -/

theorem assign_name (node : ConfigSection) (item : ConfigItem) :
    (node.assign item).name = node.name := by
  unfold ConfigSection.assign
  split <;> rfl

theorem mem_assign {node : ConfigSection} {item : ConfigItem} {entry : ConfigEntry}
    (member : entry ∈ (node.assign item).entries) :
    entry ∈ node.entries ∨
      (entry.item = item ∧ entry.value = item.value ∧
        (entry.key = item.key ∨ ∃ old ∈ node.entries, entry.key = old.key)) := by
  unfold ConfigSection.assign at member
  cases found : node.find item.key with
  | none =>
      simp only [found] at member
      rcases List.mem_append.1 member with old | new
      · exact Or.inl old
      · rw [List.mem_singleton.1 new]
        exact Or.inr ⟨rfl, rfl, Or.inl rfl⟩
  | some _ =>
      simp only [found] at member
      obtain ⟨old, oldMember, rfl⟩ := KeyedList.mem_changed.1 member
      split
      · exact Or.inr ⟨rfl, rfl, Or.inr ⟨old, oldMember, rfl⟩⟩
      · exact Or.inl oldMember

theorem distinct_assign {node : ConfigSection}
    (distinct : KeyedList.Distinct ConfigEntry.foldedKey node.entries) (item : ConfigItem) :
    KeyedList.Distinct ConfigEntry.foldedKey (node.assign item).entries := by
  unfold ConfigSection.assign
  cases found : node.find item.key with
  | none =>
      exact distinct.append_new (KeyedList.lookup_eq_none.1 found)
  | some _ => exact distinct.changed fun _ => rfl

theorem find_assign (node : ConfigSection) (item : ConfigItem) (other : Text) :
    ((node.assign item).find other).map ConfigEntry.item =
      if foldCase item.key = foldCase other then some item
      else (node.find other).map ConfigEntry.item := by
  unfold ConfigSection.assign
  cases found : node.find item.key with
  | none =>
      have added : KeyedList.lookup ConfigEntry.foldedKey
          (node.entries ++ [⟨item.key, item, item.value⟩]) (foldCase other) = _ :=
        KeyedList.lookup_append_new _ _
      by_cases same : foldCase item.key = foldCase other
      · have missing : KeyedList.lookup ConfigEntry.foldedKey node.entries (foldCase other) =
            none := by
          rw [← same]
          exact found
        simp [ConfigSection.find, added, missing, ConfigEntry.foldedKey, same]
      · simp [ConfigSection.find, added, ConfigEntry.foldedKey, same]
  | some old =>
      rw [find_modify (by intro entry; rfl)]
      by_cases same : foldCase item.key = foldCase other
      · have foundOther : node.find other = some old := by
          rw [← found, ConfigSection.find, ← same, ConfigSection.find]
        have keyed := foldedKey_of_find found
        simp [foundOther, keyed, same]
      · cases foundOther : node.find other with
        | none => simp [same]
        | some entry =>
            have keyed := foldedKey_of_find foundOther
            have unchanged : entry.foldedKey ≠ foldCase item.key := by
              rw [keyed]
              exact Ne.symm same
            simp [same, unchanged]

theorem findSection_withSection (parser : ConfigParser) (name other : Text) :
    (parser.withSection name).findSection other =
      (parser.findSection other).or
        (if foldCase name = foldCase other then some ⟨name, []⟩ else none) := by
  unfold withSection
  cases found : parser.findSection name with
  | none => exact KeyedList.lookup_append_new ..
  | some node =>
      by_cases same : foldCase name = foldCase other
      · have foundOther : parser.findSection other = some node := by
          rw [← found, findSection_congr parser same]
        simp [foundOther]
      · simp [same]

theorem findSection_define (parser : ConfigParser) (item : ConfigItem) (other : Text) :
    (parser.define item).findSection other =
      if foldCase item.sectionName = foldCase other then
        some (((parser.findSection other).getD ⟨item.sectionName, []⟩).assign item)
      else parser.findSection other := by
  have kept (node : ConfigSection) : (node.assign item).foldedName = node.foldedName := by
    rw [ConfigSection.foldedName, assign_name, ConfigSection.foldedName]
  rw [define, findSection_modifySection kept, findSection_withSection]
  by_cases same : foldCase item.sectionName = foldCase other
  · cases found : parser.findSection other with
    | none => simp [same, ConfigSection.foldedName]
    | some node =>
        have named := foldedName_of_findSection found
        simp [same, named]
  · cases found : parser.findSection other with
    | none => simp [same]
    | some node =>
        have named := foldedName_of_findSection found
        simp [same, named, Ne.symm same]

theorem findItem_define (parser : ConfigParser) (item : ConfigItem) (name key : Text) :
    ((parser.define item).findItem name key).map ConfigEntry.item =
      if item.place = (foldCase name, foldCase key) then some item
      else (parser.findItem name key).map ConfigEntry.item := by
  rw [findItem, findSection_define]
  by_cases sameName : foldCase item.sectionName = foldCase name
  · simp only [sameName, if_true, Option.bind_some, find_assign]
    by_cases sameKey : foldCase item.key = foldCase key
    · simp [ConfigItem.place, sameName, sameKey]
    · cases found : parser.findSection name with
      | none => simp [findItem, ConfigItem.place, sameKey, found, ConfigSection.find, KeyedList.lookup]
      | some node => simp [findItem, ConfigItem.place, sameKey, found]
  · simp [findItem, ConfigItem.place, sameName]

theorem mem_define {parser : ConfigParser} {item : ConfigItem} {node : ConfigSection}
    (member : node ∈ (parser.define item).sections) :
    ∃ old, (old ∈ parser.sections ∨ old = ⟨item.sectionName, []⟩) ∧
      (node = old ∨ node = old.assign item) := by
  obtain ⟨old, oldMember, rfl⟩ := KeyedList.mem_changed.1 member
  have origin : old ∈ parser.sections ∨ old = ⟨item.sectionName, []⟩ := by
    unfold withSection at oldMember
    cases found : parser.findSection item.sectionName with
    | none => simpa [found] using oldMember
    | some _ => exact Or.inl (by simpa [found] using oldMember)
  refine ⟨old, origin, ?_⟩
  split
  · exact Or.inr rfl
  · exact Or.inl rfl

/-! ### What keeps a parser over its table -/

theorem over_nil : (ConfigParser.mk []).Over [] where
  names := List.nodup_nil
  keys := by simp
  declared := by simp [findSection, KeyedList.lookup]
  defined := by simp [findItem, findSection, KeyedList.lookup, definition, KeyedList.latest]
  namesSpelled := by simp
  keysSpelled := by simp

theorem Over.define {table : List ConfigItem} {parser : ConfigParser} (overTable : parser.Over table)
    (item : ConfigItem) : (parser.define item).Over (table ++ [item]) where
  names := by
    have kept (node : ConfigSection) : (node.assign item).foldedName = node.foldedName := by
      rw [ConfigSection.foldedName, assign_name, ConfigSection.foldedName]
    apply KeyedList.Distinct.changed _ kept
    unfold withSection
    cases found : parser.findSection item.sectionName with
    | none =>
        exact overTable.names.append_new (KeyedList.lookup_eq_none.1 found)
    | some _ => exact overTable.names
  keys := by
    intro node member
    obtain ⟨old, origin, same⟩ := mem_define member
    have distinct : KeyedList.Distinct ConfigEntry.foldedKey old.entries := by
      rcases origin with oldMember | rfl
      · exact overTable.keys old oldMember
      · exact List.nodup_nil
    rcases same with rfl | rfl
    · exact distinct
    · exact distinct_assign distinct item
  declared := by
    intro other
    rw [findSection_define]
    by_cases same : foldCase item.sectionName = foldCase other
    · simp [same]
    · simp [same, overTable.declared]
  defined := by
    intro name key
    rw [findItem_define, overTable.defined, definition, definition, KeyedList.latest_append_new]
  namesSpelled := by
    intro node member
    obtain ⟨old, origin, same⟩ := mem_define member
    have name : node.name = old.name := by
      rcases same with rfl | rfl
      · rfl
      · exact assign_name old item
    rw [name]
    rcases origin with oldMember | rfl
    · obtain ⟨definer, definerMember, spelled⟩ := overTable.namesSpelled old oldMember
      exact ⟨definer, List.mem_append_left _ definerMember, spelled⟩
    · exact ⟨item, by simp, rfl⟩
  keysSpelled := by
    intro node member entry entryMember
    obtain ⟨old, origin, same⟩ := mem_define member
    have spelledBefore : ∀ entry ∈ old.entries, ∃ definer ∈ table ++ [item],
        definer.key = entry.key := by
      intro entry entryMember
      rcases origin with oldMember | rfl
      · obtain ⟨definer, definerMember, spelled⟩ :=
          overTable.keysSpelled old oldMember entry entryMember
        exact ⟨definer, List.mem_append_left _ definerMember, spelled⟩
      · cases entryMember
    rcases same with rfl | rfl
    · exact spelledBefore entry entryMember
    · rcases mem_assign entryMember with before | ⟨-, -, spelled | ⟨old, oldMember, spelled⟩⟩
      · exact spelledBefore entry before
      · exact ⟨item, by simp, spelled.symm⟩
      · rw [spelled]
        exact spelledBefore old oldMember

/-- The constructor makes a parser over its table, whatever the table. -/
theorem over_new (table : List ConfigItem) : (new table).Over table := by
  induction table using List.reverseRecOn with
  | nil => exact over_nil
  | append_singleton table item ih =>
      rw [new, List.foldl_append]
      exact ih.define item

theorem atDefaults_new (table : List ConfigItem) : (new table).AtDefaults := by
  induction table using List.reverseRecOn with
  | nil => simp [AtDefaults, new]
  | append_singleton table item ih =>
      rw [new, List.foldl_append]
      intro node member entry entryMember
      obtain ⟨old, origin, same⟩ := mem_define member
      have before : ∀ entry ∈ old.entries, entry.value = entry.item.value := by
        rcases origin with oldMember | rfl
        · exact ih old oldMember
        · simp
      rcases same with rfl | rfl
      · exact before entry entryMember
      · rcases mem_assign entryMember with oldEntry | ⟨itemSame, value, -⟩
        · exact before entry oldEntry
        · rw [itemSame, value]

theorem Over.setAs {table : List ConfigItem} {parser changed : ConfigParser}
    (overTable : parser.Over table) {build : Build} {valueType : ValueType} {name key value : Text}
    (set : setAs build valueType parser name key value = .ok changed) : changed.Over table := by
  unfold ConfigParser.setAs at set
  cases found : parser.findItem name key with
  | none =>
      rw [found] at set
      cases build <;> cases set
  | some entry =>
      rw [found] at set
      dsimp only at set
      cases asserted : build.assertD (entry.item.valueType == valueType) with
      | error stop =>
          rw [asserted] at set
          cases set
      | ok value =>
          rw [asserted] at set
          cases set
          exact overTable.store name key _

theorem Over.setRead {table : List ConfigItem} {parser : ConfigParser} (overTable : parser.Over table)
    (current : Option Text) (key value : Text) : (parser.setRead current key value).Over table := by
  cases current with
  | none => exact overTable
  | some name => exact overTable.store name key _

theorem Over.readLine {table : List ConfigItem} {reading : ConfigReading}
    (overTable : reading.1.Over table) (buf : Text) : (readLine reading buf).1.Over table := by
  obtain ⟨parser, current⟩ := reading
  simp only [ConfigParser.readLine]
  split
  case isTrue => exact overTable
  split
  case isTrue => exact overTable
  split
  case h_1 => exact overTable
  split
  case h_1 => exact overTable.setRead ..
  split
  case h_1 => exact overTable.setRead ..
  case h_2 => exact overTable

theorem Over.readLines {table : List ConfigItem} (lines : List Text) {reading : ConfigReading}
    (overTable : reading.1.Over table) : (lines.foldl ConfigParser.readLine reading).1.Over table := by
  induction lines generalizing reading with
  | nil => exact overTable
  | cons line lines ih => exact ih (overTable.readLine line)

theorem Over.read {table : List ConfigItem} {parser : ConfigParser} (overTable : parser.Over table)
    (file : Option Text) : (parser.read file).2.Over table := by
  cases file with
  | none => exact overTable
  | some contents => exact Over.readLines (getlines contents) overTable

/-- The states of a parser: new ones, and those it comes to by setting values
and by reading files. -/
inductive Reached (table : List ConfigItem) : ConfigParser → Prop
  | new : Reached table (new table)
  | set {parser changed : ConfigParser} {build : Build} {valueType : ValueType}
      {name key value : Text} (before : Reached table parser)
      (set : setAs build valueType parser name key value = .ok changed) : Reached table changed
  | read {parser : ConfigParser} (before : Reached table parser) (file : Option Text) :
      Reached table (parser.read file).2

theorem Reached.overTable {table : List ConfigItem} {parser : ConfigParser}
    (reached : Reached table parser) : parser.Over table := by
  induction reached with
  | new => exact over_new table
  | set _ set ih => exact ih.setAs set
  | read _ file ih => exact ih.read file

end ConfigParser

end ThemeSrv
