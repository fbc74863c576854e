import ThemeSrv.ConfigRoundTrip
import ThemeSrv.ConfigValues

/-!
# Configurations that a file keeps

A value that was read from a file stands in no brackets, since its line would
have been a header, and starts and ends with something visible.  So what a
daemon reads, changes by its own keys and saves comes back when it is started
again: the values that a file does not keep are none it can come to hold.
-/

namespace ThemeSrv

open BacktrackingRegex

/-- All whitespace of the text is blank, and nothing in it ends a C string. -/
def IsOrdinary (contents : Text) : Prop :=
  ∀ c ∈ contents, c ≠ nul ∧ (isSpace c → isBlank c)

instance (contents : Text) : Decidable (IsOrdinary contents) :=
  List.decidableBAll (fun c => c ≠ nul ∧ (isSpace c → isBlank c)) contents

/-- A text that stands on one line of a file and is read as it is. -/
structure IsKept (value : Text) : Prop where
  plain : IsPlain value
  unbracketed : bracketName value = none
  ordinary : IsOrdinary value

instance (value : Text) : Decidable (IsKept value) :=
  decidable_of_iff (IsPlain value ∧ bracketName value = none ∧ IsOrdinary value)
    ⟨fun kept => ⟨kept.1, kept.2.1, kept.2.2⟩, fun kept => ⟨kept.1, kept.2, kept.3⟩⟩

/-- Every value is kept by a file, and a number is not empty. -/
structure ConfigParser.Keeps (parser : ConfigParser) : Prop where
  kept : ∀ node ∈ parser.sections, ∀ entry ∈ node.entries, IsKept entry.value
  stored : ∀ node ∈ parser.sections, ∀ entry ∈ node.entries,
    entry.item.valueType ≠ .string → entry.value ≠ []

/-! ### Values in lines -/

theorem bracketName_of_append {front text : Text} (noName : bracketName (front ++ text) = none) :
    bracketName text = none := by
  induction front with
  | nil => exact noName
  | cons c front ih =>
      apply ih
      rw [List.cons_append, bracketName] at noName
      split at noName
      · exact (Option.or_eq_none_iff.1 noName).2
      · exact noName

/-- What `value_test` takes for the value: everything behind the gap. -/
theorem matchHere_value (c : Char) (rest : Text) :
    matchHere (valueTest.drop 5) (c :: rest) = some [[c], rest, []] := by
  apply matchHere_one rfl
  have all : matchHere [⟨2, .run (fun _ => true) true⟩, ⟨2, .notAhead ['+', '+', '+']⟩]
      (rest ++ []) = some [rest, []] :=
    matchHere_run (fun _ _ => rfl) (by simp) rfl
  rwa [List.append_nil] at all

/-- The value that is found ends the line and starts with something visible. -/
theorem valueTest_value {line : Text} {texts : List Text}
    (found : search valueTest line = some texts)
    (ends : ∀ c ∈ line.getLast?, isSpace c = false) :
    ∃ front, line = front ++ captured valueTest texts 2 ∧ captured valueTest texts 2 ≠ [] ∧
      ∀ c ∈ (captured valueTest texts 2).head?, isSpace c = false := by
  obtain ⟨before, here, rfl, matched⟩ := search_found found
  obtain ⟨passed, others, rest, rfl, size, rfl, behind⟩ :=
    matchHere_append (show matchHere (valueTest.take 4 ++ valueTest.drop 4) here = some texts from
      matched)
  obtain ⟨⟨gap, inner⟩, run, rfl⟩ := Option.map_eq_some_iff.1 behind
  change repeated isSpace true (matchHere (valueTest.drop 5)) rest = some (gap, inner) at run
  obtain ⟨value, rfl, -, matched⟩ := repeated_sound run
  cases value with
  | nil => cases matched
  | cons c value =>
      rw [matchHere_value] at matched
      obtain rfl : [[c], value, []] = inner := Option.some.inj matched
      obtain ⟨first, second, third, fourth, rfl⟩ : ∃ first second third fourth,
          passed = [first, second, third, fourth] := List.length_eq_four.1 size
      have group : captured valueTest
          ([first, second, third, fourth] ++ [gap, [c], value, []]) 2 = c :: value := by
        simp [captured, valueTest, character]
      refine ⟨before ++ ([first, second, third, fourth].flatten ++ gap), ?_, ?_, ?_⟩
      · rw [group]
        simp
      · rw [group]
        exact List.cons_ne_nil _ _
      · rw [group]
        intro other head
        obtain rfl : c = other := Option.some.inj head
        by_contra visible
        have none := repeated_longest run rfl (by simpa using visible)
        cases value with
        | nil =>
            have last := ends c (by simp)
            exact visible last
        | cons next value =>
            refine repeated_ne_none ?_ none
            rw [matchHere_value]
            exact Option.some_ne_none _

/-! ### Lines of a file -/

theorem mem_getlines {text line : Text} (member : line ∈ getlines text) :
    '\n' ∉ line ∧ ∀ c ∈ line, c ∈ text := by
  induction text generalizing line with
  | nil => cases member
  | cons c rest ih =>
      rw [getlines] at member
      split at member
      case isTrue =>
        rcases List.mem_cons.1 member with rfl | later
        · simp
        · obtain ⟨oneLine, inside⟩ := ih later
          exact ⟨oneLine, fun other here => List.mem_cons_of_mem _ (inside other here)⟩
      case isFalse notLast =>
        split at member
        case h_1 =>
          obtain rfl := List.mem_singleton.1 member
          simp [Ne.symm notLast]
        case h_2 first others lines =>
          rcases List.mem_cons.1 member with rfl | later
          · obtain ⟨oneLine, inside⟩ := ih (lines ▸ List.mem_cons_self)
            constructor
            · simpa [Ne.symm notLast] using oneLine
            · intro other here
              rcases List.mem_cons.1 here with rfl | within
              · exact List.mem_cons_self
              · exact List.mem_cons_of_mem _ (inside other within)
          · obtain ⟨oneLine, inside⟩ := ih (lines ▸ List.mem_cons_of_mem _ later)
            exact ⟨oneLine, fun other here => List.mem_cons_of_mem _ (inside other here)⟩

theorem mem_of_mem_trim {text : Text} {c : Char} (member : c ∈ trim text) : c ∈ text := by
  have inner : c ∈ text.dropWhile isBlank := (List.rdropWhile_prefix isBlank _).subset member
  exact (List.dropWhile_sublist isBlank).mem inner

theorem trim_ends (text : Text) : ∀ c ∈ (trim text).getLast?, isBlank c = false := by
  intro c last
  cases trimmed : trim text with
  | nil =>
      rw [trimmed] at last
      cases last
  | cons first others =>
      have nonempty : (text.dropWhile isBlank).rdropWhile isBlank ≠ [] := by
        change trim text ≠ []
        rw [trimmed]
        exact List.cons_ne_nil _ _
      have visible := List.rdropWhile_last_not isBlank (text.dropWhile isBlank) nonempty
      have same : ((text.dropWhile isBlank).rdropWhile isBlank).getLast nonempty = c := by
        rw [← Option.some_inj, ← List.getLast?_eq_some_getLast]
        exact last
      simpa [same] using visible

theorem isKept_nil : IsKept [] := by
  decide

/-- What ends a line without brackets is kept. -/
theorem isKept_of_line {line front value : Text} (ordinary : IsOrdinary line)
    (oneLine : '\n' ∉ line) (unbracketed : bracketName line = none)
    (ends : ∀ c ∈ line.getLast?, isSpace c = false) (split : line = front ++ value)
    (nonempty : value ≠ []) (starts : ∀ c ∈ value.head?, isSpace c = false) : IsKept value := by
  subst split
  constructor
  · constructor
    · intro member
      exact oneLine (List.mem_append_right _ member)
    · intro member
      exact (ordinary nul (List.mem_append_right _ member)).1 rfl
    · exact starts
    · intro c last
      apply ends c
      rwa [List.getLast?_append_of_ne_nil _ nonempty]
  · exact bracketName_of_append unbracketed
  · intro c member
    exact ordinary c (List.mem_append_right _ member)

namespace ConfigParser

variable {table : List ConfigItem} {parser : ConfigParser}

/-! ### What the parser comes to hold -/

theorem Keeps.store (keeps : parser.Keeps) {name key : Text} {value : ConfigEntry → Text}
    (kept : ∀ entry, IsKept (value entry))
    (stored : ∀ entry, entry.item.valueType ≠ .string → value entry ≠ []) :
    (parser.store name key value).Keeps := by
  have entries : ∀ node ∈ (parser.store name key value).sections, ∀ entry ∈ node.entries,
      IsKept entry.value ∧ (entry.item.valueType ≠ .string → entry.value ≠ []) := by
    intro node member entry entryMember
    obtain ⟨old, oldMember, -, same | changed⟩ := mem_store member
    · rw [same] at entryMember
      exact ⟨keeps.kept old oldMember entry entryMember, keeps.stored old oldMember entry entryMember⟩
    · rw [changed] at entryMember
      obtain ⟨before, beforeMember, rfl⟩ := KeyedList.mem_changed.1 entryMember
      split
      · exact ⟨kept before, stored before⟩
      · exact ⟨keeps.kept old oldMember before beforeMember,
          keeps.stored old oldMember before beforeMember⟩
  exact ⟨fun node member entry inside => (entries node member entry inside).1,
    fun node member entry inside => (entries node member entry inside).2⟩

theorem Keeps.setRead (keeps : parser.Keeps) (current : Option Text) {key value : Text}
    (kept : IsKept value) : (parser.setRead current key value).Keeps := by
  cases current with
  | none => exact keeps
  | some name =>
      apply keeps.store
      · intro entry
        rw [storedValue]
        split
        · exact kept
        · decide
      · intro entry number
        rw [storedValue]
        split
        case isTrue there =>
          intro empty
          subst empty
          simp [number] at there
        case isFalse => decide

theorem Keeps.readLine {reading : ConfigReading} (keeps : reading.1.Keeps) {buf : Text}
    (ordinary : IsOrdinary buf) (oneLine : '\n' ∉ buf) : (readLine reading buf).1.Keeps := by
  obtain ⟨parser, current⟩ := reading
  have trimmed : IsOrdinary (trim buf) := fun c member => ordinary c (mem_of_mem_trim member)
  have noNul : nul ∉ trim buf := fun member => (trimmed nul member).1 rfl
  by_cases empty : trim buf = []
  · simpa [ConfigParser.readLine, empty] using keeps
  by_cases comment : isComment (trim buf)
  · simpa [ConfigParser.readLine, comment] using keeps
  rw [readLine_shown rfl empty (by simpa using comment) noNul]
  split
  case h_1 => exact keeps
  case h_2 unbracketed =>
    split
    case h_1 found matched =>
      have ends : ∀ c ∈ (trim buf).getLast?, isSpace c = false := by
        intro c last
        have visible := trim_ends buf c last
        by_contra space
        rw [(trimmed c (List.mem_of_getLast? last)).2 (by simpa using space)] at visible
        cases visible
      obtain ⟨front, split, nonempty, starts⟩ := valueTest_value matched ends
      refine keeps.setRead current (isKept_of_line trimmed ?_ unbracketed ends split nonempty starts)
      exact fun member => oneLine (mem_of_mem_trim member)
    case h_2 =>
      split
      case h_1 => exact keeps.setRead current isKept_nil
      case h_2 => exact keeps

theorem Keeps.readLines (lines : List Text) {reading : ConfigReading} (keeps : reading.1.Keeps)
    (ordinary : ∀ line ∈ lines, IsOrdinary line) (oneLine : ∀ line ∈ lines, '\n' ∉ line) :
    (lines.foldl ConfigParser.readLine reading).1.Keeps := by
  induction lines generalizing reading with
  | nil => exact keeps
  | cons line lines ih =>
      rw [List.forall_mem_cons] at ordinary oneLine
      exact ih (keeps.readLine ordinary.1 oneLine.1) ordinary.2 oneLine.2

/-- Reading an ordinary file leaves values that a file keeps. -/
theorem Keeps.read (keeps : parser.Keeps) {file : Option Text}
    (ordinary : ∀ contents ∈ file, IsOrdinary contents) : (parser.read file).2.Keeps := by
  cases file with
  | none => exact keeps
  | some contents =>
      apply Keeps.readLines (getlines contents) keeps
      · intro line member c inside
        exact ordinary contents rfl c ((mem_getlines member).2 c inside)
      · intro line member
        exact (mem_getlines member).1

/-- Whether a file keeps the values depends on nothing else. -/
theorem Keeps.congr {other : ConfigParser} (keeps : parser.Keeps) (overTable : parser.Over table)
    (otherOver : other.Over table) (same : other.SameValues parser) : other.Keeps := by
  have entries : ∀ node ∈ other.sections, ∀ entry ∈ node.entries,
      IsKept entry.value ∧ (entry.item.valueType ≠ .string → entry.value ≠ []) := by
    intro node member entry entryMember
    have found : other.findItem node.name entry.key = some entry :=
      otherOver.findItem_eq_some.2 ⟨node, member, rfl, entryMember, rfl⟩
    have value := same node.name entry.key
    have item := (otherOver.defined node.name entry.key).trans
      (overTable.defined node.name entry.key).symm
    rw [found, Option.map_some] at value item
    obtain ⟨old, foundOld, sameValue⟩ := Option.map_eq_some_iff.1 value.symm
    rw [foundOld, Option.map_some, Option.some.injEq] at item
    obtain ⟨oldNode, oldMember, -, oldEntryMember, -⟩ := overTable.findItem_eq_some.1 foundOld
    rw [← sameValue, item]
    exact ⟨keeps.kept oldNode oldMember old oldEntryMember,
      keeps.stored oldNode oldMember old oldEntryMember⟩
  exact ⟨fun node member entry inside => (entries node member entry inside).1,
    fun node member entry inside => (entries node member entry inside).2⟩

/-- What a parser writes, a fresh one reads back. -/
theorem Keeps.sameValues_read_write (keeps : parser.Keeps) (overTable : parser.Over table)
    (names : ∀ item ∈ table, ∀ c ∈ item.sectionName, isWordChar c)
    (keys : ∀ item ∈ table, IsWord item.key) :
    ((new table).read (some parser.write)).2.SameValues parser := by
  have plain : ∀ node ∈ parser.sections, ∀ entry ∈ node.entries, IsPlain entry.value :=
    fun node member entry inside => (keeps.kept node member entry inside).plain
  have unbracketed : parser.Unbracketed :=
    fun node member entry inside => (keeps.kept node member entry inside).unbracketed
  have harmless := unbracketed.harmless overTable keeps.stored
  intro name key
  rw [overTable.findItem_restored names keys plain (over_new table) (atDefaults_new table)]
  cases found : parser.findItem name key with
  | none => rfl
  | some entry =>
      obtain ⟨node, member, named, entryMember, -⟩ := overTable.findItem_eq_some.1 found
      have own := harmless node member entry entryMember
      have same : foldCase node.name = foldCase name := named
      rw [filedValue, same] at own
      rw [Option.map_some, Option.map_some, filedValue, own]

theorem keeps_new : (new daemonConfig).Keeps := by
  constructor
  · decide +kernel
  · decide +kernel

theorem isKept_toDigits (number : Nat) : IsKept (Nat.toDigits 10 number) := by
  have noBracket : bracketName (Nat.toDigits 10 number ++ []) = bracketName [] :=
    bracketName_append (fun member => digit_ne (isDigit_toDigits member) (by decide) rfl) []
  have visible {c : Char} (member : c ∈ Nat.toDigits 10 number) : isSpace c = false :=
    digit_not_space (isDigit_toDigits member)
  constructor
  · constructor
    · exact fun member => digit_ne (isDigit_toDigits member) (by decide) rfl
    · exact fun member => digit_ne (isDigit_toDigits member) (by decide) rfl
    · exact fun c head => visible (List.mem_of_head? head)
    · exact fun c last => visible (List.mem_of_getLast? last)
  · rwa [List.append_nil] at noBracket
  · intro c member
    refine ⟨digit_ne (isDigit_toDigits member) (by decide), ?_⟩
    rw [visible member]
    exact Bool.noConfusion

/-- A number that is set and saved is got as that number by the next start. -/
theorem number_survives_save (build build' : Build) {config config' : ConfigParser}
    (overTable : config.Over daemonConfig) (keeps : config.Keeps) {name key : Text}
    (typed : (definition daemonConfig name key).map ConfigItem.valueType = some .integer)
    (value : UInt32) (set : config.setUnsigned build name key value.toNat = .ok config') :
    ((new daemonConfig).read (some config'.write)).2.getUnsigned build' name key = .ok value := by
  have text : (toString value.toNat).toList = Nat.toDigits 10 value.toNat := by
    rw [Nat.toString_eq_repr, Nat.toList_repr]
  rw [setUnsigned, overTable.setAs_eq build typed] at set
  cases set
  have kept : (config.store name key fun _ => (toString value.toNat).toList).Keeps := by
    rw [text]
    exact keeps.store (fun _ => isKept_toDigits value.toNat) fun _ _ => Nat.toDigits_ne_nil
  have stored := overTable.store name key fun _ => (toString value.toNat).toList
  have same := kept.sameValues_read_write stored daemonConfig_names daemonConfig_keys
  have freshOver := (over_new daemonConfig).read
    (some (config.store name key fun _ => (toString value.toNat).toList).write)
  have defined : (definition daemonConfig name key).isSome := by
    rw [← Option.isSome_map, typed]
    rfl
  rw [getUnsigned, freshOver.getAs build' typed, same.value_eq, overTable.value_store defined]
  exact congrArg Except.ok (toUint_toString value)

theorem number_survives_save_port : ∃ config',
    (new daemonConfig).setUnsigned .debug "lobby".toList "port".toList 14618 = .ok config' ∧
      ((new daemonConfig).read (some config'.write)).2.getUnsigned .release "lobby".toList
        "port".toList = .ok 14618 := by
  have typed : (definition daemonConfig "lobby".toList "port".toList).map ConfigItem.valueType =
      some .integer := by decide +kernel
  have set := (over_new daemonConfig).setAs_eq .debug typed (toString 14618).toList
  exact ⟨_, set, number_survives_save .debug .release (over_new daemonConfig) keeps_new typed 14618 set⟩

end ConfigParser

end ThemeSrv
