import ThemeSrv.ConfigParser

/-!
# The lines of a configuration file

What the reader makes of the lines the writer writes.  Headers, comments and
blank lines are always read as such.  The line of an item is read as the item
unless its value holds a bracketed text, which is then taken for a section.
-/

namespace ThemeSrv

open BacktrackingRegex ConfigParser

/-! ### Texts the writer can be given -/

/-- One or more word characters. -/
structure IsWord (text : Text) : Prop where
  nonempty : text ≠ []
  letters : ∀ c ∈ text, isWordChar c

/-- No line break, no NUL, no whitespace at either end. -/
structure IsPlain (value : Text) : Prop where
  oneLine : '\n' ∉ value
  noNul : nul ∉ value
  starts : ∀ c ∈ value.head?, isSpace c = false
  ends : ∀ c ∈ value.getLast?, isSpace c = false

instance (value : Text) : Decidable (IsPlain value) :=
  decidable_of_iff ('\n' ∉ value ∧ nul ∉ value ∧ value.head?.all (!isSpace ·) = true ∧
      value.getLast?.all (!isSpace ·) = true) <| by
    constructor
    · rintro ⟨oneLine, noNul, starts, ends⟩
      exact ⟨oneLine, noNul, by simpa [Option.all_eq_true] using starts,
        by simpa [Option.all_eq_true] using ends⟩
    · rintro ⟨oneLine, noNul, starts, ends⟩
      exact ⟨oneLine, noNul, by simpa [Option.all_eq_true] using starts,
        by simpa [Option.all_eq_true] using ends⟩

/-- The key of an entry is a word, its value is plain. -/
structure ConfigEntry.IsWritable (entry : ConfigEntry) : Prop where
  word : IsWord entry.key
  plain : IsPlain entry.value

structure ConfigSection.IsWritable (node : ConfigSection) : Prop where
  letters : ∀ c ∈ node.name, isWordChar c
  entries : ∀ entry ∈ node.entries, entry.IsWritable

theorem wordChar_ne {c other : Char} (letter : isWordChar c) (refused : isWordChar other = false) :
    c ≠ other := by
  rintro rfl
  rw [letter] at refused
  cases refused

theorem not_mem_word {name : Text} (letters : ∀ c ∈ name, isWordChar c) {other : Char}
    (refused : isWordChar other = false) : other ∉ name :=
  fun member => wordChar_ne (letters other member) refused rfl

theorem wordChar_not_blank {c : Char} (letter : isWordChar c) : isBlank c = false := by
  have space := wordChar_ne letter (by decide : isWordChar ' ' = false)
  have tab := wordChar_ne letter (by decide : isWordChar '\t' = false)
  have cr := wordChar_ne letter (by decide : isWordChar '\r' = false)
  have lf := wordChar_ne letter (by decide : isWordChar '\n' = false)
  simp [isBlank, space, tab, cr, lf]

theorem isBlank_of_not_space {c : Char} (noSpace : isSpace c = false) : isBlank c = false := by
  simp only [isSpace, Bool.or_eq_false_iff] at noSpace
  exact noSpace.1.1

theorem cStr_eq {text : Text} (noNul : nul ∉ text) : cStr text = text := by
  apply List.takeWhile_eq_self_iff.2
  intro c member
  have other : c ≠ nul := fun same => noNul (same ▸ member)
  simpa using other

theorem mem_of_mem_cStr {text : Text} {c : Char} (member : c ∈ cStr text) : c ∈ text :=
  (List.takeWhile_sublist _).mem member

/-! ### Lines -/

theorem getlines_append {line : Text} (oneLine : '\n' ∉ line) (rest : Text) :
    getlines (line ++ '\n' :: rest) = line :: getlines rest := by
  induction line with
  | nil => simp [getlines]
  | cons c line ih =>
      have other : c ≠ '\n' := fun same => oneLine (same ▸ List.mem_cons_self)
      have inner := ih fun member => oneLine (List.mem_cons_of_mem _ member)
      simp [getlines, other, inner]

/-- What the reader carries behind a text. -/
def readText (reading : ConfigReading) (text : Text) : ConfigReading :=
  (getlines text).foldl readLine reading

theorem readText_line {line : Text} (oneLine : '\n' ∉ line) (reading : ConfigReading) (rest : Text) :
    readText reading (line ++ (endl ++ rest)) = readText (readLine reading line) rest := by
  simp [readText, endl, getlines_append oneLine]

theorem tokens_oneLine (text : Text) :
    (∀ c ∈ (tokens text).1, isLineBreak c = false) ∧
      ∀ token ∈ (tokens text).2, ∀ c ∈ token, isLineBreak c = false := by
  induction text with
  | nil => simp [tokens]
  | cons c rest ih =>
      obtain ⟨first, others⟩ := ih
      by_cases delimits : isLineBreak c
      · constructor
        · simp [tokens, delimits]
        · intro token member
          by_cases empty : (tokens rest).1.isEmpty
          · exact others token (by simpa [tokens, delimits, empty] using member)
          · have split : token = (tokens rest).1 ∨ token ∈ (tokens rest).2 := by
              simpa [tokens, delimits, empty] using member
            rcases split with rfl | member
            · exact first
            · exact others token member
      · constructor
        · simpa [tokens, delimits] using first
        · simpa [tokens, delimits] using others

theorem tokenize_oneLine {text token : Text} (member : token ∈ tokenize text) :
    ∀ c ∈ token, isLineBreak c = false := by
  obtain ⟨first, others⟩ := tokens_oneLine text
  simp only [tokenize] at member
  split at member
  · exact others token member
  · rcases List.mem_cons.1 member with rfl | member
    · exact first
    · exact others token member

theorem trim_starts {line : Text} (starts : ∀ c ∈ line.head?, isBlank c = false) :
    trim line = line.rdropWhile isBlank := by
  cases line with
  | nil => rfl
  | cons c rest => simp [trim, starts c rfl]

theorem trim_eq {line : Text} (starts : ∀ c ∈ line.head?, isBlank c = false)
    (ends : ∀ c ∈ line.getLast?, isBlank c = false) : trim line = line := by
  rw [trim_starts starts]
  apply List.rdropWhile_eq_self_iff.2
  intro nonempty
  simpa using ends (line.getLast nonempty) (List.getLast?_eq_some_getLast nonempty)

theorem trim_cons {c : Char} (rest : Text) (visible : isBlank c = false) :
    ∃ others, trim (c :: rest) = c :: others := by
  have starts : ∀ first ∈ (c :: rest).head?, isBlank first = false := by simpa using visible
  rw [trim_starts starts]
  cases trimmed : (c :: rest).rdropWhile isBlank with
  | nil =>
      rw [List.rdropWhile_eq_nil_iff.1 trimmed c List.mem_cons_self] at visible
      cases visible
  | cons first others =>
      have front := List.rdropWhile_prefix isBlank (c :: rest)
      rw [trimmed] at front
      exact ⟨others, by rw [(List.cons_prefix_cons.1 front).1]⟩

/-! ### Headers -/

/-- The text up to the next closing bracket of the line. -/
def closing : Text → Option Text
  | [] => none
  | c :: rest =>
      if c = ']' then some []
      else if isInLine c then (closing rest).map (c :: ·)
      else none

/-- The text in the first brackets of a line. -/
def bracketName : Text → Option Text
  | [] => none
  | c :: rest => if c = '[' then (closing rest).or (bracketName rest) else bracketName rest

theorem matchHere_closing (c : Char) (rest : Text) :
    matchHere [character 0 ']'] (c :: rest) = if c = ']' then some [[c]] else none := by
  simp [matchHere, character]

theorem repeated_closing (text : Text) :
    repeated isInLine false (matchHere [character 0 ']']) text =
      (closing text).map fun name => (name, [[']']]) := by
  induction text with
  | nil => rfl
  | cons c rest ih =>
      by_cases closes : c = ']'
      · simp [repeated, matchHere_closing, closing, closes]
      · by_cases inLine : isInLine c
        · simp [repeated, matchHere_closing, closing, closes, inLine, ih, Function.comp_def]
        · simp [repeated, matchHere_closing, closing, closes, inLine]

theorem matchHere_sectionTest (text : Text) :
    matchHere sectionTest ('[' :: text) =
      (closing text).map fun name => [['['], name, [']']] := by
  have opened : matchHere sectionTest ('[' :: text) =
      ((repeated isInLine false (matchHere [character 0 ']']) text).map fun found =>
        found.1 :: found.2).map (['['] :: ·) := rfl
  rw [opened, repeated_closing, Option.map_map, Option.map_map]
  rfl

theorem search_sectionTest (line : Text) :
    search sectionTest line = (bracketName line).map fun name => [['['], name, [']']] := by
  induction line with
  | nil => rfl
  | cons c rest ih =>
      by_cases opens : c = '['
      · subst opens
        rw [search, matchHere_sectionTest, ih, bracketName, if_pos rfl]
        cases closing rest <;> rfl
      · have missed : matchHere sectionTest (c :: rest) = none := by
          simp [sectionTest, matchHere, character, opens]
        rw [search, missed, ih, bracketName, if_neg opens]
        rfl

theorem closing_name {name : Text} (letters : ∀ c ∈ name, isWordChar c) (rest : Text) :
    closing (name ++ ']' :: rest) = some name := by
  induction name with
  | nil => simp [closing]
  | cons c name ih =>
      have letter := letters c List.mem_cons_self
      have open_ := wordChar_ne letter (by decide : isWordChar ']' = false)
      have lf := wordChar_ne letter (by decide : isWordChar '\n' = false)
      have cr := wordChar_ne letter (by decide : isWordChar '\r' = false)
      have inner := ih fun other member => letters other (List.mem_cons_of_mem _ member)
      simp [closing, isInLine, open_, lf, cr, inner]

theorem bracketName_append {front : Text} (noBracket : '[' ∉ front) (rest : Text) :
    bracketName (front ++ rest) = bracketName rest := by
  induction front with
  | nil => rfl
  | cons c front ih =>
      have other : c ≠ '[' := fun same => noBracket (same ▸ List.mem_cons_self)
      have inner := ih fun member => noBracket (List.mem_cons_of_mem _ member)
      simp [bracketName, other, inner]

/-! ### Items -/

theorem isSpace_blank : ∀ c ∈ [' '], isSpace c := by
  simp [isSpace, isBlank]

/-- `value_test` and `empty_test` start with `(\w+)\s*=`. -/
theorem matchHere_key {pattern : Pattern Char} {c : Char} {key rest : Text} {texts : List Text}
    (letters : ∀ other ∈ c :: key, isWordChar other) (matched : matchHere pattern rest = some texts) :
    matchHere (emptyTest ++ pattern) ((c :: key) ++ ' ' :: '=' :: rest) =
      some ([c] :: key :: [' '] :: ['='] :: texts) := by
  apply matchHere_one (letters c List.mem_cons_self)
  apply matchHere_run fun other member => letters other (List.mem_cons_of_mem _ member)
  · simp [isWordChar]
  apply matchHere_run isSpace_blank (by simp [isSpace, isBlank])
  exact matchHere_one (by decide) matched

/-- `value_test` finds the key and the value of an item. -/
theorem search_valueTest {key value : Text} (word : IsWord key) (nonempty : value ≠ [])
    (starts : ∀ c ∈ value.head?, isSpace c = false) :
    ∃ found, search valueTest (key ++ ' ' :: '=' :: ' ' :: value) = some found ∧
      captured valueTest found 1 = key ∧ captured valueTest found 2 = value := by
  obtain ⟨k, ks, rfl⟩ := List.exists_cons_of_ne_nil word.nonempty
  obtain ⟨v, vs, rfl⟩ := List.exists_cons_of_ne_nil nonempty
  refine ⟨[[k], ks, [' '], ['='], [' '], [v], vs, []], ?_, ?_, ?_⟩
  · apply search_eq_of_matchHere
    apply matchHere_key word.letters
    apply matchHere_run isSpace_blank (by simpa using starts)
    apply matchHere_one rfl
    have all : matchHere [⟨2, .run (fun _ => true) true⟩, ⟨2, .notAhead ['+', '+', '+']⟩]
        (vs ++ []) = some [vs, []] :=
      matchHere_run (fun _ _ => rfl) (by simp) rfl
    rwa [List.append_nil] at all
  · simp [captured, valueTest, character]
  · simp [captured, valueTest, character]

theorem valueTest_fits {texts : List Text} {behind : Text}
    (fits : Fits valueTest texts behind) :
    ∃ left c right, texts.flatten = left ++ '=' :: c :: right := by
  have pieces : valueTest = valueTest.take 3 ++ valueTest.drop 3 := rfl
  rw [pieces] at fits
  obtain ⟨passed, fromEquals, rfl, fitsEquals⟩ := fits_append fits
  obtain ⟨_, fromGap, rfl, ⟨equals, rfl, isEquals⟩, fitsGap⟩ := fits_cons fitsEquals
  obtain ⟨gap, fromValue, rfl, -, fitsValue⟩ := fits_cons fitsGap
  obtain ⟨_, others, rfl, ⟨first, rfl, -⟩, -⟩ := fits_cons fitsValue
  obtain rfl : equals = '=' := by simpa using isEquals
  cases gap with
  | nil => exact ⟨passed.flatten, first, others.flatten, by simp⟩
  | cons c gap => exact ⟨passed.flatten, c, gap ++ first :: others.flatten, by simp⟩

/-- An item without a value is nothing for `value_test`. -/
theorem search_valueTest_empty {key : Text} (word : IsWord key) :
    search valueTest (key ++ [' ', '=']) = none := by
  cases found : search valueTest (key ++ [' ', '=']) with
  | none => rfl
  | some texts =>
      obtain ⟨front, behind, split, fits⟩ := search_sound found
      obtain ⟨left, c, right, flat⟩ := valueTest_fits fits
      have shorter : key ++ [' '] = front ++ (left ++ '=' :: (c :: (right ++ behind)).dropLast) := by
        have dropped := congrArg List.dropLast split
        simpa [flat] using dropped
      have member : '=' ∈ key ++ [' '] := by
        rw [shorter]
        simp
      rcases List.mem_append.1 member with inKey | inSpace
      · exact (not_mem_word word.letters (by decide) inKey).elim
      · cases List.mem_singleton.1 inSpace

theorem search_emptyTest {key : Text} (word : IsWord key) :
    ∃ found, search emptyTest (key ++ [' ', '=']) = some found ∧
      captured emptyTest found 1 = key := by
  obtain ⟨k, ks, rfl⟩ := List.exists_cons_of_ne_nil word.nonempty
  refine ⟨[[k], ks, [' '], ['=']], ?_, ?_⟩
  · have ended : matchHere ([] : Pattern Char) [] = some [] := rfl
    exact search_eq_of_matchHere (matchHere_key word.letters ended)
  · simp [captured, emptyTest, character]

/-! ### Reading the lines -/

theorem readLine_comment (reading : ConfigReading) (rest : Text) :
    readLine reading (';' :: rest) = reading := by
  obtain ⟨others, trimmed⟩ := trim_cons rest (by decide : isBlank ';' = false)
  simp [readLine, trimmed, isComment]

theorem readLine_shown {buf line : Text} (trimmed : trim buf = line) (nonempty : line ≠ [])
    (noComment : isComment line = false) (noNul : nul ∉ line) (parser : ConfigParser)
    (current : Option Text) :
    readLine (parser, current) buf =
      match bracketName line with
      | some name => (parser, (parser.findSection name).map fun _ => name)
      | none =>
          match search valueTest line with
          | some found =>
              (parser.setRead current (captured valueTest found 1) (captured valueTest found 2),
                current)
          | none =>
              match search emptyTest line with
              | some found => (parser.setRead current (captured emptyTest found 1) [], current)
              | none => (parser, current) := by
  have shown : line.isEmpty = false := by simpa using nonempty
  simp only [readLine, trimmed, shown, noComment, cStr_eq noNul, search_sectionTest,
    Bool.false_eq_true, if_false]
  cases bracketName line with
  | none => rfl
  | some name =>
      have group : captured sectionTest [['['], name, [']']] 1 = name := by
        simp [captured, sectionTest, character]
      simp [group]

theorem readLine_header (parser : ConfigParser) (current : Option Text) {name : Text}
    (letters : ∀ c ∈ name, isWordChar c) :
    readLine (parser, current) ('[' :: (name ++ [']'])) =
      (parser, (parser.findSection name).map fun _ => name) := by
  have trimmed : trim ('[' :: (name ++ [']'])) = '[' :: (name ++ [']']) := by
    apply trim_eq
    · simp [isBlank]
    · rw [← List.cons_append, List.getLast?_concat]
      simp [isBlank]
  have noNul : nul ∉ '[' :: (name ++ [']']) := by
    simpa [nul] using not_mem_word letters (by decide : isWordChar nul = false)
  have named : bracketName ('[' :: (name ++ [']'])) = some name := by
    simp [bracketName, closing_name letters]
  rw [readLine_shown trimmed (List.cons_ne_nil _ _) rfl noNul, named]

/-- What the reader makes of the line of an item. -/
def readEntry (reading : ConfigReading) (entry : ConfigEntry) : ConfigReading :=
  let (parser, current) := reading
  match bracketName entry.value with
  | some name => (parser, (parser.findSection name).map fun _ => name)
  | none => (parser.setRead current entry.key entry.value, current)

theorem bracketName_key {key : Text} (word : IsWord key) (rest : Text) :
    bracketName (key ++ ' ' :: '=' :: rest) = bracketName rest := by
  rw [bracketName_append (not_mem_word word.letters (by decide))]
  rfl

theorem isComment_key {key : Text} (word : IsWord key) (rest : Text) :
    isComment (key ++ rest) = false := by
  obtain ⟨k, ks, rfl⟩ := List.exists_cons_of_ne_nil word.nonempty
  have letter := word.letters k List.mem_cons_self
  have semicolon := wordChar_ne letter (by decide : isWordChar ';' = false)
  have hash := wordChar_ne letter (by decide : isWordChar '#' = false)
  have slash := wordChar_ne letter (by decide : isWordChar '/' = false)
  simp [isComment, List.isPrefixOf, semicolon.symm, hash.symm, slash.symm]

theorem key_starts {key : Text} (word : IsWord key) (rest : Text) :
    ∀ c ∈ (key ++ rest).head?, isBlank c = false := by
  obtain ⟨k, ks, rfl⟩ := List.exists_cons_of_ne_nil word.nonempty
  intro c first
  obtain rfl : k = c := by simpa using first
  exact wordChar_not_blank (word.letters k List.mem_cons_self)

theorem readLine_value {key value : Text} (word : IsWord key) (plain : IsPlain value)
    (nonempty : value ≠ []) (parser : ConfigParser) (current : Option Text) (item : ConfigItem) :
    readLine (parser, current) (key ++ ' ' :: '=' :: ' ' :: value) =
      readEntry (parser, current) ⟨key, item, value⟩ := by
  have trimmed : trim (key ++ ' ' :: '=' :: ' ' :: value) = key ++ ' ' :: '=' :: ' ' :: value := by
    apply trim_eq (key_starts word _)
    intro c last
    apply isBlank_of_not_space
    apply plain.ends c
    obtain ⟨v, vs, rfl⟩ := List.exists_cons_of_ne_nil nonempty
    simpa [List.getLast?_append, List.getLast?_cons_cons] using last
  have noNul : nul ∉ key ++ ' ' :: '=' :: ' ' :: value := by
    simpa [nul] using And.intro (not_mem_word word.letters (by decide : isWordChar nul = false))
      plain.noNul
  have named : bracketName (key ++ ' ' :: '=' :: ' ' :: value) = bracketName value := by
    rw [bracketName_key word]
    rfl
  obtain ⟨found, matched, first, second⟩ := search_valueTest word nonempty plain.starts
  have shown := readLine_shown trimmed (by simp) (isComment_key word _) noNul parser current
  rw [shown, named, matched, readEntry]
  simp only [first, second]

theorem readLine_empty {key : Text} (word : IsWord key) (parser : ConfigParser)
    (current : Option Text) (item : ConfigItem) :
    readLine (parser, current) (key ++ [' ', '=', ' ']) =
      readEntry (parser, current) ⟨key, item, []⟩ := by
  have trimmed : trim (key ++ [' ', '=', ' ']) = key ++ [' ', '='] := by
    have longer : key ++ [' ', '=', ' '] = key ++ [' ', '='] ++ [' '] := by simp
    have inner : trim (key ++ [' ', '=']) = key ++ [' ', '='] := by
      apply trim_eq (key_starts word _)
      simp [List.getLast?_append, isBlank]
    rw [trim_starts (key_starts word _), longer, List.rdropWhile_concat_pos _ _ _ (by decide),
      ← trim_starts (key_starts word _), inner]
  have noNul : nul ∉ key ++ [' ', '='] := by
    simpa [nul] using not_mem_word word.letters (by decide : isWordChar nul = false)
  have named : bracketName (key ++ [' ', '=']) = none := by
    rw [bracketName_key word]
    rfl
  obtain ⟨found, matched, first⟩ := search_emptyTest word
  have shown := readLine_shown trimmed (by simp) (isComment_key word _) noNul parser current
  rw [shown, named, search_valueTest_empty word, matched, readEntry]
  simp only [first, bracketName]

/-! ### Reading what was written -/

theorem readText_blank (reading : ConfigReading) (rest : Text) :
    readText reading (endl ++ rest) = readText reading rest :=
  readText_line (by simp : '\n' ∉ ([] : Text)) reading rest

theorem readText_comments {comments : List Text}
    (oneLine : ∀ comment ∈ comments, ∀ c ∈ comment, isLineBreak c = false) (reading : ConfigReading)
    (rest : Text) :
    readText reading (comments.flatMap writeComment ++ rest) = readText reading rest := by
  induction comments with
  | nil => rfl
  | cons comment comments ih =>
      have others := ih fun other member => oneLine other (List.mem_cons_of_mem _ member)
      have noBreak : '\n' ∉ ';' :: ' ' :: cStr comment := by
        have inside : '\n' ∉ cStr comment := by
          intro member
          have delimits := oneLine comment List.mem_cons_self '\n' (mem_of_mem_cStr member)
          cases delimits
        simpa using inside
      have first := readText_line noBreak reading (comments.flatMap writeComment ++ rest)
      rw [readLine_comment, others] at first
      simpa [writeComment] using first

theorem readText_value {entry : ConfigEntry} (writable : entry.IsWritable) (reading : ConfigReading)
    (rest : Text) :
    readText reading (writeValue entry ++ rest) = readText (readEntry reading entry) rest := by
  obtain ⟨key, item, value⟩ := entry
  obtain ⟨parser, current⟩ := reading
  obtain ⟨word, plain⟩ := writable
  have keyShown : cStr key = key := cStr_eq (not_mem_word word.letters (by decide))
  have valueShown : cStr value = value := cStr_eq plain.noNul
  have noBreak : '\n' ∉ key ++ ' ' :: '=' :: ' ' :: value := by
    have inKey := not_mem_word word.letters (by decide : isWordChar '\n' = false)
    simpa [inKey] using plain.oneLine
  have line := readText_line noBreak (parser, current) rest
  have read : readLine (parser, current) (key ++ ' ' :: '=' :: ' ' :: value) =
      readEntry (parser, current) ⟨key, item, value⟩ := by
    by_cases empty : value = []
    · subst empty
      exact readLine_empty word parser current item
    · exact readLine_value word plain empty parser current item
  rw [read] at line
  simpa [writeValue, keyShown, valueShown] using line

theorem readText_item {entry : ConfigEntry} (writable : entry.IsWritable) (isFirst : Bool)
    (reading : ConfigReading) (rest : Text) :
    readText reading (writeItem isFirst entry ++ rest) =
      readText (readEntry reading entry) rest := by
  have oneLine : ∀ comment ∈ tokenize entry.item.description, ∀ c ∈ comment,
      isLineBreak c = false := fun _ member => tokenize_oneLine member
  have comments := readText_comments oneLine reading (writeValue entry ++ rest)
  have value := readText_value writable reading rest
  simp only [writeItem, List.append_assoc]
  split
  · rw [readText_blank, comments, value]
  · rw [List.nil_append, comments, value]

theorem readText_others {entries : List ConfigEntry}
    (writable : ∀ entry ∈ entries, entry.IsWritable) (reading : ConfigReading) (rest : Text) :
    readText reading (entries.flatMap (writeItem false) ++ rest) =
      readText (entries.foldl readEntry reading) rest := by
  induction entries generalizing reading with
  | nil => rfl
  | cons entry entries ih =>
      obtain ⟨first, others⟩ := List.forall_mem_cons.1 writable
      rw [List.flatMap_cons, List.append_assoc, readText_item first, ih others]
      rfl

theorem readText_items {entries : List ConfigEntry}
    (writable : ∀ entry ∈ entries, entry.IsWritable) (reading : ConfigReading) (rest : Text) :
    readText reading (writeItems entries ++ rest) =
      readText (entries.foldl readEntry reading) rest := by
  cases entries with
  | nil => rfl
  | cons entry entries =>
      obtain ⟨first, others⟩ := List.forall_mem_cons.1 writable
      rw [writeItems, List.append_assoc, readText_item first, readText_others others]
      rfl

/-- What the reader makes of a section. -/
def readSection (reading : ConfigReading) (node : ConfigSection) : ConfigReading :=
  node.entries.foldl readEntry
    (reading.1, (reading.1.findSection node.name).map fun _ => node.name)

theorem readText_section {node : ConfigSection} (writable : node.IsWritable)
    (reading : ConfigReading) (rest : Text) :
    readText reading (writeSection node ++ rest) = readText (readSection reading node) rest := by
  obtain ⟨parser, current⟩ := reading
  obtain ⟨letters, writable⟩ := writable
  have shown : cStr node.name = node.name := cStr_eq (not_mem_word letters (by decide))
  have noBreak : '\n' ∉ '[' :: (node.name ++ [']']) := by
    simpa using not_mem_word letters (by decide : isWordChar '\n' = false)
  have header := readText_line noBreak (parser, current) (writeItems node.entries ++ (endl ++ rest))
  rw [readLine_header parser current letters, readText_items writable, readText_blank] at header
  simpa [writeSection, shown, readSection] using header

theorem readText_sections {sections : List ConfigSection}
    (writable : ∀ node ∈ sections, node.IsWritable) (reading : ConfigReading) :
    readText reading (sections.flatMap writeSection) = sections.foldl readSection reading := by
  induction sections generalizing reading with
  | nil => rfl
  | cons node sections ih =>
      obtain ⟨first, others⟩ := List.forall_mem_cons.1 writable
      rw [List.flatMap_cons, readText_section first, ih others]
      rfl

/-- Reading a file that was written is reading its items one by one. -/
theorem read_write {written : ConfigParser}
    (writable : ∀ node ∈ written.sections, node.IsWritable) (parser : ConfigParser) :
    parser.read (some written.write) =
      (true, (written.sections.foldl readSection (parser, none)).1) := by
  rw [← readText_sections writable]
  rfl

end ThemeSrv
