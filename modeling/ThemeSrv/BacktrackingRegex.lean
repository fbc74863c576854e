import Mathlib.Data.List.Basic

/-!
# Backtracking search for a regular expression

Patterns that are sequences of pieces: a symbol of a class, a run of symbols
of a class, a text that must not stand ahead.  A run tries its lengths in the
order of its quantifier, longest first or shortest first, and takes the first
one behind which the rest of the pattern matches.
-/

namespace BacktrackingRegex

variable {Symbol Result : Type*}

inductive Matcher (Symbol : Type*) where
  | one (accepts : Symbol → Bool)
  | run (accepts : Symbol → Bool) (greedy : Bool)
  | notAhead (text : List Symbol)

/-- A piece of a pattern, inside the group with its number (0 is none). -/
structure PatternPiece (Symbol : Type*) where
  group : Nat
  matcher : Matcher Symbol

abbrev Pattern (Symbol : Type*) := List (PatternPiece Symbol)

/-- A run of accepted symbols, and what the rest of the pattern makes of the rest. -/
def repeated (accepts : Symbol → Bool) (greedy : Bool) (next : List Symbol → Option Result) :
    List Symbol → Option (List Symbol × Result)
  | [] => (next []).map ([], ·)
  | symbol :: rest =>
      let stop := (next (symbol :: rest)).map ([], ·)
      let longer :=
        if accepts symbol then
          (repeated accepts greedy next rest).map fun found => (symbol :: found.1, found.2)
        else none
      if greedy then longer.or stop else stop.or longer

/-- The text of each piece, for a match at the start of the input. -/
def matchHere [DecidableEq Symbol] :
    Pattern Symbol → List Symbol → Option (List (List Symbol))
  | [], _ => some []
  | ⟨_, .one accepts⟩ :: pattern, input =>
      match input with
      | [] => none
      | symbol :: rest =>
          if accepts symbol then (matchHere pattern rest).map ([symbol] :: ·) else none
  | ⟨_, .run accepts greedy⟩ :: pattern, input =>
      (repeated accepts greedy (matchHere pattern) input).map fun found => found.1 :: found.2
  | ⟨_, .notAhead text⟩ :: pattern, input =>
      if text.isPrefixOf input then none else (matchHere pattern input).map ([] :: ·)

/-- The leftmost match. -/
def search [DecidableEq Symbol] (pattern : Pattern Symbol) :
    List Symbol → Option (List (List Symbol))
  | [] => matchHere pattern []
  | symbol :: rest => (matchHere pattern (symbol :: rest)).or (search pattern rest)

/-- What a group matched. -/
def captured (pattern : Pattern Symbol) (texts : List (List Symbol)) (group : Nat) :
    List Symbol :=
  (((pattern.map PatternPiece.group).zip texts).filter fun piece => piece.1 = group).flatMap Prod.snd

section Runs

variable {accepts : Symbol → Bool} {next : List Symbol → Option Result}

/-- A greedy run takes all that it accepts, if the rest of the pattern matches behind it. -/
theorem repeated_greedy {run rest : List Symbol} {result : Result}
    (accepted : ∀ symbol ∈ run, accepts symbol)
    (ends : ∀ symbol ∈ rest.head?, accepts symbol = false) (matched : next rest = some result) :
    repeated accepts true next (run ++ rest) = some (run, result) := by
  induction run with
  | nil =>
      cases rest with
      | nil => simp [repeated, matched]
      | cons symbol rest =>
          have refused : accepts symbol = false := ends symbol rfl
          simp [repeated, matched, refused]
  | cons symbol run ih =>
      have first : accepts symbol = true := accepted symbol List.mem_cons_self
      have others := ih fun other member => accepted other (List.mem_cons_of_mem _ member)
      simp [repeated, first, others]

theorem repeated_cons {greedy : Bool} {symbol : Symbol} {input : List Symbol}
    {found : List Symbol × Result}
    (matched : repeated accepts greedy next (symbol :: input) = some found) :
    (next (symbol :: input)).map ([], ·) = some found ∨
      (accepts symbol ∧ ∃ longer, repeated accepts greedy next input = some longer ∧
        (symbol :: longer.1, longer.2) = found) := by
  have continued (longer : (if accepts symbol then
      (repeated accepts greedy next input).map fun found => (symbol :: found.1, found.2)
      else none) = some found) : accepts symbol ∧ ∃ longer,
        repeated accepts greedy next input = some longer ∧
          (symbol :: longer.1, longer.2) = found := by
    split at longer
    case isTrue accepted => exact ⟨accepted, Option.map_eq_some_iff.1 longer⟩
    case isFalse => cases longer
  cases greedy with
  | false =>
      rcases Option.or_eq_some_iff.1 matched with stopped | ⟨-, longer⟩
      · exact Or.inl stopped
      · exact Or.inr (continued longer)
  | true =>
      rcases Option.or_eq_some_iff.1 matched with longer | ⟨-, stopped⟩
      · exact Or.inr (continued longer)
      · exact Or.inl stopped

theorem repeated_sound {greedy : Bool} {input : List Symbol} {found : List Symbol × Result}
    (matched : repeated accepts greedy next input = some found) :
    ∃ rest, input = found.1 ++ rest ∧ (∀ symbol ∈ found.1, accepts symbol) ∧
      next rest = some found.2 := by
  induction input generalizing found with
  | nil =>
      obtain ⟨result, stopped, rfl⟩ := Option.map_eq_some_iff.1 matched
      exact ⟨[], rfl, by simp, stopped⟩
  | cons symbol input ih =>
      rcases repeated_cons matched with stopped | ⟨accepted, longer, continued, rfl⟩
      · obtain ⟨result, stops, rfl⟩ := Option.map_eq_some_iff.1 stopped
        exact ⟨symbol :: input, rfl, by simp, stops⟩
      · obtain ⟨rest, rfl, others, behind⟩ := ih continued
        exact ⟨rest, rfl, by simpa [accepted] using others, behind⟩

/-- A run can always be empty. -/
theorem repeated_ne_none {greedy : Bool} {input : List Symbol} (matched : next input ≠ none) :
    repeated accepts greedy next input ≠ none := by
  cases input with
  | nil => simpa [repeated] using matched
  | cons symbol input => cases greedy <;> simp [repeated, matched]

/-- A greedy run stops in front of an accepted symbol only if nothing matches
behind that symbol. -/
theorem repeated_longest {input run rest : List Symbol} {symbol : Symbol} {result : Result}
    (matched : repeated accepts true next input = some (run, result))
    (split : input = run ++ symbol :: rest) (accepted : accepts symbol) :
    repeated accepts true next rest = none := by
  induction input generalizing run with
  | nil => simp at split
  | cons first input ih =>
      cases run with
      | nil =>
          obtain ⟨rfl, rfl⟩ := List.cons.inj split
          cases longer : repeated accepts true next input with
          | none => rfl
          | some found => simp [repeated, accepted, longer] at matched
      | cons other run =>
          obtain ⟨rfl, behind⟩ := List.cons.inj split
          rcases repeated_cons matched with stopped | ⟨-, ⟨found, _⟩, continued, same⟩
          · obtain ⟨_, -, same⟩ := Option.map_eq_some_iff.1 stopped
            cases same
          · cases same
            exact ih continued behind

end Runs

variable [DecidableEq Symbol]

section Matches

variable {pattern : Pattern Symbol} {group : Nat} {accepts : Symbol → Bool}
  {texts : List (List Symbol)}

theorem matchHere_one {symbol : Symbol} {rest : List Symbol} (accepted : accepts symbol)
    (matched : matchHere pattern rest = some texts) :
    matchHere (⟨group, .one accepts⟩ :: pattern) (symbol :: rest) = some ([symbol] :: texts) := by
  simp [matchHere, accepted, matched]

theorem matchHere_run {run rest : List Symbol} (accepted : ∀ symbol ∈ run, accepts symbol)
    (ends : ∀ symbol ∈ rest.head?, accepts symbol = false)
    (matched : matchHere pattern rest = some texts) :
    matchHere (⟨group, .run accepts true⟩ :: pattern) (run ++ rest) = some (run :: texts) := by
  simp [matchHere, repeated_greedy accepted ends matched]

end Matches

/-- The text is one that the piece can match in front of the rest. -/
def PatternPiece.Fits (piece : PatternPiece Symbol) (text behind : List Symbol) : Prop :=
  match piece.matcher with
  | .one accepts => ∃ symbol, text = [symbol] ∧ accepts symbol
  | .run accepts _ => ∀ symbol ∈ text, accepts symbol
  | .notAhead refused => text = [] ∧ ¬ refused <+: behind

/-- The texts are ones that the pieces of the pattern can match one behind the other. -/
def Fits : Pattern Symbol → List (List Symbol) → List Symbol → Prop
  | [], [], _ => True
  | piece :: pattern, text :: texts, behind =>
      piece.Fits text (texts.flatten ++ behind) ∧ Fits pattern texts behind
  | _, _, _ => False

omit [DecidableEq Symbol] in
theorem fits_cons {piece : PatternPiece Symbol} {pattern : Pattern Symbol} {texts : List (List Symbol)}
    {behind : List Symbol} (fits : Fits (piece :: pattern) texts behind) :
    ∃ text others, texts = text :: others ∧ piece.Fits text (others.flatten ++ behind) ∧
      Fits pattern others behind := by
  cases texts with
  | nil => cases fits
  | cons text others => exact ⟨text, others, rfl, fits.1, fits.2⟩

omit [DecidableEq Symbol] in
theorem fits_append {front back : Pattern Symbol} {texts : List (List Symbol)}
    {behind : List Symbol} (fits : Fits (front ++ back) texts behind) :
    ∃ passed others, texts = passed ++ others ∧ Fits back others behind := by
  induction front generalizing texts with
  | nil => exact ⟨[], texts, rfl, fits⟩
  | cons piece front ih =>
      obtain ⟨text, others, rfl, -, inner⟩ := fits_cons fits
      obtain ⟨passed, later, rfl, innermost⟩ := ih inner
      exact ⟨text :: passed, later, rfl, innermost⟩

/-- A match of a pattern is a text of its first piece and a match of the rest. -/
theorem matchHere_cons {piece : PatternPiece Symbol} {pattern : Pattern Symbol}
    {input : List Symbol} {texts : List (List Symbol)}
    (matched : matchHere (piece :: pattern) input = some texts) :
    ∃ text others rest, texts = text :: others ∧ input = text ++ rest ∧ piece.Fits text rest ∧
      matchHere pattern rest = some others := by
  obtain ⟨group, matcher⟩ := piece
  cases matcher with
  | one accepts =>
      cases input with
      | nil => simp [matchHere] at matched
      | cons symbol input =>
          by_cases accepted : accepts symbol
          · simp only [matchHere, accepted, if_true] at matched
            obtain ⟨others, continued, rfl⟩ := Option.map_eq_some_iff.1 matched
            exact ⟨[symbol], others, input, rfl, rfl, ⟨symbol, rfl, accepted⟩, continued⟩
          · simp [matchHere, accepted] at matched
  | run accepts greedy =>
      obtain ⟨found, run, rfl⟩ := Option.map_eq_some_iff.1 matched
      obtain ⟨rest, rfl, accepted, continued⟩ := repeated_sound run
      exact ⟨found.1, found.2, rest, rfl, rfl, accepted, continued⟩
  | notAhead text =>
      by_cases ahead : text <+: input
      · simp [matchHere, ahead] at matched
      · simp only [matchHere, List.isPrefixOf_iff_prefix, ahead, if_false] at matched
        obtain ⟨others, continued, rfl⟩ := Option.map_eq_some_iff.1 matched
        exact ⟨[], others, input, rfl, rfl, ⟨rfl, ahead⟩, continued⟩

theorem matchHere_sound {pattern : Pattern Symbol} {input : List Symbol}
    {texts : List (List Symbol)} (matched : matchHere pattern input = some texts) :
    ∃ behind, input = texts.flatten ++ behind ∧ Fits pattern texts behind := by
  induction pattern generalizing input texts with
  | nil =>
      obtain rfl : [] = texts := by simpa [matchHere] using matched
      exact ⟨input, rfl, trivial⟩
  | cons piece pattern ih =>
      obtain ⟨text, others, rest, rfl, rfl, first, continued⟩ := matchHere_cons matched
      obtain ⟨behind, rfl, fits⟩ := ih continued
      exact ⟨behind, by simp, first, fits⟩

/-- Where a front of a pattern has matched, the rest of it matches what is left. -/
theorem matchHere_append {front back : Pattern Symbol} {input : List Symbol}
    {texts : List (List Symbol)} (matched : matchHere (front ++ back) input = some texts) :
    ∃ passed others rest, texts = passed ++ others ∧ passed.length = front.length ∧
      input = passed.flatten ++ rest ∧ matchHere back rest = some others := by
  induction front generalizing input texts with
  | nil => exact ⟨[], texts, input, rfl, rfl, rfl, matched⟩
  | cons piece front ih =>
      obtain ⟨text, texts', left, rfl, rfl, -, continued⟩ := matchHere_cons matched
      obtain ⟨passed, others, rest, rfl, size, rfl, behind⟩ := ih continued
      exact ⟨text :: passed, others, rest, rfl, by simp [size], by simp, behind⟩

/-- What is found is a match at some place of the input. -/
theorem search_found {pattern : Pattern Symbol} {input : List Symbol}
    {texts : List (List Symbol)} (found : search pattern input = some texts) :
    ∃ front here, input = front ++ here ∧ matchHere pattern here = some texts := by
  induction input with
  | nil => exact ⟨[], [], rfl, found⟩
  | cons symbol input ih =>
      rcases Option.or_eq_some_iff.1 found with matched | ⟨-, later⟩
      · exact ⟨[], symbol :: input, rfl, matched⟩
      · obtain ⟨front, here, rfl, matched⟩ := ih later
        exact ⟨symbol :: front, here, rfl, matched⟩

/-- What is found stands somewhere in the input. -/
theorem search_sound {pattern : Pattern Symbol} {input : List Symbol}
    {texts : List (List Symbol)} (found : search pattern input = some texts) :
    ∃ front behind, input = front ++ (texts.flatten ++ behind) ∧ Fits pattern texts behind := by
  obtain ⟨front, here, rfl, matched⟩ := search_found found
  obtain ⟨behind, rfl, fits⟩ := matchHere_sound matched
  exact ⟨front, behind, rfl, fits⟩

theorem search_eq_of_matchHere {pattern : Pattern Symbol} {input : List Symbol}
    {texts : List (List Symbol)} (matched : matchHere pattern input = some texts) :
    search pattern input = some texts := by
  cases input with
  | nil => exact matched
  | cons symbol input => simp [search, matched]

end BacktrackingRegex
