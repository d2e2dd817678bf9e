import EffectHarness.Schema.RoundTrip
import Mathlib.Data.List.TakeWhile

namespace Schema.Text

variable {α : Type} {text rest more : Text} {value : α} {first second item other : Parser α} {closing : Char}
  {fuel enough : Nat}

/-- What the first parser reads, the second reads as well when more text follows. -/
def Settles (first second : Parser α) : Prop :=
  ∀ text value rest more, first text = some (value, rest) → second (text ++ more) = some (value, rest ++ more)

/-- The same for parsers that look one character ahead. -/
def Extends (first second : Parser α) : Prop :=
  ∀ text value rest more, first text = some (value, rest) → rest ≠ [] →
    second (text ++ more) = some (value, rest ++ more)

theorem skip_append {next : Char} {tail : Text} (reached : skip text = next :: tail) (more : Text) :
    skip (text ++ more) = next :: (tail ++ more) := by
  have stopped : (text.dropWhile isWhitespace).isEmpty = false := by
    rw [show text.dropWhile isWhitespace = next :: tail from reached]
    rfl
  rw [skip, List.dropWhile_append, stopped, if_neg Bool.false_ne_true,
    show text.dropWhile isWhitespace = next :: tail from reached, List.cons_append]

theorem parseString_raw {character : Char} (text : Text) (quote : character ≠ '"') (backslash : character ≠ '\\')
    (printed : 32 ≤ character.toNat) :
    parseString (character :: text) =
      (parseString text).map fun (characters, rest) => (character :: characters, rest) := by
  rw [parseString.eq_4 _ _ quote (fun _ _ _ _ _ same _ => backslash same) fun _ _ same _ => backslash same,
    if_pos ⟨backslash, printed⟩]

theorem parseString_unicode {first second third fourth character : Char} (text : Text)
    (code : unicode [first, second, third, fourth] = some character) :
    parseString ('\\' :: 'u' :: first :: second :: third :: fourth :: text) =
      (parseString text).map fun (characters, rest) => (character :: characters, rest) := by
  rw [parseString, code]
  cases parseString text <;> rfl

theorem map_cons_settles {character : Char} {parsed extended : Option (Text × Text)} {characters : Text}
    (read : (parsed.map fun (characters, rest) => (character :: characters, rest)) = some (characters, rest))
    (settles : ∀ characters rest, parsed = some (characters, rest) → extended = some (characters, rest ++ more)) :
    (extended.map fun (characters, rest) => (character :: characters, rest)) = some (characters, rest ++ more) := by
  obtain ⟨⟨tail, left⟩, inner, same⟩ := Option.map_eq_some_iff.mp read
  cases same
  rw [settles tail rest inner, Option.map_some]

theorem parseString_settles : Settles parseString parseString := by
  intro text value rest more read
  induction text using parseString.induct generalizing value rest with
  | case1 text =>
    rw [parseString] at read
    cases read
    rw [List.cons_append, parseString]
  | case2 first second third fourth text ih =>
    cases code : unicode [first, second, third, fourth] with
    | none =>
      rw [parseString, code] at read
      cases read
    | some character =>
      rw [parseString_unicode _ code] at read
      simp only [List.cons_append, parseString_unicode _ code]
      exact map_cons_settles read ih
  | case3 escaped text short ih =>
    cases named : unescape escaped with
    | none =>
      rw [parseString.eq_3 _ _ short, named] at read
      cases read
    | some character =>
      rw [parseString_named _ named] at read
      simp only [List.cons_append, parseString_named _ named]
      exact map_cons_settles read ih
  | case4 character text quote long short printed ih =>
    rcases printed with ⟨backslash, printed⟩
    rw [parseString_raw _ quote backslash printed] at read
    simp only [List.cons_append, parseString_raw _ quote backslash printed]
    exact map_cons_settles read ih
  | case5 character text quote long short unprinted =>
    rw [parseString.eq_4 _ _ quote long short, if_neg unprinted] at read
    cases read
  | case6 => cases read

theorem parseDigits_extends : Extends parseDigits parseDigits := by
  intro text value rest more read follows
  rw [parseDigits] at read
  cases digits : text.takeWhile Char.isDigit with
  | nil =>
    rw [digits] at read
    cases read
  | cons digit tail =>
    rw [digits] at read
    cases read
    have stops : (text.dropWhile Char.isDigit).isEmpty = false := by simpa using follows
    have shorter : (text.takeWhile Char.isDigit).length ≠ text.length := by
      have parts := congrArg List.length (List.takeWhile_append_dropWhile (p := Char.isDigit) (l := text))
      rw [List.length_append] at parts
      have positive := List.length_pos_iff.mpr follows
      omega
    have front : (text ++ more).takeWhile Char.isDigit = digit :: tail := by
      rw [List.takeWhile_append, if_neg shorter, digits]
    rw [parseDigits, front, List.dropWhile_append, stops, if_neg Bool.false_ne_true]

theorem parseFraction_extends : Extends parseFraction parseFraction := by
  intro text value rest more read follows
  cases text with
  | nil =>
    cases read
    exact absurd rfl follows
  | cons next text =>
    by_cases point : next = '.'
    · subst point
      exact parseDigits_extends text value rest more read follows
    · have other : ∀ tail : Text, parseFraction (next :: tail) = some ([], next :: tail) :=
        fun tail => parseFraction.eq_2 _ fun _ same => point (List.cons.inj same).1
      rw [other] at read
      cases read
      exact other _

theorem Extends.map {β : Type} (extends_ : Extends first second) (convert : α → β) :
    Extends (fun text => (first text).map fun (value, rest) => (convert value, rest))
      (fun text => (second text).map fun (value, rest) => (convert value, rest)) := by
  intro text value rest more read follows
  obtain ⟨⟨inner, left⟩, parsed, same⟩ := Option.map_eq_some_iff.mp read
  cases same
  dsimp only
  rw [extends_ text inner rest more parsed follows, Option.map_some]

theorem parseSigned_extends : Extends parseSigned parseSigned := by
  have positive := parseDigits_extends.map fun digits => (Nat.ofDigitChars 10 digits 0 : Int)
  have negative := parseDigits_extends.map fun digits => -(Nat.ofDigitChars 10 digits 0 : Int)
  intro text value rest more read follows
  cases text with
  | nil => cases read
  | cons sign text =>
    by_cases minus : sign = '-'
    · subst minus
      exact negative text value rest more read follows
    · by_cases plus : sign = '+'
      · subst plus
        exact positive text value rest more read follows
      · have unsigned : ∀ tail : Text, parseSigned (sign :: tail) =
            (parseDigits (sign :: tail)).map fun (digits, rest) => (Nat.ofDigitChars 10 digits 0, rest) :=
          fun tail => parseSigned.eq_3 _ (fun _ same => minus (List.cons.inj same).1)
            fun _ same => plus (List.cons.inj same).1
        rw [unsigned] at read
        rw [List.cons_append, unsigned]
        exact positive (sign :: text) value rest more read follows

theorem parseExponent_extends : Extends parseExponent parseExponent := by
  intro text value rest more read follows
  cases text with
  | nil =>
    cases read
    exact absurd rfl follows
  | cons marker text =>
    by_cases exponent : marker = 'e' ∨ marker = 'E'
    · rw [parseExponent, if_pos exponent] at read
      rw [List.cons_append, parseExponent, if_pos exponent]
      exact parseSigned_extends text value rest more read follows
    · rw [parseExponent, if_neg exponent] at read
      cases read
      rw [List.cons_append, parseExponent, if_neg exponent]

theorem parseUnsigned_extends : Extends parseUnsigned parseUnsigned := by
  intro text value rest more read follows
  rw [parseUnsigned] at read
  simp only [Option.bind_eq_bind, Option.bind_eq_some_iff] at read
  obtain ⟨⟨whole, afterWhole⟩, digits, read⟩ := read
  dsimp only at read
  split at read
  · rename_i leading
    obtain ⟨⟨fraction, afterFraction⟩, point, read⟩ := Option.bind_eq_some_iff.mp read
    obtain ⟨⟨exponent, afterExponent⟩, marker, read⟩ := Option.bind_eq_some_iff.mp read
    cases read
    -- Nothing more is read once the text is used up, so each part leaves some of it.
    have fractionFollows : afterFraction ≠ [] := by
      intro nothing
      subst nothing
      cases marker
      exact follows rfl
    have wholeFollows : afterWhole ≠ [] := by
      intro nothing
      subst nothing
      cases point
      exact fractionFollows rfl
    simp [parseUnsigned, parseDigits_extends _ _ _ more digits wholeFollows, leading,
      parseFraction_extends _ _ _ more point fractionFollows, parseExponent_extends _ _ _ more marker follows]
  · cases read

theorem parseNumber_extends : Extends parseNumber parseNumber := by
  have negative := parseUnsigned_extends.map fun value => -value
  intro text value rest more read follows
  cases text with
  | nil => cases read
  | cons sign text =>
    by_cases minus : sign = '-'
    · subst minus
      exact negative text value rest more read follows
    · have unsigned : ∀ tail : Text, parseNumber (sign :: tail) = parseUnsigned (sign :: tail) :=
        fun tail => parseNumber.eq_2 _ fun _ same => minus (List.cons.inj same).1
      rw [unsigned] at read
      rw [List.cons_append, unsigned]
      exact parseUnsigned_extends (sign :: text) value rest more read follows

theorem ne_nil_of_skip {next : Char} {tail : Text} (reached : skip text = next :: tail) : text ≠ [] := by
  intro nothing
  rw [nothing] at reached
  cases reached

theorem parseList_settles (extended : Extends item other) (refuses : item [] = none) {values : List α}
    (read : parseList item closing fuel text = some (values, rest)) (grows : fuel ≤ enough) (more : Text) :
    parseList other closing enough (text ++ more) = some (values, rest ++ more) := by
  induction fuel generalizing text values rest enough with
  | zero => cases read
  | succ fuel ih =>
    obtain ⟨enough, rfl⟩ : ∃ less, enough = less + 1 := ⟨enough - 1, by omega⟩
    rw [parseList] at read
    obtain ⟨⟨value, behind⟩, first, read⟩ := Option.bind_eq_some_iff.mp read
    dsimp only at read
    cases reached : skip behind with
    | nil =>
      rw [reached] at read
      cases read
    | cons next tail =>
      rw [reached] at read
      dsimp only at read
      have again := extended text value behind more first (ne_nil_of_skip reached)
      rw [parseList, again]
      simp only [Option.bind_eq_bind, Option.bind_some, skip_append reached]
      by_cases closed : next = closing
      · rw [if_pos closed] at read ⊢
        cases read
        rfl
      · rw [if_neg closed] at read ⊢
        by_cases comma : next = ','
        · rw [if_pos comma] at read ⊢
          obtain ⟨⟨others, left⟩, later, same⟩ := Option.map_eq_some_iff.mp read
          cases same
          -- The item after the comma is not empty, so the blanks before it end where they ended.
          have solid : ∃ visible tail', skip tail = visible :: tail' := by
            cases found : skip tail with
            | nil =>
              rw [found] at later
              cases fuel with
              | zero => cases later
              | succ fuel =>
                rw [parseList, refuses] at later
                cases later
            | cons visible tail' => exact ⟨visible, tail', rfl⟩
          obtain ⟨visible, tail', found⟩ := solid
          have continued := ih later (by omega : fuel ≤ enough)
          rw [found, List.cons_append] at continued
          rw [skip_append found, continued, Option.map_some]
        · rw [if_neg comma] at read
          cases read

theorem parseContainer_settles (extended : Extends item other) (refuses : item [] = none) {values : List α}
    (read : parseContainer item closing fuel text = some (values, rest)) (grows : fuel ≤ enough) (more : Text) :
    parseContainer other closing enough (text ++ more) = some (values, rest ++ more) := by
  rw [parseContainer] at read ⊢
  cases reached : skip text with
  | nil =>
    rw [reached] at read
    cases read
  | cons next tail =>
    rw [reached] at read
    rw [skip_append reached]
    dsimp only at read ⊢
    by_cases closed : next = closing
    · rw [if_pos closed] at read ⊢
      cases read
      rfl
    · rw [if_neg closed] at read ⊢
      exact parseList_settles extended refuses read grows more

theorem parseMember_extends {first second : Parser Json} (extended : Extends first second)
    (refuses : first [] = none) : Extends (parseMember first) (parseMember second) := by
  intro text pair rest more read follows
  cases text with
  | nil => cases read
  | cons quote text =>
    by_cases opens : quote = '"'
    · subst opens
      rw [parseMember] at read
      obtain ⟨⟨key, afterKey⟩, named, read⟩ := Option.bind_eq_some_iff.mp read
      dsimp only at read
      split at read
      · rename_i tail separated
        obtain ⟨⟨value, left⟩, valued, same⟩ := Option.bind_eq_some_iff.mp read
        cases same
        have solid : ∃ visible tail', skip tail = visible :: tail' := by
          cases found : skip tail with
          | nil =>
            rw [found, refuses] at valued
            cases valued
          | cons visible tail' => exact ⟨visible, tail', rfl⟩
        obtain ⟨visible, tail', found⟩ := solid
        have again := extended _ _ _ more valued follows
        rw [found, List.cons_append] at again
        simp [parseMember, parseString_settles _ _ _ more named, skip_append separated, skip_append found, again]
      · cases read
    · rw [parseMember.eq_2 _ _ fun _ same => opens (List.cons.inj same).1] at read
      cases read

theorem parseValue_nil (fuel : Nat) : parseValue fuel [] = none := by
  cases fuel <;> rfl

theorem parseNumber_head {value : Rat} (read : parseNumber text = some (value, rest)) :
    ∃ first tail, text = first :: tail ∧ (first.isDigit = true ∨ first = '-') := by
  cases text with
  | nil => cases read
  | cons first tail =>
    by_cases minus : first = '-'
    · exact ⟨first, tail, rfl, .inr minus⟩
    · apply Exists.intro first
      apply Exists.intro tail
      apply And.intro rfl
      by_contra other
      rw [not_or, Bool.not_eq_true] at other
      rw [parseNumber.eq_2 _ fun _ same => minus (List.cons.inj same).1, parseUnsigned, parseDigits,
        List.takeWhile_cons_of_neg (by simp [other.1])] at read
      cases read

/-- More fuel and more text change nothing about what has been read. -/
theorem parseValue_extends (grows : fuel ≤ enough) : Extends (parseValue fuel) (parseValue enough) := by
  induction fuel generalizing enough with
  | zero =>
    intro text value rest more read
    cases read
  | succ fuel ih =>
    obtain ⟨enough, rfl⟩ : ∃ less, enough = less + 1 := ⟨enough - 1, by omega⟩
    have inner : Extends (parseValue fuel) (parseValue enough) := ih (by omega)
    intro text value rest more read follows
    rw [parseValue.eq_def] at read
    dsimp only at read
    split at read
    · rename_i tail
      obtain ⟨⟨characters, left⟩, string, same⟩ := Option.map_eq_some_iff.mp read
      cases same
      rw [List.cons_append, parseValue, parseString_settles _ _ _ more string, Option.map_some]
    · rename_i tail
      obtain ⟨⟨items, left⟩, listed, same⟩ := Option.map_eq_some_iff.mp read
      cases same
      rw [List.cons_append, parseValue,
        parseContainer_settles inner (parseValue_nil fuel) listed (by omega) more, Option.map_some]
    · rename_i tail
      obtain ⟨⟨pairs, left⟩, listed, same⟩ := Option.map_eq_some_iff.mp read
      cases same
      rw [List.cons_append, parseValue, parseContainer_settles (parseMember_extends inner (parseValue_nil fuel)) rfl
        listed (by omega) more, Option.map_some]
    · cases read
      rfl
    · cases read
      rfl
    · cases read
      rfl
    · obtain ⟨⟨number, left⟩, numeric, same⟩ := Option.map_eq_some_iff.mp read
      cases same
      obtain ⟨first, tail, split, opens⟩ := parseNumber_head numeric
      have again := parseNumber_extends _ _ _ more numeric follows
      subst split
      rw [List.cons_append] at again ⊢
      rw [parseValue_number opens, again, Option.map_some]

theorem parseValue_object_settles {value : Json} (read : parseValue fuel ('{' :: text) = some (value, rest))
    (grows : fuel ≤ enough) (more : Text) :
    parseValue enough ('{' :: (text ++ more)) = some (value, rest ++ more) := by
  cases fuel with
  | zero => cases read
  | succ fuel =>
    obtain ⟨enough, rfl⟩ : ∃ less, enough = less + 1 := ⟨enough - 1, by omega⟩
    have inner : Extends (parseValue fuel) (parseValue enough) := parseValue_extends (by omega)
    rw [parseValue] at read
    obtain ⟨⟨pairs, left⟩, listed, same⟩ := Option.map_eq_some_iff.mp read
    cases same
    rw [parseValue, parseContainer_settles (parseMember_extends inner (parseValue_nil fuel)) rfl listed (by omega)
      more, Option.map_some]

theorem blank_of_skip (nothing : skip text = []) : Blank text := by
  intro character member
  rw [skip, List.dropWhile_eq_nil_iff] at nothing
  exact nothing character member

theorem skip_brace (text : Text) : skip ('{' :: text) = '{' :: text := List.dropWhile_cons_of_neg (by decide)

/-- What a complete object text has more than a cut one that parses as well is blank. -/
theorem blank_of_parse_prefix {value whole : Json} (cut : parse ('{' :: text) = some value)
    (complete : parse ('{' :: (text ++ more)) = some whole) : Blank more := by
  rw [parse, skip_brace] at cut complete
  obtain ⟨⟨cutValue, left⟩, read, -⟩ := Option.bind_eq_some_iff.mp cut
  obtain ⟨⟨wholeValue, behind⟩, readWhole, ended⟩ := Option.bind_eq_some_iff.mp complete
  have again := parseValue_object_settles read (by simp : ('{' :: text).length + 1 ≤ ('{' :: (text ++ more)).length + 1)
    more
  rw [again] at readWhole
  cases readWhole
  dsimp only at ended
  split at ended
  · rename_i nothing
    have blank := blank_of_skip nothing
    exact fun character member => blank character (List.mem_append_right left member)
  · cases ended

theorem exists_wrap_eq (gap : Text) (depth : Nat) (opening closing : Char) (parts : List Text) :
    ∃ inner, wrap gap depth opening closing parts = opening :: (inner ++ [closing]) := by
  cases parts with
  | nil => exact ⟨[], rfl⟩
  | cons part parts =>
    refine ⟨newline gap (depth + 1) ++ (part ++ ((parts.flatMap fun part => ',' :: (newline gap (depth + 1) ++ part)) ++
      newline gap depth)), ?_⟩
    simp [wrap, trailing]

/-- However much of an object text reaches the disk: unless all of it does, it does not parse. -/
theorem parse_cut {gap : Text} (isGap : Blank gap) {properties : List (String × Json)}
    (printable : Printable (.obj properties)) {blank : Text} (isBlank : Blank blank) (kept : Nat) :
    parse ((stringify gap 0 (.obj properties) ++ blank).take kept) =
      if kept < (stringify gap 0 (.obj properties)).length then none else some (.obj properties) := by
  have complete := parse_stringify isGap printable isBlank
  by_cases short : kept < (stringify gap 0 (.obj properties)).length
  · rw [if_pos short]
    obtain ⟨inner, shape⟩ := exists_wrap_eq gap 0 '{' '}' (stringifyMembers gap 1 properties)
    have written : stringify gap 0 (.obj properties) = '{' :: (inner ++ ['}']) := by
      rw [stringify, shape]
    rw [written] at complete short ⊢
    cases kept with
    | zero => rfl
    | succ kept =>
      have inside : kept ≤ inner.length := by
        simp at short
        omega
      have split : '{' :: (inner ++ ['}']) ++ blank =
          '{' :: (inner.take kept ++ (inner.drop kept ++ '}' :: blank)) := by
        rw [← List.append_assoc (inner.take kept), List.take_append_drop]
        simp
      have front : ('{' :: (inner.take kept ++ (inner.drop kept ++ '}' :: blank))).take (kept + 1) =
          '{' :: inner.take kept := by
        rw [List.take_succ_cons, List.take_append_of_le_length (by simp [inside]), List.take_take]
        simp
      rw [split] at complete ⊢
      rw [front]
      cases cut : parse ('{' :: inner.take kept) with
      | none => rfl
      | some value =>
        have white := blank_of_parse_prefix cut complete '}' (by simp)
        exact absurd white (by decide)
  · rw [if_neg short, List.take_append, List.take_of_length_le (Nat.le_of_not_lt short)]
    exact parse_stringify isGap printable fun character member => isBlank character (List.mem_of_mem_take member)

end Schema.Text
