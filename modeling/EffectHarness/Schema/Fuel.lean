import EffectHarness.Schema.Truncation

namespace Schema.Text

variable {α : Type} {text rest : Text} {value : α} {item other : Parser α} {closing : Char} {fuel enough bound : Nat}

def Consumes (parser : Parser α) : Prop :=
  ∀ text value rest, parser text = some (value, rest) → rest.length < text.length

theorem length_skip_le (text : Text) : (skip text).length ≤ text.length := (List.dropWhile_sublist _).length_le

theorem parseString_consumes : Consumes parseString := by
  intro text value rest read
  induction text using parseString.induct generalizing value rest with
  | case1 text =>
    rw [parseString] at read
    cases read
    simp
  | case2 first second third fourth text ih =>
    rw [parseString] at read
    obtain ⟨character, -, read⟩ := Option.bind_eq_some_iff.mp read
    obtain ⟨⟨characters, left⟩, inner, same⟩ := Option.bind_eq_some_iff.mp read
    cases same
    have shorter := ih _ _ inner
    simp only [List.length_cons]
    omega
  | case3 escaped text short ih =>
    rw [parseString.eq_3 _ _ short] at read
    obtain ⟨character, -, read⟩ := Option.bind_eq_some_iff.mp read
    obtain ⟨⟨characters, left⟩, inner, same⟩ := Option.bind_eq_some_iff.mp read
    cases same
    have shorter := ih _ _ inner
    simp only [List.length_cons]
    omega
  | case4 character text quote long short printed ih =>
    rw [parseString_raw _ quote printed.1 printed.2] at read
    obtain ⟨⟨characters, left⟩, inner, same⟩ := Option.map_eq_some_iff.mp read
    cases same
    have shorter := ih _ _ inner
    simp only [List.length_cons]
    omega
  | case5 character text quote long short unprinted =>
    rw [parseString.eq_4 _ _ quote long short, if_neg unprinted] at read
    cases read
  | case6 => cases read

theorem parseDigits_consumes : Consumes parseDigits := by
  intro text value rest read
  have parts := congrArg List.length (List.takeWhile_append_dropWhile (p := Char.isDigit) (l := text))
  rw [List.length_append] at parts
  rw [parseDigits] at read
  cases digits : text.takeWhile Char.isDigit with
  | nil =>
    rw [digits] at read
    cases read
  | cons digit tail =>
    rw [digits] at read parts
    cases read
    rw [List.length_cons] at parts
    omega

theorem parseFraction_length {digits : Text} (read : parseFraction text = some (digits, rest)) :
    rest.length ≤ text.length := by
  rw [parseFraction.eq_def] at read
  split at read
  · have shorter := parseDigits_consumes _ _ _ read
    rw [List.length_cons]
    omega
  · cases read
    exact Nat.le_refl _

theorem parseSigned_consumes : Consumes parseSigned := by
  intro text value rest read
  rw [parseSigned.eq_def] at read
  split at read
  · obtain ⟨⟨digits, left⟩, inner, same⟩ := Option.map_eq_some_iff.mp read
    cases same
    exact Nat.lt_succ_of_lt (parseDigits_consumes _ _ _ inner)
  · obtain ⟨⟨digits, left⟩, inner, same⟩ := Option.map_eq_some_iff.mp read
    cases same
    exact Nat.lt_succ_of_lt (parseDigits_consumes _ _ _ inner)
  · obtain ⟨⟨digits, left⟩, inner, same⟩ := Option.map_eq_some_iff.mp read
    cases same
    exact parseDigits_consumes _ _ _ inner

theorem parseExponent_length {exponent : Int} (read : parseExponent text = some (exponent, rest)) :
    rest.length ≤ text.length := by
  cases text with
  | nil =>
    cases read
    exact Nat.le_refl _
  | cons marker text =>
    rw [parseExponent] at read
    split at read
    · have shorter := parseSigned_consumes _ _ _ read
      rw [List.length_cons]
      omega
    · cases read
      exact Nat.le_refl _

theorem parseUnsigned_consumes : Consumes parseUnsigned := by
  intro text value rest read
  rw [parseUnsigned] at read
  obtain ⟨⟨whole, afterWhole⟩, digits, read⟩ := Option.bind_eq_some_iff.mp read
  dsimp only at read
  split at read
  · obtain ⟨⟨fraction, afterFraction⟩, point, read⟩ := Option.bind_eq_some_iff.mp read
    obtain ⟨⟨exponent, afterExponent⟩, marker, read⟩ := Option.bind_eq_some_iff.mp read
    cases read
    have first := parseDigits_consumes _ _ _ digits
    have second := parseFraction_length point
    have third := parseExponent_length marker
    dsimp only at third ⊢
    omega
  · cases read

theorem parseNumber_consumes : Consumes parseNumber := by
  intro text value rest read
  rw [parseNumber.eq_def] at read
  split at read
  · obtain ⟨⟨magnitude, left⟩, inner, same⟩ := Option.map_eq_some_iff.mp read
    cases same
    have shorter := parseUnsigned_consumes _ _ _ inner
    rw [List.length_cons]
    omega
  · exact parseUnsigned_consumes _ _ _ read

/-- Two item parsers that agree on texts up to this length read the same lists from them. -/
theorem parseList_agrees (consumes : Consumes item)
    (agrees : ∀ text value rest, text.length ≤ bound → item text = some (value, rest) → other text = some (value, rest))
    {values : List α} (read : parseList item closing fuel text = some (values, rest)) (small : text.length ≤ bound)
    (grows : text.length < enough) : parseList other closing enough text = some (values, rest) := by
  induction fuel generalizing text values rest enough with
  | zero => cases read
  | succ fuel ih =>
    obtain ⟨enough, rfl⟩ : ∃ less, enough = less + 1 := ⟨enough - 1, by omega⟩
    rw [parseList] at read
    obtain ⟨⟨value, behind⟩, first, read⟩ := Option.bind_eq_some_iff.mp read
    have shorter := consumes _ _ _ first
    rw [parseList, agrees _ _ _ small first]
    dsimp only [Option.bind_eq_bind, Option.bind_some] at read ⊢
    cases reached : skip behind with
    | nil =>
      rw [reached] at read
      cases read
    | cons next tail =>
      have skipped := length_skip_le behind
      rw [reached, List.length_cons] at skipped
      rw [reached] at read
      dsimp only at read ⊢
      split at read
      · rename_i closed
        rw [if_pos closed]
        exact read
      · rename_i open_
        rw [if_neg open_]
        split at read
        · rename_i comma
          have blank := length_skip_le tail
          obtain ⟨⟨others, left⟩, later, same⟩ := Option.map_eq_some_iff.mp read
          rw [if_pos comma, ih later (by omega) (by omega)]
          exact congrArg some same
        · cases read

theorem parseContainer_agrees (consumes : Consumes item)
    (agrees : ∀ text value rest, text.length ≤ bound → item text = some (value, rest) → other text = some (value, rest))
    {values : List α} (read : parseContainer item closing fuel text = some (values, rest))
    (small : text.length ≤ bound) (grows : text.length < enough) :
    parseContainer other closing enough text = some (values, rest) := by
  have skipped := length_skip_le text
  rw [parseContainer] at read ⊢
  cases reached : skip text with
  | nil =>
    rw [reached] at read
    cases read
  | cons next tail =>
    rw [reached] at read skipped
    dsimp only at read ⊢
    split at read
    · rename_i closed
      rw [if_pos closed]
      exact read
    · rename_i open_
      rw [if_neg open_]
      exact parseList_agrees consumes agrees read (by omega) (by omega)

theorem parseList_length (consumes : Consumes item) {values : List α}
    (read : parseList item closing fuel text = some (values, rest)) : rest.length < text.length := by
  induction fuel generalizing text values rest with
  | zero => cases read
  | succ fuel ih =>
    rw [parseList] at read
    obtain ⟨⟨value, behind⟩, first, read⟩ := Option.bind_eq_some_iff.mp read
    have shorter := consumes _ _ _ first
    have skipped := length_skip_le behind
    dsimp only at read
    split at read
    · cases read
    · rename_i next tail reached
      rw [reached, List.length_cons] at skipped
      split at read
      · cases read
        omega
      · split at read
        · obtain ⟨⟨others, left⟩, later, same⟩ := Option.map_eq_some_iff.mp read
          cases same
          have blank := length_skip_le tail
          have rest := ih later
          dsimp only
          omega
        · cases read

theorem parseContainer_length (consumes : Consumes item) {values : List α}
    (read : parseContainer item closing fuel text = some (values, rest)) : rest.length < text.length := by
  have skipped := length_skip_le text
  rw [parseContainer] at read
  split at read
  · cases read
  · rename_i next tail reached
    rw [reached, List.length_cons] at skipped
    split at read
    · cases read
      omega
    · have shorter := parseList_length consumes read
      rw [List.length_cons] at shorter
      omega

theorem parseMember_consumes {parse : Parser Json} (consumes : Consumes parse) : Consumes (parseMember parse) := by
  intro text pair rest read
  rw [parseMember.eq_def] at read
  split at read
  · rename_i tail
    obtain ⟨⟨key, afterKey⟩, named, read⟩ := Option.bind_eq_some_iff.mp read
    dsimp only at read
    split at read
    · rename_i afterColon separated
      obtain ⟨⟨value, left⟩, valued, same⟩ := Option.bind_eq_some_iff.mp read
      cases same
      have key := parseString_consumes _ _ _ named
      have skipped := length_skip_le afterKey
      rw [separated, List.length_cons] at skipped
      have blank := length_skip_le afterColon
      have shorter := consumes _ _ _ valued
      simp only [List.length_cons]
      omega
    · cases read
  · cases read

theorem parseValue_consumes (fuel : Nat) : Consumes (parseValue fuel) := by
  induction fuel with
  | zero =>
    intro text value rest read
    cases read
  | succ fuel ih =>
    intro text value rest read
    rw [parseValue.eq_def] at read
    dsimp only at read
    split at read
    · obtain ⟨⟨characters, left⟩, inner, same⟩ := Option.map_eq_some_iff.mp read
      cases same
      exact Nat.lt_succ_of_lt (parseString_consumes _ _ _ inner)
    · obtain ⟨⟨items, left⟩, inner, same⟩ := Option.map_eq_some_iff.mp read
      cases same
      exact Nat.lt_succ_of_lt (parseContainer_length ih inner)
    · obtain ⟨⟨pairs, left⟩, inner, same⟩ := Option.map_eq_some_iff.mp read
      cases same
      exact Nat.lt_succ_of_lt (parseContainer_length (parseMember_consumes ih) inner)
    · cases read
      simp only [List.length_cons]
      omega
    · cases read
      simp only [List.length_cons]
      omega
    · cases read
      simp only [List.length_cons]
      omega
    · obtain ⟨⟨number, left⟩, inner, same⟩ := Option.map_eq_some_iff.mp read
      cases same
      exact parseNumber_consumes _ _ _ inner

theorem parseMember_agrees {first second : Parser Json}
    (agrees : ∀ text value rest, text.length ≤ bound → first text = some (value, rest) →
      second text = some (value, rest))
    (text : Text) (pair : String × Json) (rest : Text) (small : text.length ≤ bound)
    (read : parseMember first text = some (pair, rest)) : parseMember second text = some (pair, rest) := by
  rw [parseMember.eq_def] at read ⊢
  split at read
  · rename_i tail
    obtain ⟨⟨key, afterKey⟩, named, read⟩ := Option.bind_eq_some_iff.mp read
    have shorter := parseString_consumes _ _ _ named
    have skipped := length_skip_le afterKey
    simp only [named, Option.bind_eq_bind, Option.bind_some] at read ⊢
    split at read
    · rename_i afterColon separated
      obtain ⟨⟨value, left⟩, valued, same⟩ := Option.bind_eq_some_iff.mp read
      rw [separated, List.length_cons] at skipped
      have blank := length_skip_le afterColon
      rw [List.length_cons] at small
      rw [agrees _ _ _ (by omega) valued]
      exact same
    · cases read
  · cases read

/-- The fuel bounds nothing but the depth: one unit for each character is always enough. -/
theorem parseValue_agrees {value : Json} (read : parseValue fuel text = some (value, rest))
    (grows : text.length < enough) : parseValue enough text = some (value, rest) := by
  induction enough generalizing fuel text value rest with
  | zero => omega
  | succ enough ih =>
    cases fuel with
    | zero => cases read
    | succ fuel =>
      have agrees : ∀ bound < enough, ∀ text value rest, text.length ≤ bound →
          parseValue fuel text = some (value, rest) → parseValue enough text = some (value, rest) :=
        fun bound below text value rest small inner => ih inner (by omega)
      rw [parseValue.eq_def] at read ⊢
      dsimp only at read ⊢
      split at read
      · exact read
      · rename_i tail
        have below : tail.length < enough := by simpa using grows
        obtain ⟨⟨items, left⟩, inner, same⟩ := Option.map_eq_some_iff.mp read
        rw [parseContainer_agrees (parseValue_consumes fuel) (agrees _ below) inner (Nat.le_refl _) below]
        exact congrArg some same
      · rename_i tail
        have below : tail.length < enough := by simpa using grows
        obtain ⟨⟨pairs, left⟩, inner, same⟩ := Option.map_eq_some_iff.mp read
        rw [parseContainer_agrees (parseMember_consumes (parseValue_consumes fuel))
          (parseMember_agrees (agrees _ below)) inner (Nat.le_refl _) below]
        exact congrArg some same
      · exact read
      · exact read
      · exact read
      · exact read

theorem parseValue_fuel (first : text.length < fuel) (second : text.length < enough) :
    parseValue fuel text = parseValue enough text := by
  cases read : parseValue fuel text with
  | some result => exact (parseValue_agrees read second).symm
  | none =>
    cases other : parseValue enough text with
    | none => rfl
    | some result =>
      rw [parseValue_agrees other first] at read
      cases read

/-- The fuel of `parse` is no restriction. -/
theorem parse_eq (enough : text.length < fuel) :
    parse text = (parseValue fuel (skip text)).bind fun result =>
      if skip result.2 = [] then some result.1 else none := by
  have shorter := length_skip_le text
  have same : parseValue (text.length + 1) (skip text) = parseValue fuel (skip text) :=
    parseValue_fuel (by omega) (by omega)
  rw [parse, same]
  rfl

end Schema.Text
