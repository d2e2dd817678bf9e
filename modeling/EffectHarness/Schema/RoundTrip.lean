import EffectHarness.Schema.JsonText
import Mathlib.Tactic.ByContra

namespace Schema.Text

variable {α : Type} {gap text rest : Text} {depth fuel : Nat} {value : α} {item : Parser α} {closing : Char}

/-- What `JSON.stringify` writes without loss: integers, and objects without repeated keys. -/
inductive Printable : Json → Prop
  | null : Printable .null
  | bool (value : Bool) : Printable (.bool value)
  | num (value : Rat) (integral : value.den = 1) : Printable (.num value)
  | str (text : String) : Printable (.str text)
  | arr (items : List Json) (printable : ∀ item ∈ items, Printable item) : Printable (.arr items)
  | obj (properties : List (String × Json)) (distinct : (properties.map Prod.fst).Nodup)
      (printable : ∀ pair ∈ properties, Printable pair.2) : Printable (.obj properties)

/-- The text behind a value does not continue it as a number. -/
def EndsNumber (rest : Text) : Prop :=
  ∀ next ∈ rest.head?, next.isDigit = false ∧ next ≠ '.' ∧ next ≠ 'e' ∧ next ≠ 'E'

def Reads (parser : Parser α) (text : Text) (value : α) : Prop :=
  ∀ rest, EndsNumber rest → parser (text ++ rest) = some (value, rest)

theorem hexValue_digitChar : ∀ digit < 16, hexValue (Nat.digitChar digit) = some digit := by
  decide

theorem unicode_control (character : Char) (control : character.toNat < 32) :
    unicode ['0', '0', Nat.digitChar (character.toNat / 16), Nat.digitChar (character.toNat % 16)] =
      some character := by
  have zero : hexValue '0' = some 0 := by decide
  have high := hexValue_digitChar (character.toNat / 16) (by omega)
  have low := hexValue_digitChar (character.toNat % 16) (by omega)
  have code : 16 * (character.toNat / 16) + character.toNat % 16 = character.toNat := by omega
  have plain : ¬ (0xd800 ≤ character.toNat ∧ character.toNat < 0xe000) := by omega
  simp [unicode, zero, high, low, code, plain, Char.ofNat_toNat]

theorem parseString_named {escaped character : Char} (text : Text) (named : unescape escaped = some character) :
    parseString ('\\' :: escaped :: text) =
      (parseString text).map fun (characters, rest) => (character :: characters, rest) := by
  have other : escaped ≠ 'u' := by
    intro same
    subst same
    cases named
  rw [parseString.eq_3 _ _ fun _ _ _ _ _ same _ => other same, named]
  cases parseString text <;> rfl

theorem parseString_escape (character : Char) (text : Text) :
    parseString (escape character ++ text) =
      (parseString text).map fun (characters, rest) => (character :: characters, rest) := by
  unfold escape
  split
  · exact parseString_named text rfl
  · exact parseString_named text rfl
  · exact parseString_named text rfl
  · exact parseString_named text rfl
  · exact parseString_named text rfl
  · exact parseString_named text rfl
  · exact parseString_named text rfl
  · rename_i quote backslash _ _ _ _ _
    split
    · rename_i control
      simp only [List.cons_append, List.nil_append, parseString, unicode_control character control]
      cases parseString text <;> rfl
    · rename_i printed
      rw [List.singleton_append, parseString.eq_4 _ _ quote (fun _ _ _ _ _ same _ => backslash same)
        fun _ _ same _ => backslash same]
      have allowed : character ≠ '\\' ∧ 32 ≤ character.toNat := ⟨backslash, Nat.le_of_not_lt printed⟩
      rw [if_pos allowed]

theorem parseString_quote (text : Text) (rest : Text) :
    parseString (text.flatMap escape ++ '"' :: rest) = some (text, rest) := by
  induction text with
  | nil => rfl
  | cons character text ih => rw [List.flatMap_cons, List.append_assoc, parseString_escape, ih, Option.map_some]

theorem parseDigits_append {digits : Text} (nonempty : digits ≠ []) (all : ∀ digit ∈ digits, digit.isDigit = true)
    (ends : EndsNumber rest) : parseDigits (digits ++ rest) = some (digits, rest) := by
  have stops : rest.takeWhile Char.isDigit = [] ∧ rest.dropWhile Char.isDigit = rest := by
    cases rest with
    | nil => exact ⟨rfl, rfl⟩
    | cons next rest =>
      have other : next.isDigit = false := (ends next rfl).1
      simp [other]
  have front : (digits ++ rest).takeWhile Char.isDigit = digits := by
    rw [List.takeWhile_append_of_pos all, stops.1, List.append_nil]
  have back : (digits ++ rest).dropWhile Char.isDigit = rest := by
    rw [List.dropWhile_append_of_pos all, stops.2]
  rw [parseDigits, front, back]
  cases digits with
  | nil => exact absurd rfl nonempty
  | cons first digits => rfl

theorem head_toDigits (value : Nat) :
    Nat.toDigits 10 value = ['0'] ∨ (Nat.toDigits 10 value).head? ≠ some '0' := by
  induction value using Nat.strongRecOn with
  | ind value ih =>
    rw [Nat.toDigits_eq_if (by decide)]
    split
    · have digits : ∀ digit < 10, [Nat.digitChar digit] = ['0'] ∨ [Nat.digitChar digit].head? ≠ some '0' := by decide
      exact digits value ‹_›
    · have positive : value / 10 ≠ 0 := by omega
      have nonempty : Nat.toDigits 10 (value / 10) ≠ [] := Nat.toDigits_ne_nil
      rcases ih (value / 10) (by omega) with zero | other
      · have back := congrArg (Nat.ofDigitChars 10 · 0) zero
        simp only [Nat.ofDigitChars_ten_toDigits] at back
        exact absurd back positive
      · apply Or.inr
        rw [List.head?_append_of_ne_nil _ nonempty]
        exact other

theorem parseUnsigned_toDigits (value : Nat) : Reads parseUnsigned (Nat.toDigits 10 value) (value : Rat) := by
  intro rest ends
  have digits : parseDigits (Nat.toDigits 10 value ++ rest) = some (Nat.toDigits 10 value, rest) :=
    parseDigits_append Nat.toDigits_ne_nil (fun _ member => Nat.isDigit_of_mem_toDigits (by decide) (by decide) member)
      ends
  have fraction : parseFraction rest = some ([], rest) := by
    cases rest with
    | nil => rfl
    | cons next rest =>
      have other : next ≠ '.' := (ends next rfl).2.1
      rw [parseFraction.eq_2 _ fun _ same => other (List.cons.inj same).1]
  have exponent : parseExponent rest = some (0, rest) := by
    cases rest with
    | nil => rfl
    | cons next rest =>
      obtain ⟨-, -, lower, upper⟩ := ends next rfl
      simp [parseExponent, lower, upper]
  simp only [parseUnsigned, digits, fraction, exponent, Option.bind_eq_bind, Option.bind_some, head_toDigits,
    ↓reduceIte, List.append_nil, Nat.ofDigitChars_ten_toDigits, List.length_nil]
  simp

theorem parseNumber_integer (value : Int) : Reads parseNumber (integer value) (value : Rat) := by
  intro rest ends
  cases value with
  | ofNat value =>
    have read := parseUnsigned_toDigits value rest ends
    have nonempty : Nat.toDigits 10 value ≠ [] := Nat.toDigits_ne_nil
    have digits : ∀ digit ∈ Nat.toDigits 10 value, digit.isDigit = true :=
      fun _ member => Nat.isDigit_of_mem_toDigits (by decide) (by decide) member
    rw [integer]
    cases split : Nat.toDigits 10 value with
    | nil => exact absurd split nonempty
    | cons first tail =>
      have positive : first ≠ '-' := by
        intro same
        have digit := digits first (by rw [split]; simp)
        rw [same] at digit
        exact absurd digit (by decide)
      rw [split] at read
      rw [List.cons_append, parseNumber.eq_2 _ fun _ same => positive (List.cons.inj same).1, ← List.cons_append,
        read]
      rfl
  | negSucc value =>
    have read := parseUnsigned_toDigits (value + 1) rest ends
    rw [integer, List.cons_append, parseNumber, read]
    simp [Int.negSucc_eq]

/-- The text starts with a character that is neither skipped nor taken for the end of a container. -/
def Solid (closing : Char) (text : Text) : Prop :=
  ∃ first tail, text = first :: tail ∧ isWhitespace first = false ∧ first ≠ closing

def Blank (text : Text) : Prop := ∀ character ∈ text, isWhitespace character = true

theorem skip_blank_append {blank : Text} (isBlank : Blank blank) (text : Text) : skip (blank ++ text) = skip text := by
  rw [skip, List.dropWhile_append_of_pos isBlank, skip]

theorem Solid.skip (solid : Solid closing text) (rest : Text) : skip (text ++ rest) = text ++ rest := by
  obtain ⟨first, tail, same, visible, -⟩ := solid
  rw [same, List.cons_append, Text.skip, List.dropWhile_cons_of_neg (by simp [visible])]

def Closes (closing : Char) : Prop := closing = ']' ∨ closing = '}'

theorem Closes.ends (closes : Closes closing) :
    closing.isDigit = false ∧ closing ≠ '.' ∧ closing ≠ 'e' ∧ closing ≠ 'E' := by
  rcases closes with rfl | rfl <;> decide

theorem Closes.visible (closes : Closes closing) : isWhitespace closing = false := by
  rcases closes with rfl | rfl <;> decide

theorem Closes.differs (closes : Closes closing) : closing ≠ ',' := by
  rcases closes with rfl | rfl <;> decide

theorem endsNumber_cons {next : Char} (ends : next.isDigit = false ∧ next ≠ '.' ∧ next ≠ 'e' ∧ next ≠ 'E')
    (rest : Text) : EndsNumber (next :: rest) := by
  intro first member
  have same : next = first := by simpa using member
  rw [← same]
  exact ends

theorem endsNumber_blank {blank : Text} (isBlank : Blank blank) (ends : EndsNumber rest) :
    EndsNumber (blank ++ rest) := by
  cases blank with
  | nil => exact ends
  | cons character blank =>
    have white : isWhitespace character = true := isBlank character (by simp)
    simp only [isWhitespace, Bool.or_eq_true, beq_iff_eq] at white
    apply endsNumber_cons
    rcases white with ((white | white) | white) | white <;> rw [white] <;> decide

theorem parseList_trailing {inner outer part : Text} (closes : Closes closing) (isInner : Blank inner)
    (isOuter : Blank outer) (reads : Reads item part value) (more : List (Text × α))
    (each : ∀ pair ∈ more, Solid closing pair.1 ∧ Reads item pair.1 pair.2) (enough : more.length < fuel) (rest : Text) :
    parseList item closing fuel (part ++ (trailing inner outer closing (more.map Prod.fst) ++ rest)) =
      some (value :: more.map Prod.snd, rest) := by
  induction more generalizing part value fuel with
  | nil =>
    obtain ⟨fuel, rfl⟩ := Nat.exists_eq_succ_of_ne_zero (Nat.ne_zero_of_lt enough)
    have last : trailing inner outer closing [] ++ rest = outer ++ closing :: rest := by simp [trailing]
    have ends : EndsNumber (outer ++ closing :: rest) := endsNumber_blank isOuter (endsNumber_cons closes.ends rest)
    have reached : skip (outer ++ closing :: rest) = closing :: rest := by
      rw [skip_blank_append isOuter, skip, List.dropWhile_cons_of_neg (by simp [closes.visible])]
    rw [List.map_nil, last, parseList, reads _ ends]
    simp [reached]
  | cons pair more ih =>
    obtain ⟨fuel, rfl⟩ := Nat.exists_eq_succ_of_ne_zero (Nat.ne_zero_of_lt enough)
    obtain ⟨⟨solid, readsNext⟩, others⟩ := List.forall_mem_cons.mp each
    have next : trailing inner outer closing ((pair :: more).map Prod.fst) ++ rest =
        ',' :: (inner ++ (pair.1 ++ (trailing inner outer closing (more.map Prod.fst) ++ rest))) := by
      simp [trailing]
    have reached : skip (inner ++ (pair.1 ++ (trailing inner outer closing (more.map Prod.fst) ++ rest))) =
        pair.1 ++ (trailing inner outer closing (more.map Prod.fst) ++ rest) :=
      (skip_blank_append isInner _).trans (solid.skip _)
    have comma : ∀ text, skip (',' :: text) = ',' :: text :=
      fun text => List.dropWhile_cons_of_neg (by decide)
    have continues := ih readsNext others (Nat.lt_of_succ_lt_succ enough)
    rw [next, parseList, reads _ (endsNumber_cons (by decide) _)]
    simp only [Option.bind_eq_bind, Option.bind_some, comma, if_neg (Ne.symm closes.differs), ↓reduceIte, reached,
      continues]
    rfl

theorem blank_newline (isGap : Blank gap) (depth : Nat) : Blank (newline gap depth) := by
  intro character member
  rw [newline] at member
  split at member
  · cases member
  · rcases List.mem_cons.mp member with rfl | indented
    · decide
    · obtain ⟨unit, repeated, inside⟩ := List.mem_flatten.mp indented
      rw [List.eq_of_mem_replicate repeated] at inside
      exact isGap character inside

theorem parseContainer_wrap (opening : Char) (closes : Closes closing) (isGap : Blank gap) (depth : Nat)
    (parts : List (Text × α)) (each : ∀ pair ∈ parts, Solid closing pair.1 ∧ Reads item pair.1 pair.2)
    (enough : parts.length ≤ fuel) (rest : Text) :
    ∃ text, wrap gap depth opening closing (parts.map Prod.fst) ++ rest = opening :: text ∧
      parseContainer item closing fuel text = some (parts.map Prod.snd, rest) := by
  cases parts with
  | nil =>
    have reached : skip (closing :: rest) = closing :: rest :=
      List.dropWhile_cons_of_neg (by simp [closes.visible])
    exact ⟨closing :: rest, rfl, by simp [parseContainer, reached]⟩
  | cons pair parts =>
    obtain ⟨⟨solid, reads⟩, others⟩ := List.forall_mem_cons.mp each
    have inner : Blank (newline gap (depth + 1)) := blank_newline isGap (depth + 1)
    have outer : Blank (newline gap depth) := blank_newline isGap depth
    have listed := parseList_trailing closes inner outer reads parts others enough rest
    have split : wrap gap depth opening closing ((pair :: parts).map Prod.fst) ++ rest = opening ::
        (newline gap (depth + 1) ++ (pair.1 ++
          (trailing (newline gap (depth + 1)) (newline gap depth) closing (parts.map Prod.fst) ++ rest))) := by
      simp [wrap]
    apply Exists.intro _
    apply And.intro split
    rw [parseContainer, skip_blank_append inner, solid.skip]
    obtain ⟨first, tail, same, -, differs⟩ := solid
    rw [same, List.cons_append] at listed ⊢
    simp only [if_neg differs, listed, List.map_cons]

theorem stringifyItems_eq (gap : Text) (depth : Nat) (items : List Json) :
    stringifyItems gap depth items = items.map (stringify gap depth) := by
  induction items with
  | nil => rfl
  | cons item items ih => rw [stringifyItems, ih, List.map_cons]

def member (gap : Text) (depth : Nat) (pair : String × Json) : Text :=
  quote pair.1 ++ (colon gap ++ stringify gap depth pair.2)

theorem stringifyMembers_eq (gap : Text) (depth : Nat) (properties : List (String × Json)) :
    stringifyMembers gap depth properties = properties.map (member gap depth) := by
  induction properties with
  | nil => rfl
  | cons pair properties ih =>
    rcases pair with ⟨key, value⟩
    rw [stringifyMembers, ih, List.map_cons, member]

theorem length_part_le {inner part : Text} {parts : List Text} (listed : part ∈ parts) :
    part.length ≤ (parts.flatMap fun part => ',' :: (inner ++ part)).length := by
  induction parts with
  | nil => cases listed
  | cons other parts ih =>
    simp only [List.flatMap_cons, List.length_append, List.length_cons]
    rcases List.mem_cons.mp listed with same | later
    · rw [same]
      omega
    · have rest := ih later
      omega

theorem length_parts_le {inner : Text} (parts : List Text) :
    parts.length ≤ (parts.flatMap fun part => ',' :: (inner ++ part)).length := by
  induction parts with
  | nil => simp
  | cons other parts ih =>
    simp only [List.flatMap_cons, List.length_append, List.length_cons]
    omega

theorem length_wrap_part {opening : Char} {part : Text} {parts : List Text} (listed : part ∈ parts) :
    part.length + 2 ≤ (wrap gap depth opening closing parts).length := by
  cases parts with
  | nil => cases listed
  | cons first parts =>
    simp only [wrap, trailing, List.length_cons, List.length_append, List.length_nil]
    rcases List.mem_cons.mp listed with same | later
    · rw [same]
      omega
    · have inside : part.length ≤ (parts.flatMap fun part => ',' :: (newline gap (depth + 1) ++ part)).length :=
        length_part_le later
      omega

theorem length_wrap_parts {opening : Char} (parts : List Text) :
    parts.length + 1 ≤ (wrap gap depth opening closing parts).length := by
  cases parts with
  | nil => simp [wrap]
  | cons first parts =>
    have commas : parts.length ≤ (parts.flatMap fun part => ',' :: (newline gap (depth + 1) ++ part)).length :=
      length_parts_le parts
    simp only [wrap, trailing, List.length_cons, List.length_append, List.length_nil]
    omega

/-- A container is read back if each value in it is read back with the fuel that its own text leaves. -/
theorem parseContainer_printed (opening : Char) (closes : Closes closing) (isGap : Blank gap) (depth : Nat)
    (print : α → Text) (values : List α)
    (enough : (wrap gap depth opening closing (values.map print)).length ≤ fuel + 1)
    (each : ∀ value ∈ values, (print value).length < fuel →
      Solid closing (print value) ∧ Reads item (print value) value) (rest : Text) :
    ∃ text, wrap gap depth opening closing (values.map print) ++ rest = opening :: text ∧
      parseContainer item closing fuel text = some (values, rest) := by
  have texts : (values.map fun value => (print value, value)).map Prod.fst = values.map print := by
    rw [List.map_map]
    rfl
  have same : (values.map fun value => (print value, value)).map Prod.snd = values := by
    rw [List.map_map]
    exact List.map_id values
  have count : (values.map fun value => (print value, value)).length ≤ fuel := by
    have parts := (length_wrap_parts (values.map print)).trans enough
    simpa using parts
  have reads : ∀ pair ∈ values.map fun value => (print value, value),
      Solid closing pair.1 ∧ Reads item pair.1 pair.2 := by
    intro pair listed
    obtain ⟨value, present, rfl⟩ := List.mem_map.mp listed
    have size := (length_wrap_part (List.mem_map_of_mem present)).trans enough
    exact each value present (by omega)
  have wrapped := parseContainer_wrap opening closes isGap depth _ reads count rest
  rw [texts, same] at wrapped
  exact wrapped

theorem solid_digits {digits : Text} (nonempty : digits ≠ []) (all : ∀ digit ∈ digits, digit.isDigit = true)
    (closes : Closes closing) : Solid closing digits := by
  cases digits with
  | nil => exact absurd rfl nonempty
  | cons first tail =>
    have digit : first.isDigit = true := all first (by simp)
    have visible : isWhitespace first = false := by
      by_contra white
      simp only [isWhitespace, Bool.not_eq_false, Bool.or_eq_true, beq_iff_eq] at white
      rcases white with ((white | white) | white) | white <;> rw [white] at digit <;> exact absurd digit (by decide)
    have differs : first ≠ closing := by
      intro same
      rw [same, closes.ends.1] at digit
      cases digit
    exact ⟨first, tail, rfl, visible, differs⟩

theorem solid_cons {first : Char} {tail : Text} (visible : isWhitespace first = false) (array : first ≠ ']')
    (object : first ≠ '}') (closes : Closes closing) : Solid closing (first :: tail) := by
  have differs : first ≠ closing := by
    rcases closes with rfl | rfl <;> assumption
  exact ⟨first, tail, rfl, visible, differs⟩

theorem solid_wrap {opening shut : Char} {parts : List Text} (visible : isWhitespace opening = false)
    (array : opening ≠ ']') (object : opening ≠ '}') (closes : Closes closing) :
    Solid closing (wrap gap depth opening shut parts) := by
  cases parts <;> exact solid_cons visible array object closes

theorem solid_stringify (gap : Text) (depth : Nat) (closes : Closes closing) (json : Json) :
    Solid closing (stringify gap depth json) := by
  cases json with
  | null => exact solid_cons (by decide) (by decide) (by decide) closes
  | bool value => cases value <;> exact solid_cons (by decide) (by decide) (by decide) closes
  | num value =>
    rw [stringify]
    cases value.num with
    | ofNat value =>
      exact solid_digits Nat.toDigits_ne_nil
        (fun _ member => Nat.isDigit_of_mem_toDigits (by decide) (by decide) member) closes
    | negSucc value => exact solid_cons (by decide) (by decide) (by decide) closes
  | str text => exact solid_cons (by decide) (by decide) (by decide) closes
  | arr items =>
    rw [stringify]
    exact solid_wrap (by decide) (by decide) (by decide) closes
  | obj properties =>
    rw [stringify]
    exact solid_wrap (by decide) (by decide) (by decide) closes

theorem assign_of_not_mem {properties : List (String × Json)} {pair : String × Json}
    (absent : pair.1 ∉ properties.map Prod.fst) : assign properties pair = properties ++ [pair] := by
  have unused : (properties.any fun other => other.1 == pair.1) = false := by
    rw [List.any_eq_false]
    intro other present same
    exact absent (List.mem_map.mpr ⟨other, present, eq_of_beq same⟩)
  rw [assign, unused, if_neg Bool.false_ne_true]

theorem foldl_assign {before properties : List (String × Json)}
    (distinct : ((before ++ properties).map Prod.fst).Nodup) :
    properties.foldl assign before = before ++ properties := by
  induction properties generalizing before with
  | nil => simp
  | cons pair properties ih =>
    have absent : pair.1 ∉ before.map Prod.fst := by
      rw [List.map_append, List.map_cons, List.nodup_append] at distinct
      intro present
      exact distinct.2.2 pair.1 present pair.1 (by simp) rfl
    rw [List.foldl_cons, assign_of_not_mem absent, ih (by simpa using distinct)]
    simp

theorem parseMember_member {parse : Parser Json} {pair : String × Json}
    (solid : Solid '}' (stringify gap depth pair.2)) (reads : Reads parse (stringify gap depth pair.2) pair.2) :
    Reads (parseMember parse) (member gap depth pair) pair := by
  intro rest ends
  have opens : member gap depth pair ++ rest =
      '"' :: (pair.1.toList.flatMap escape ++ '"' :: (colon gap ++ (stringify gap depth pair.2 ++ rest))) := by
    simp [member, quote]
  have separated : ∃ text, skip (colon gap ++ (stringify gap depth pair.2 ++ rest)) = ':' :: text ∧
      skip text = stringify gap depth pair.2 ++ rest := by
    rw [colon]
    split
    · exact ⟨_, List.dropWhile_cons_of_neg (by decide), solid.skip rest⟩
    · have blank : Blank [' '] := by simp [Blank, isWhitespace]
      exact ⟨' ' :: (stringify gap depth pair.2 ++ rest), List.dropWhile_cons_of_neg (by decide),
        (skip_blank_append blank _).trans (solid.skip rest)⟩
  obtain ⟨text, reached, value⟩ := separated
  rw [opens, parseMember]
  simp [parseString_quote, reached, value, reads rest ends]

theorem integer_head (value : Int) :
    ∃ first tail, integer value = first :: tail ∧ (first.isDigit = true ∨ first = '-') := by
  cases value with
  | ofNat value =>
    have nonempty : Nat.toDigits 10 value ≠ [] := Nat.toDigits_ne_nil
    obtain ⟨first, tail, same⟩ := List.exists_cons_of_ne_nil nonempty
    have digit : first.isDigit = true :=
      Nat.isDigit_of_mem_toDigits (by decide) (by decide) (same ▸ List.mem_cons_self)
    exact ⟨first, tail, same, .inl digit⟩
  | negSucc value => exact ⟨'-', _, rfl, .inr rfl⟩

theorem parseValue_number {first : Char} {tail : Text} (numeric : first.isDigit = true ∨ first = '-') :
    parseValue (fuel + 1) (first :: tail) =
      (parseNumber (first :: tail)).map fun (value, rest) => (.num value, rest) := by
  rw [parseValue.eq_8]
  all_goals
    intros
    rename_i same
    obtain ⟨rfl, -⟩ := List.cons.inj same
    exact absurd numeric (by decide)

/-- The parser reads back what was written, and stops behind it. -/
theorem parseValue_stringify (isGap : Blank gap) {json : Json} (printable : Printable json) (depth : Nat)
    (enough : (stringify gap depth json).length ≤ fuel) : Reads (parseValue fuel) (stringify gap depth json) json := by
  obtain ⟨fuel, rfl⟩ : ∃ less, fuel = less + 1 := by
    obtain ⟨first, tail, same, -⟩ := solid_stringify gap depth (.inl rfl) json
    rw [same, List.length_cons] at enough
    exact ⟨fuel - 1, by omega⟩
  induction json using Json.ind generalizing fuel depth with
  | null => exact fun rest _ => rfl
  | bool value => cases value <;> exact fun rest _ => rfl
  | num value =>
    cases printable with
    | num value integral =>
      intro rest ends
      obtain ⟨first, tail, same, numeric⟩ := integer_head value.num
      have read := parseNumber_integer value.num rest ends
      rw [stringify]
      rw [same, List.cons_append] at read ⊢
      rw [parseValue_number numeric, read, Option.map_some, Rat.coe_int_num_of_den_eq_one integral]
  | str text =>
    intro rest _
    have split : stringify gap depth (.str text) ++ rest = '"' :: (text.toList.flatMap escape ++ '"' :: rest) := by
      simp [stringify, quote]
    simp [split, parseValue, parseString_quote]
  | arr items ih =>
    cases printable with
    | arr _ printable =>
      intro rest _
      rw [stringify, stringifyItems_eq] at enough ⊢
      have each : ∀ item ∈ items, (stringify gap (depth + 1) item).length < fuel →
          Solid ']' (stringify gap (depth + 1) item) ∧
            Reads (parseValue fuel) (stringify gap (depth + 1) item) item := by
        intro item present shorter
        obtain ⟨less, rfl⟩ : ∃ less, fuel = less + 1 := ⟨fuel - 1, by omega⟩
        have reads := ih item present (printable item present) (depth + 1) less (by omega)
        exact ⟨solid_stringify gap (depth + 1) (.inl rfl) item, reads⟩
      obtain ⟨text, split, read⟩ := parseContainer_printed '[' (.inl rfl) isGap depth _ items enough each rest
      rw [split, parseValue, read, Option.map_some]
  | obj properties ih =>
    cases printable with
    | obj _ distinct printable =>
      intro rest _
      rw [stringify, stringifyMembers_eq] at enough ⊢
      have each : ∀ property ∈ properties, (member gap (depth + 1) property).length < fuel →
          Solid '}' (member gap (depth + 1) property) ∧
            Reads (parseMember (parseValue fuel)) (member gap (depth + 1) property) property := by
        intro property present shorter
        have inner : (stringify gap (depth + 1) property.2).length ≤ (member gap (depth + 1) property).length := by
          simp only [member, List.length_append]
          omega
        obtain ⟨less, rfl⟩ : ∃ less, fuel = less + 1 := ⟨fuel - 1, by omega⟩
        have solid := solid_stringify gap (depth + 1) (.inr rfl) property.2
        have reads := ih property present (printable property present) (depth + 1) less (by omega)
        exact ⟨solid_cons (by decide) (by decide) (by decide) (.inr rfl), parseMember_member solid reads⟩
      obtain ⟨text, split, read⟩ := parseContainer_printed '{' (.inr rfl) isGap depth _ properties enough each rest
      have assigned : properties.foldl assign [] = properties := foldl_assign (by simpa using distinct)
      rw [split, parseValue, read, Option.map_some]
      dsimp only
      rw [assigned]

theorem parse_stringify (isGap : Blank gap) {json : Json} (printable : Printable json) {blank : Text}
    (isBlank : Blank blank) : parse (stringify gap 0 json ++ blank) = some json := by
  have nothing : EndsNumber [] := by simp [EndsNumber]
  have ends : EndsNumber (blank ++ []) := endsNumber_blank isBlank nothing
  have stops : skip (blank ++ []) = [] := (skip_blank_append isBlank []).trans rfl
  rw [List.append_nil] at ends stops
  have read := parseValue_stringify isGap printable 0 (Nat.le_succ_of_le (Nat.le_add_right _ blank.length)) blank ends
  rw [parse, (solid_stringify gap 0 (.inl rfl) json).skip, List.length_append, read]
  simp [stops]

end Schema.Text
