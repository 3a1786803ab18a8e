import ColumnBridge.Proofs.Boundary.Limits

/-!
# The limit from the environment

A limit is written as a decimal numeral, and what a numeral denotes is fixed by
the places of its digits.  It is read from the left, digit by digit, and given
up at the first digit with which the number leaves the word.  Digits that follow
only make a number greater, so no numeral is given up that denotes a word; and
as nothing is ever reduced to a word, none is taken for another number.

Zeros in front do not count against the bound, so there are numerals of every
length.
-/

namespace ColumnBridge.Settings

variable {text : String} {digits more : List Char} {c : Char} {value next : Nat}

/-! ## Numerals -/

/-- The number that a decimal digit stands for. -/
def digitValue (c : Char) : Nat := c.toNat - '0'.toNat

/-- The number that decimal digits stand for, each according to its place. -/
def decimalValue (digits : List Char) : Nat :=
  Nat.ofDigits 10 (digits.reverse.map digitValue)

/-- A text denotes a number: it consists of decimal digits, of which there is
one at least, and which a plus sign may precede. -/
def Denotes (text : String) (value : Nat) : Prop :=
  ∃ digits : List Char, digits ≠ [] ∧ (∀ c ∈ digits, c.isDigit = true) ∧
    (text.toList = digits ∨ text.toList = '+' :: digits) ∧
      decimalValue digits = value

theorem decimalValue_append (digits more : List Char) :
    decimalValue (digits ++ more) = decimalValue digits * 10 ^ more.length +
      decimalValue more := by
  simp only [decimalValue, List.reverse_append, List.map_append,
    Nat.ofDigits_append, List.length_map, List.length_reverse]
  ring

theorem decimalValue_concat (digits : List Char) (c : Char) :
    decimalValue (digits ++ [c]) = decimalValue digits * 10 + digitValue c := by
  rw [decimalValue_append, List.length_singleton, pow_one]
  rfl

theorem decimalValue_le_append (digits more : List Char) :
    decimalValue digits ≤ decimalValue (digits ++ more) := by
  rw [decimalValue_append]
  have hpos : 0 < 10 ^ more.length := Nat.pow_pos (by decide)
  exact (Nat.le_mul_of_pos_right _ hpos).trans (Nat.le_add_right _ _)

theorem decimalValue_eq_ofDigitChars (digits : List Char) :
    decimalValue digits = Nat.ofDigitChars 10 digits 0 := by
  induction digits using List.reverseRecOn with
  | nil => rfl
  | append_singleton digits c ih =>
      rw [decimalValue_concat, ih, Nat.ofDigitChars_append,
        Nat.ofDigitChars_cons, Nat.ofDigitChars_nil, Nat.mul_comm]
      rfl

theorem decimalValue_zeros_append (zeros : Nat) (digits : List Char) :
    decimalValue (List.replicate zeros '0' ++ digits) =
      decimalValue digits := by
  rw [decimalValue_eq_ofDigitChars, decimalValue_eq_ofDigitChars,
    Nat.ofDigitChars_append, Nat.ofDigitChars_replicate_zero, Nat.mul_zero]

/-- What is left of a text without the sign in front of it. -/
def withoutSign : List Char → List Char
  | '+' :: rest => rest
  | text => text

theorem withoutSign_cons_of_isDigit (h : c.isDigit = true) (rest : List Char) :
    withoutSign (c :: rest) = c :: rest := by
  rw [withoutSign]
  intro after hplus
  cases hplus
  exact absurd h (by decide)

/-- A sign is not a digit, so digits behind a sign and digits without one are
told apart. -/
theorem withoutSign_eq_iff {chars : List Char}
    (hdigits : ∀ c ∈ digits, c.isDigit = true) :
    withoutSign chars = digits ↔ chars = digits ∨ chars = '+' :: digits := by
  have hplus : '+' ∉ digits := fun hmem => absurd (hdigits '+' hmem) (by decide)
  rw [withoutSign.eq_def]
  split
  next rest =>
    rw [List.cons.injEq]
    constructor
    · exact fun hrest => Or.inr ⟨rfl, hrest⟩
    · rintro (rfl | ⟨-, hrest⟩)
      · exact absurd List.mem_cons_self hplus
      · exact hrest
  next hunsigned =>
    constructor
    · exact Or.inl
    · rintro (hsame | hsigned)
      · exact hsame
      · exact absurd hsigned (hunsigned digits)

theorem denotes_iff :
    Denotes text value ↔
      withoutSign text.toList ≠ [] ∧
        (∀ c ∈ withoutSign text.toList, c.isDigit = true) ∧
        decimalValue (withoutSign text.toList) = value := by
  constructor
  · rintro ⟨digits, hne, hdigits, htext, hvalue⟩
    rw [(withoutSign_eq_iff hdigits).mpr htext]
    exact ⟨hne, hdigits, hvalue⟩
  · rintro ⟨hne, hdigits, hvalue⟩
    exact ⟨_, hne, hdigits, (withoutSign_eq_iff hdigits).mp rfl, hvalue⟩

/-- The rendering of a number denotes it, also with zeros and a sign in
front. -/
theorem denotes_toString (zeros n : Nat) {sign : String}
    (hsign : sign = "" ∨ sign = "+") :
    Denotes (sign ++ String.ofList (List.replicate zeros '0') ++ toString n)
      n := by
  have hrendered : (toString n).toList = Nat.toDigits 10 n := by
    rw [Nat.toString_eq_repr, Nat.toList_repr]
  refine ⟨List.replicate zeros '0' ++ Nat.toDigits 10 n, ?_, ?_, ?_, ?_⟩
  · exact List.append_ne_nil_of_right_ne_nil _ Nat.toDigits_ne_nil
  · intro c hc
    rcases List.mem_append.mp hc with hzero | hdigit
    · rw [List.eq_of_mem_replicate hzero]
      decide
    · exact Nat.isDigit_of_mem_toDigits (by decide) (by decide) hdigit
  · rw [String.toList_append, String.toList_append, String.toList_ofList,
      hrendered]
    rcases hsign with rfl | rfl
    · exact Or.inl rfl
    · exact Or.inr rfl
  · rw [decimalValue_zeros_append, decimalValue_eq_ofDigitChars,
      Nat.ofDigitChars_ten_toDigits]

/-! ## Reading a numeral -/

theorem pushDigit?_eq_some_iff :
    pushDigit? value c = some next ↔
      c.isDigit = true ∧ value * 10 + digitValue c = next ∧ next < 2 ^ 64 := by
  have hbound : wordBound = 2 ^ 64 := rfl
  rw [pushDigit?, ← hbound]
  split
  next hdigit =>
    simp only [hdigit, true_and]
    split
    next hfits =>
      rw [Option.some.injEq]
      exact ⟨fun h => ⟨h, h ▸ hfits⟩, And.left⟩
    next hexceeds =>
      simp only [reduceCtorEq, false_iff, not_and]
      rintro rfl
      exact hexceeds
  next hother => simp [hother]

/-- What has been read is the number that the digits denote; it never leaves the
word. -/
theorem foldlM_pushDigit?_eq_some_iff :
    digits.foldlM pushDigit? 0 = some value ↔
      (∀ c ∈ digits, c.isDigit = true) ∧ decimalValue digits = value ∧
        value < 2 ^ 64 := by
  induction digits using List.reverseRecOn generalizing value with
  | nil =>
      constructor
      · intro h
        cases h
        exact ⟨by simp, rfl, by decide⟩
      · rintro ⟨-, rfl, -⟩
        rfl
  | append_singleton digits c ih =>
      simp only [List.foldlM_append, List.foldlM_cons, List.foldlM_nil,
        bind_pure, Option.bind_eq_bind, Option.bind_eq_some_iff, ih,
        pushDigit?_eq_some_iff, decimalValue_concat, List.forall_mem_append,
        List.forall_mem_singleton]
      constructor
      · rintro ⟨_, ⟨hdigits, rfl, -⟩, hdigit, hvalue, hfits⟩
        exact ⟨⟨hdigits, hdigit⟩, hvalue, hfits⟩
      · rintro ⟨⟨hdigits, hdigit⟩, hvalue, hfits⟩
        exact ⟨_, ⟨hdigits, rfl, by omega⟩, hdigit, hvalue, hfits⟩

theorem parseWord?_eq_some_iff :
    parseWord? text = some value ↔ Denotes text value ∧ value < 2 ^ 64 := by
  have hread : parseWord? text =
      if (withoutSign text.toList).isEmpty then none
      else (withoutSign text.toList).foldlM pushDigit? 0 := rfl
  rw [hread, denotes_iff]
  split
  next hempty =>
    rw [List.isEmpty_iff] at hempty
    simp [hempty]
  next hne =>
    rw [List.isEmpty_iff] at hne
    rw [foldlM_pushDigit?_eq_some_iff]
    exact ⟨fun ⟨hdigits, hvalue, hfits⟩ => ⟨⟨hne, hdigits, hvalue⟩, hfits⟩,
      fun ⟨⟨_, hdigits, hvalue⟩, hfits⟩ => ⟨hdigits, hvalue, hfits⟩⟩

/-! ## The limit -/

theorem detailLimit_eq_none_iff {verbosity limit : Option String} :
    (ofEnvironment verbosity limit).detailLimit = none ↔
      verbosity = some "1" := by
  constructor
  · intro hnone
    by_contra hquiet
    rw [detailLimit_ofEnvironment hquiet] at hnone
    cases hnone
  · rintro rfl
    rfl

/-- Digits that exceed a word cannot be read, whatever follows them. -/
theorem parseWord?_of_exceeds {sign beyond : String}
    (hsign : sign = "" ∨ sign = "+") (hdigits : ∀ c ∈ digits, c.isDigit = true)
    (hexceeds : 2 ^ 64 ≤ decimalValue digits) :
    parseWord? (sign ++ String.ofList digits ++ beyond) = none := by
  rw [Option.eq_none_iff_forall_not_mem]
  intro value hvalue
  obtain ⟨hdenotes, hfits⟩ := parseWord?_eq_some_iff.mp hvalue
  obtain ⟨-, hall, rfl⟩ := denotes_iff.mp hdenotes
  have hunsigned : withoutSign (sign ++ String.ofList digits ++ beyond).toList =
      digits ++ beyond.toList := by
    rw [String.toList_append, String.toList_append, String.toList_ofList]
    rcases hsign with rfl | rfl
    · cases digits with
      | nil => exact absurd hexceeds (by decide)
      | cons c rest =>
          exact withoutSign_cons_of_isDigit (hdigits c List.mem_cons_self) _
    · rfl
  rw [hunsigned] at hfits
  have hle := decimalValue_le_append digits beyond.toList
  omega

/-- There is no limit exactly if events are logged.  Otherwise the limit is the
number that the variable denotes if that is a word, and 4096 if the variable is
not set, denotes nothing or denotes a greater number.  So the renderings of all
words are read, with any number of zeros in front of them; and once the digits
have exceeded a word, nothing that follows makes a number of them. -/
theorem detailLimit_reads_numerals (verbosity : Option String) :
    (∀ limit, (ofEnvironment verbosity limit).detailLimit = none ↔
      verbosity = some "1") ∧
    (verbosity ≠ some "1" →
      (ofEnvironment verbosity none).detailLimit = some 4096 ∧
      (∀ text value, Denotes text value → value < 2 ^ 64 →
        (ofEnvironment verbosity (some text)).detailLimit = some value) ∧
      (∀ text, (∀ value, Denotes text value → 2 ^ 64 ≤ value) →
        (ofEnvironment verbosity (some text)).detailLimit = some 4096) ∧
      ∀ sign, sign = "" ∨ sign = "+" →
        (∀ zeros word, word < 2 ^ 64 →
          (ofEnvironment verbosity (some (sign ++ String.ofList (List.replicate
            zeros '0') ++ toString word))).detailLimit = some word) ∧
        ∀ digits beyond, (∀ c ∈ digits, c.isDigit = true) →
          2 ^ 64 ≤ decimalValue digits →
          (ofEnvironment verbosity (some (sign ++ String.ofList digits ++
            beyond))).detailLimit = some 4096) := by
  refine ⟨fun limit => detailLimit_eq_none_iff, ?_⟩
  intro hquiet
  have hreads (text : String) (value : Nat) (hdenotes : Denotes text value)
      (hfits : value < 2 ^ 64) :
      (ofEnvironment verbosity (some text)).detailLimit = some value := by
    rw [detailLimit_ofEnvironment hquiet, limitOf, Option.bind_some,
      parseWord?_eq_some_iff.mpr ⟨hdenotes, hfits⟩, Option.getD_some]
  have hrefused (text : String) (hnone : parseWord? text = none) :
      (ofEnvironment verbosity (some text)).detailLimit = some 4096 := by
    rw [detailLimit_ofEnvironment hquiet, limitOf, Option.bind_some, hnone,
      Option.getD_none, defaultLimit]
  refine ⟨detailLimit_ofEnvironment hquiet none, hreads, ?_, ?_⟩
  · intro text hexceeds
    apply hrefused
    rw [Option.eq_none_iff_forall_not_mem]
    intro value hvalue
    obtain ⟨hdenotes, hfits⟩ := parseWord?_eq_some_iff.mp hvalue
    exact absurd hfits (Nat.not_lt.mpr (hexceeds value hdenotes))
  · intro sign hsign
    refine ⟨fun zeros word =>
      hreads _ word (denotes_toString zeros word hsign), ?_⟩
    intro digits beyond hdigits hexceeds
    exact hrefused _ (parseWord?_of_exceeds hsign hdigits hexceeds)

/-- The greatest word behind a sign and zeros, the number after it, and the same
with a zero more, which a word would hold if it were reduced to one. -/
theorem detailLimit_reads_numerals_greatestWord :
    (ofEnvironment none (some "+00018446744073709551615")).detailLimit =
      some 18446744073709551615 ∧
    (ofEnvironment (some "0") (some "18446744073709551616")).detailLimit =
      some 4096 ∧
    (ofEnvironment none (some "184467440737095516160")).detailLimit =
      some 4096 := by
  have hbeyond :
      ∀ value, Denotes "18446744073709551616" value → 2 ^ 64 ≤ value := by
    intro value hdenotes
    obtain ⟨-, -, rfl⟩ := denotes_iff.mp hdenotes
    decide
  obtain ⟨-, hquiet⟩ := detailLimit_reads_numerals none
  obtain ⟨-, -, -, hsigned⟩ := hquiet (by decide)
  obtain ⟨-, hzero⟩ := detailLimit_reads_numerals (some "0")
  obtain ⟨-, -, hrefused, -⟩ := hzero (by decide)
  have hgreatest :=
    (hsigned "+" (Or.inr rfl)).1 3 18446744073709551615 (by norm_num)
  have hexceeds :
      2 ^ 64 ≤ decimalValue (Nat.toDigits 10 18446744073709551616) := by
    rw [decimalValue_eq_ofDigitChars, Nat.ofDigitChars_ten_toDigits]
    norm_num
  have hlonger := (hsigned "" (Or.inl rfl)).2
      (Nat.toDigits 10 18446744073709551616) "0" (fun _ hc =>
      Nat.isDigit_of_mem_toDigits (by decide) (by decide) hc) hexceeds
  exact ⟨hgreatest, hrefused _ hbeyond, hlonger⟩

end ColumnBridge.Settings
