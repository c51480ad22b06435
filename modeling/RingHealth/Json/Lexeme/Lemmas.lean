import RingHealth.Json.Lexeme

namespace RingHealth.Json

theorem toDigits_ne_zero_cons (number : Nat) (c : Char) (rest : List Char) :
    Nat.toDigits 10 number ≠ '0' :: c :: rest := by
  induction number using Nat.strongRecOn generalizing c rest with
  | ind number smallerIH =>
      intro startsWithZero
      by_cases small : number < 10
      · rw [Nat.toDigits_of_lt_base small] at startsWithZero
        simp at startsWithZero
      · rw [Nat.toDigits_of_base_le (by omega) (by omega)] at startsWithZero
        cases leading : Nat.toDigits 10 (number / 10) with
        | nil => exact Nat.toDigits_ne_nil leading
        | cons first others =>
            rw [leading, List.cons_append, List.cons.injEq] at startsWithZero
            cases others with
            | nil =>
                have value := Nat.ofDigitChars_ten_toDigits (n := number / 10)
                rw [leading, startsWithZero.1] at value
                have zero : Nat.ofDigitChars 10 ['0'] 0 = 0 := by decide
                omega
            | cons second others =>
                exact smallerIH (number / 10) (by omega) second others
                  (leading.trans (by rw [startsWithZero.1]))

theorem digits?_append {digits rest : List Char} (nonempty : digits ≠ [])
    (allDigits : ∀ c ∈ digits, c.isDigit = true)
    (stops : ∀ c ∈ rest.head?, c.isDigit = false) :
    digits? (digits ++ rest) = some (digits, rest) := by
  have restTaken : rest.takeWhile Char.isDigit = [] := by
    cases rest with
    | nil => rfl
    | cons c rest => simp [stops c rfl]
  have restDropped : rest.dropWhile Char.isDigit = rest := by
    cases rest with
    | nil => rfl
    | cons c rest => simp [stops c rfl]
  unfold digits?
  rw [List.takeWhile_append_of_pos allDigits, List.dropWhile_append_of_pos allDigits,
    restTaken, restDropped, List.append_nil]
  cases digits with
  | nil => exact absurd rfl nonempty
  | cons first others => rfl

private theorem isDigit_of_mem {number : Nat} {c : Char} (member : c ∈ Nat.toDigits 10 number) :
    c.isDigit = true :=
  Nat.isDigit_of_mem_toDigits (by decide) (by decide) member

theorem digits?_toDigits (number : Nat) {rest : List Char}
    (stops : ∀ c ∈ rest.head?, c.isDigit = false) :
    digits? (Nat.toDigits 10 number ++ rest) = some (Nat.toDigits 10 number, rest) :=
  digits?_append Nat.toDigits_ne_nil (fun _ => isDigit_of_mem) stops

private theorem digits?_toDigits_end (number : Nat) :
    digits? (Nat.toDigits 10 number) = some (Nat.toDigits 10 number, []) := by
  have read : digits? (Nat.toDigits 10 number ++ []) = _ := digits?_toDigits number (by simp)
  rwa [List.append_nil] at read

theorem wholePart?_toDigits (number : Nat) {rest : List Char}
    (stops : ∀ c ∈ rest.head?, c.isDigit = false) :
    wholePart? (Nat.toDigits 10 number ++ rest) = some (Nat.toDigits 10 number, rest) := by
  unfold wholePart?
  rw [digits?_toDigits number stops]
  split
  next equal =>
    have parts := Prod.mk.inj (Option.some.inj equal)
    exact absurd parts.1 (toDigits_ne_zero_cons _ _ _)
  next => rfl

theorem toDigits_eq_cons (number : Nat) :
    ∃ first rest, Nat.toDigits 10 number = first :: rest ∧ first.isDigit = true := by
  cases digits : Nat.toDigits 10 number with
  | nil => exact absurd digits Nat.toDigits_ne_nil
  | cons first rest => exact ⟨first, rest, rfl, isDigit_of_mem (digits ▸ List.mem_cons_self)⟩

private theorem number?_of_digit {first : Char} {rest : List Char} (digit : first.isDigit = true) :
    number? (first :: rest) = unsignedNumber? false (first :: rest) := by
  unfold number?
  split
  next equal =>
    cases equal
    contradiction
  next => rfl

theorem signedDigits?_intText (value : Int) :
    signedDigits? (Decimal.intText value) = some (value, []) := by
  cases value with
  | ofNat magnitude =>
      have ⟨first, rest, digits, isDigit⟩ := toDigits_eq_cons magnitude
      have read := digits?_toDigits_end magnitude
      unfold Decimal.intText signedDigits?
      simp only
      split
      next equal =>
        rw [digits] at equal
        cases equal
        contradiction
      next equal =>
        rw [digits] at equal
        cases equal
        contradiction
      next =>
        rw [read, Option.map_some, Nat.ofDigitChars_ten_toDigits]
        rfl
  | negSucc below =>
      have read := digits?_toDigits_end (below + 1)
      unfold Decimal.intText signedDigits?
      simp only
      rw [read, Option.map_some, Nat.ofDigitChars_ten_toDigits]
      rfl

private theorem unsignedNumber?_toDigits (negative : Bool) (magnitude : Nat) :
    unsignedNumber? negative (Nat.toDigits 10 magnitude) =
      some (ofNumberParts negative (Nat.toDigits 10 magnitude) [] none) := by
  have whole : wholePart? (Nat.toDigits 10 magnitude ++ []) = _ :=
    wholePart?_toDigits magnitude (by simp)
  rw [List.append_nil] at whole
  simp [unsignedNumber?, whole, fraction?, exponent?]

theorem number?_intText (value : Int) :
    number? (Decimal.intText value) = some (integer value) := by
  cases value with
  | ofNat magnitude =>
      have ⟨first, rest, digits, isDigit⟩ := toDigits_eq_cons magnitude
      have read := unsignedNumber?_toDigits false magnitude
      unfold Decimal.intText
      simp only
      rw [digits, number?_of_digit isDigit, ← digits, read]
      unfold ofNumberParts
      simp only [Nat.ofDigitChars_ten_toDigits]
      rfl
  | negSucc below =>
      have read := unsignedNumber?_toDigits true (below + 1)
      unfold Decimal.intText number?
      simp only
      rw [read]
      unfold ofNumberParts
      simp only [Nat.ofDigitChars_ten_toDigits]
      rfl

theorem number?_decimalText (value : Decimal) :
    number? value.text = some (decimal value) := by
  have ⟨first, rest, digits, isDigit⟩ := toDigits_eq_cons value.significand
  have whole : wholePart?
      (Nat.toDigits 10 value.significand ++ 'e' :: Decimal.intText value.exponent) = _ :=
    wholePart?_toDigits value.significand (by simp)
  have unsigned (negative : Bool) :
      unsignedNumber? negative
          (Nat.toDigits 10 value.significand ++ 'e' :: Decimal.intText value.exponent) =
        some (decimal ⟨negative, value.significand, value.exponent⟩) := by
    simp [unsignedNumber?, whole, fraction?, exponent?, signedDigits?_intText, ofNumberParts,
      Nat.ofDigitChars_ten_toDigits]
  unfold Decimal.text
  cases sign : value.negative with
  | false =>
      have read := unsigned false
      rw [digits, List.cons_append] at read
      rw [digits]
      simp only [Bool.false_eq_true, if_false, List.nil_append, List.cons_append]
      rw [number?_of_digit isDigit, read, ← sign]
  | true =>
      simp only [if_true, List.cons_append, List.nil_append]
      unfold number?
      simp only
      rw [unsigned true, ← sign]

/-- Whether a text is empty or starts with a character that ends a bare word. -/
def EndsWord (rest : List Char) : Prop := ∀ c ∈ rest.head?, endsWord c = true

/-- Values that are written as one bare word. -/
def IsWord : Json → Prop
  | null | bool _ | integer _ | decimal _ => True
  | _ => False

theorem endsWord_of_isDigit {c : Char} (digit : c.isDigit = true) : endsWord c = false := by
  have apart (other : Char) (noDigit : other.isDigit = false) : c ≠ other := by
    rintro rfl
    rw [digit] at noDigit
    contradiction
  simp [endsWord, isSpace, mark?, apart ' ' rfl, apart '\t' rfl, apart '\n' rfl, apart '\r' rfl,
    apart '[' rfl, apart ']' rfl, apart '{' rfl, apart '}' rfl, apart ',' rfl, apart ':' rfl,
    apart '"' rfl]

theorem endsWord_toDigits {number : Nat} {c : Char} (member : c ∈ Nat.toDigits 10 number) :
    endsWord c = false :=
  endsWord_of_isDigit (Nat.isDigit_of_mem_toDigits (by decide) (by decide) member)

theorem endsWord_intText {value : Int} {c : Char} (member : c ∈ Decimal.intText value) :
    endsWord c = false := by
  cases value with
  | ofNat magnitude => exact endsWord_toDigits member
  | negSucc below =>
      rcases List.mem_cons.mp member with rfl | digit
      · rfl
      · exact endsWord_toDigits digit

theorem endsWord_decimalText {value : Decimal} {c : Char} (member : c ∈ value.text) :
    endsWord c = false := by
  unfold Decimal.text at member
  rcases List.mem_append.mp member with signOrDigit | exponent
  · rcases List.mem_append.mp signOrDigit with sign | digit
    · cases negative : value.negative with
      | false => simp [negative] at sign
      | true =>
          rw [negative, if_pos rfl, List.mem_singleton] at sign
          rw [sign]
          rfl
    · exact endsWord_toDigits digit
  · rcases List.mem_cons.mp exponent with rfl | digit
    · rfl
    · exact endsWord_intText digit

theorem word?_of_number? {text : List Char} {value : Json} (read : number? text = some value) :
    word? text = some value := by
  have refused : ∀ word ∈ ["null", "true", "false"], number? word.toList = none := by
    simp only [List.forall_mem_cons]
    exact ⟨rfl, rfl, rfl, fun _ none => nomatch none⟩
  have differs (word : String) (isWord : word ∈ ["null", "true", "false"]) :
      text ≠ word.toList := by
    rintro rfl
    rw [refused word isWord] at read
    contradiction
  unfold word?
  rw [if_neg (differs "null" (by decide)), if_neg (differs "true" (by decide)),
    if_neg (differs "false" (by decide)), read]

theorem text_word_ne_nil {value : Json} (isWord : value.IsWord) :
    (Lexeme.word value).text ≠ [] := by
  cases value with
  | null => decide
  | bool value => cases value <;> decide
  | integer value =>
      cases value with
      | ofNat magnitude => exact Nat.toDigits_ne_nil
      | negSucc below => exact List.cons_ne_nil _ _
  | decimal value =>
      change value.text ≠ []
      unfold Decimal.text
      exact List.append_ne_nil_of_right_ne_nil _ (List.cons_ne_nil _ _)
  | string | array | object | garbled => exact isWord.elim

private theorem endsWord_of_all {word : List Char}
    (oneWord : (word.all fun c => !endsWord c) = true) {c : Char} (member : c ∈ word) :
    endsWord c = false := by
  have goesOn := List.all_eq_true.mp oneWord c member
  rwa [Bool.not_eq_true'] at goesOn

theorem endsWord_text_word {value : Json} (isWord : value.IsWord) {c : Char}
    (member : c ∈ (Lexeme.word value).text) : endsWord c = false := by
  cases value with
  | null => exact endsWord_of_all rfl member
  | bool value =>
      cases value with
      | false => exact endsWord_of_all rfl member
      | true => exact endsWord_of_all rfl member
  | integer value => exact endsWord_intText member
  | decimal value => exact endsWord_decimalText member
  | string | array | object | garbled => exact isWord.elim

theorem word?_text {value : Json} (isWord : value.IsWord) :
    word? (Lexeme.word value).text = some value := by
  cases value with
  | null => rfl
  | bool value => cases value <;> rfl
  | integer value => exact word?_of_number? (number?_intText value)
  | decimal value => exact word?_of_number? (number?_decimalText value)
  | string | array | object | garbled => exact isWord.elim

theorem scanFrom_inWord {word rest : List Char} (reversed : List Char)
    (oneWord : ∀ c ∈ word, endsWord c = false) :
    scanFrom (.inWord reversed) (word ++ rest) =
      scanFrom (.inWord (word.reverse ++ reversed)) rest := by
  induction word generalizing reversed with
  | nil => rfl
  | cons c word wordIH =>
      have goesOn := oneWord c List.mem_cons_self
      have stepped : (ScanState.inWord reversed).step c = some ([], .inWord (c :: reversed)) := by
        rw [ScanState.step, goesOn, if_neg Bool.false_ne_true]
      rw [List.cons_append, scanFrom_cons stepped,
        wordIH _ fun other member => oneWord other (List.mem_cons_of_mem c member)]
      simp

theorem scanFrom_wordEnd {reversed rest : List Char} (ends : EndsWord rest) {value : Json}
    (stands : word? reversed.reverse = some value) :
    scanFrom (.inWord reversed) rest =
      (scanFrom .between rest).map (Lexeme.word value :: ·) := by
  cases rest with
  | nil => simp [scanFrom, ScanState.finish, stands]
  | cons c rest =>
      have stepped : (ScanState.inWord reversed).step c =
          some (.word value :: (ScanState.start c).1, (ScanState.start c).2) := by
        rw [ScanState.step, ends c rfl, if_pos rfl, stands, Option.map_some]
      have restart : ScanState.between.step c = some (ScanState.start c) := rfl
      rw [scanFrom_cons stepped, scanFrom_cons restart, Option.map_map]
      rfl

theorem scanFrom_word {value : Json} (isWord : value.IsWord) {rest : List Char}
    (ends : EndsWord rest) :
    scanFrom .between ((Lexeme.word value).text ++ rest) =
      (scanFrom .between rest).map (Lexeme.word value :: ·) := by
  have oneWord := fun c => endsWord_text_word (c := c) isWord
  have stands := word?_text isWord
  cases text : (Lexeme.word value).text with
  | nil => exact absurd text (text_word_ne_nil isWord)
  | cons first others =>
      rw [text] at oneWord stands
      have started : ScanState.between.step first = some ([], .inWord [first]) := by
        have goesOn := oneWord first List.mem_cons_self
        unfold endsWord at goesOn
        simp only [Bool.or_eq_false_iff, Option.isSome_eq_false_iff, Option.isNone_iff_eq_none,
          beq_eq_false_iff_ne] at goesOn
        rw [ScanState.step, ScanState.start, goesOn.1.1, goesOn.1.2,
          if_neg Bool.false_ne_true, if_neg goesOn.2]
      have whole : word? (others.reverse ++ [first]).reverse = some value := by
        simpa using stands
      rw [List.cons_append, scanFrom_cons started,
        scanFrom_inWord [first] fun c member => oneWord c (List.mem_cons_of_mem first member),
        scanFrom_wordEnd ends whole, Option.map_map]
      rfl

theorem scanFrom_escape (c : Char) (reversed : List Nat) (rest : List Char) :
    scanFrom (.inQuotes reversed) (escape c ++ rest) =
      scanFrom (.inQuotes (c.toNat :: reversed)) rest := by
  have backslash (letter : Char) (noUnit : letter ≠ 'u') (stands : unescape? letter = some c) :
      scanFrom (.inQuotes reversed) ('\\' :: letter :: rest) =
        scanFrom (.inQuotes (c.toNat :: reversed)) rest := by
    simp [scanFrom, ScanState.step, noUnit, stands]
  unfold escape
  split
  next isQuote => exact isQuote ▸ backslash '"' (by decide) (by rw [isQuote]; rfl)
  next noQuote =>
  split
  next isBackslash => exact backslash '\\' (by decide) (by rw [isBackslash]; rfl)
  next noBackslash =>
  split
  next isBackspace => exact backslash 'b' (by decide) (by rw [isBackspace]; rfl)
  next =>
  split
  next isFeed => exact backslash 'f' (by decide) (by rw [isFeed]; rfl)
  next =>
  split
  next isNewline => exact backslash 'n' (by decide) (by rw [isNewline]; rfl)
  next =>
  split
  next isReturn => exact backslash 'r' (by decide) (by rw [isReturn]; rfl)
  next =>
  split
  next isTab => exact backslash 't' (by decide) (by rw [isTab]; rfl)
  next =>
  split
  next control =>
    have upper := hexValue?_hexDigit (c.toNat / 16) (by omega)
    have lower := hexValue?_hexDigit (c.toNat % 16) (by omega)
    have zero : hexValue? '0' = some 0 := rfl
    have sum : 16 * (c.toNat / 16) + c.toNat % 16 = c.toNat := Nat.div_add_mod _ _
    simp [scanFrom, ScanState.step, zero, upper, lower, sum]
  next noControl => simp [scanFrom, ScanState.step, noQuote, noBackslash, noControl]

theorem scanFrom_flatMap_escape (text : List Char) (reversed : List Nat) (rest : List Char) :
    scanFrom (.inQuotes reversed) (text.flatMap escape ++ rest) =
      scanFrom (.inQuotes ((text.map Char.toNat).reverse ++ reversed)) rest := by
  induction text generalizing reversed with
  | nil => rfl
  | cons c text textIH =>
      rw [List.flatMap_cons, List.append_assoc, scanFrom_escape, textIH]
      simp

theorem scanFrom_quote (text : String) (rest : List Char) :
    scanFrom .between ((Lexeme.quoted (some text)).text ++ rest) =
      (scanFrom .between rest).map (Lexeme.quoted (some text) :: ·) := by
  change scanFrom .between (('"' :: (text.toList.flatMap escape ++ ['"'])) ++ rest) = _
  have opened : ScanState.between.step '"' = some ([], .inQuotes []) := rfl
  have closed : (ScanState.inQuotes (text.toList.map Char.toNat).reverse).step '"' =
      some ([.quoted (some text)], .between) := by
    rw [ScanState.step, if_pos rfl, List.reverse_reverse, joinUnits?_map_toNat, Option.map_some,
      String.ofList_toList]
  rw [List.cons_append, List.append_assoc, scanFrom_cons opened, scanFrom_flatMap_escape,
    List.append_nil, List.cons_append, scanFrom_cons closed, Option.map_map]
  rfl

theorem scanFrom_mark {c : Char} {mark : Lexeme} (isMark : mark? c = some mark)
    (noSpace : isSpace c = false) (rest : List Char) :
    scanFrom .between (c :: rest) = (scanFrom .between rest).map (mark :: ·) := by
  have stepped : ScanState.between.step c = some ([mark], .between) := by
    rw [ScanState.step, ScanState.start, noSpace, isMark, if_neg Bool.false_ne_true]
  rw [scanFrom_cons stepped]
  rfl

end RingHealth.Json
