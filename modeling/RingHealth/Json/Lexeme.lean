import RingHealth.Json.Basic

namespace RingHealth.Json

/-- The digits at the start of a text, at least one, and the rest of the text. -/
def digits? (text : List Char) : Option (List Char × List Char) :=
  match text.takeWhile Char.isDigit with
  | [] => none
  | digits => some (digits, text.dropWhile Char.isDigit)

def wholePart? (text : List Char) : Option (List Char × List Char) :=
  match digits? text with
  | some ('0' :: _ :: _, _) => none
  | parts => parts

/-- The digits of the fraction at the start of a text, none if there is no point. -/
def fraction? : List Char → Option (List Char × List Char)
  | '.' :: rest => digits? rest
  | rest => some ([], rest)

/-- The number that an exponent's sign and digits stand for. -/
def signedDigits? : List Char → Option (Int × List Char)
  | '-' :: rest => (digits? rest).map fun (digits, rest) => (-(Nat.ofDigitChars 10 digits 0 : Int), rest)
  | '+' :: rest => (digits? rest).map fun (digits, rest) => ((Nat.ofDigitChars 10 digits 0 : Int), rest)
  | rest => (digits? rest).map fun (digits, rest) => ((Nat.ofDigitChars 10 digits 0 : Int), rest)

/-- The exponent at the start of a text, if there is one. -/
def exponent? : List Char → Option (Option Int × List Char)
  | 'e' :: rest => (signedDigits? rest).map fun (exponent, rest) => (some exponent, rest)
  | 'E' :: rest => (signedDigits? rest).map fun (exponent, rest) => (some exponent, rest)
  | rest => some (none, rest)

/-- The value of a number literal by its parts. -/
def ofNumberParts (negative : Bool) (whole fraction : List Char) (exponent : Option Int) : Json :=
  match fraction, exponent with
  | [], none =>
      match negative, Nat.ofDigitChars 10 whole 0 with
      | true, 0 => decimal ⟨true, 0, 0⟩
      | true, magnitude => integer (-magnitude)
      | false, magnitude => integer magnitude
  | _, _ =>
      decimal ⟨negative, Nat.ofDigitChars 10 (whole ++ fraction) 0,
        exponent.getD 0 - fraction.length⟩

def unsignedNumber? (negative : Bool) (text : List Char) : Option Json := do
  let (whole, afterWhole) ← wholePart? text
  let (fraction, afterFraction) ← fraction? afterWhole
  let (exponent, rest) ← exponent? afterFraction
  if rest.isEmpty then some (ofNumberParts negative whole fraction exponent) else none

def number? : List Char → Option Json
  | '-' :: unsigned => unsignedNumber? true unsigned
  | unsigned => unsignedNumber? false unsigned

def word? (text : List Char) : Option Json :=
  if text = "null".toList then some null
  else if text = "true".toList then some (bool true)
  else if text = "false".toList then some (bool false)
  else number? text

def hexDigit (number : Nat) : Char := Nat.digitChar number

def hexValue? (c : Char) : Option Nat :=
  if '0' ≤ c ∧ c ≤ '9' then some (c.toNat - '0'.toNat)
  else if 'a' ≤ c ∧ c ≤ 'f' then some (c.toNat - 'a'.toNat + 10)
  else if 'A' ≤ c ∧ c ≤ 'F' then some (c.toNat - 'A'.toNat + 10)
  else none

/-- The characters that stand for one character between quotation marks. -/
def escape (c : Char) : List Char :=
  if c = '"' then ['\\', '"']
  else if c = '\\' then ['\\', '\\']
  else if c = '\x08' then ['\\', 'b']
  else if c = '\x0c' then ['\\', 'f']
  else if c = '\n' then ['\\', 'n']
  else if c = '\r' then ['\\', 'r']
  else if c = '\t' then ['\\', 't']
  else if c.toNat < 0x20 then
    ['\\', 'u', '0', '0', hexDigit (c.toNat / 16), hexDigit (c.toNat % 16)]
  else [c]

def quote (text : List Char) : List Char := '"' :: (text.flatMap escape ++ ['"'])

/-- The character that a backslash and one letter stand for. -/
def unescape? (letter : Char) : Option Char :=
  if letter = '"' ∨ letter = '\\' ∨ letter = '/' then some letter
  else if letter = 'b' then some '\x08'
  else if letter = 'f' then some '\x0c'
  else if letter = 'n' then some '\n'
  else if letter = 'r' then some '\r'
  else if letter = 't' then some '\t'
  else none

def isHighSurrogate (unit : Nat) : Bool := 0xd800 ≤ unit && unit < 0xdc00

def isLowSurrogate (unit : Nat) : Bool := 0xdc00 ≤ unit && unit < 0xe000

def pairCodePoint (high low : Nat) : Nat := 0x10000 + (high - 0xd800) * 0x400 + (low - 0xdc00)

def character? (codePoint : Nat) : Option Char :=
  if codePoint.isValidChar then some (Char.ofNat codePoint) else none

/-- The text of a sequence of units.  A surrogate outside a pair names no character, and
then there is no text. -/
def joinUnits? : List Nat → Option (List Char)
  | [] => some []
  | [unit] => (character? unit).map fun c => [c]
  | first :: second :: rest =>
      if isHighSurrogate first && isLowSurrogate second then do
        let c ← character? (pairCodePoint first second)
        let text ← joinUnits? rest
        some (c :: text)
      else do
        let c ← character? first
        let text ← joinUnits? (second :: rest)
        some (c :: text)

theorem toNat_not_surrogate (c : Char) : c.toNat < 0xd800 ∨ 0xe000 ≤ c.toNat := by
  have valid : c.toNat.isValidChar := c.valid
  rcases valid with low | ⟨high, _⟩
  · exact .inl low
  · exact .inr (by omega)

theorem character?_toNat (c : Char) : character? c.toNat = some c := by
  have valid : c.toNat.isValidChar := c.valid
  rw [character?, if_pos valid, Char.ofNat_toNat]

theorem isHighSurrogate_toNat (c : Char) : isHighSurrogate c.toNat = false := by
  have apart := toNat_not_surrogate c
  simp only [isHighSurrogate, Bool.and_eq_false_iff, decide_eq_false_iff_not]
  omega

theorem joinUnits?_map_toNat (text : List Char) :
    joinUnits? (text.map Char.toNat) = some text := by
  induction text with
  | nil => rfl
  | cons first rest restIH =>
      cases rest with
      | nil => simp [joinUnits?, character?_toNat]
      | cons second rest =>
          rw [List.map_cons] at restIH
          simp [joinUnits?, isHighSurrogate_toNat, character?_toNat, restIH]

theorem hexValue?_hexDigit (number : Nat) (small : number < 16) :
    hexValue? (hexDigit number) = some number := by
  revert number
  decide

/-- A unit of a JSON text that stands between spaces. -/
inductive Lexeme where
  | openArray
  | closeArray
  | openObject
  | closeObject
  | comma
  | colon
  /-- A quoted text, or nothing if its escapes name no Unicode text. -/
  | quoted (text : Option String)
  | word (value : Json)

def isSpace (c : Char) : Bool := c == ' ' || c == '\t' || c == '\n' || c == '\r'

def mark? (c : Char) : Option Lexeme :=
  if c = '[' then some .openArray
  else if c = ']' then some .closeArray
  else if c = '{' then some .openObject
  else if c = '}' then some .closeObject
  else if c = ',' then some .comma
  else if c = ':' then some .colon
  else none

/-- Whether a character ends a bare word. -/
def endsWord (c : Char) : Bool := isSpace c || (mark? c).isSome || c == '"'

/-- What has been read of the lexeme at hand.  Characters and units are kept in reverse. -/
inductive ScanState where
  | between
  | inWord (reversed : List Char)
  | inQuotes (reversed : List Nat)
  | afterBackslash (reversed : List Nat)
  /-- Inside an escape with hexadecimal digits, of which `missing + 1` are still to come. -/
  | inUnit (reversed : List Nat) (missing value : Nat)

namespace ScanState

/-- A character that starts a lexeme or stands between two. -/
def start (c : Char) : List Lexeme × ScanState :=
  if isSpace c then ([], between)
  else
    match mark? c with
    | some mark => ([mark], between)
    | none => if c = '"' then ([], inQuotes []) else ([], inWord [c])

/-- Reads one character: the lexemes that it completes, and the state after it. -/
def step : ScanState → Char → Option (List Lexeme × ScanState)
  | between, c => some (start c)
  | inWord reversed, c =>
      if endsWord c then
        (word? reversed.reverse).map fun value => (.word value :: (start c).1, (start c).2)
      else some ([], inWord (c :: reversed))
  | inQuotes reversed, c =>
      if c = '"' then
        some ([.quoted ((joinUnits? reversed.reverse).map String.ofList)], between)
      else if c = '\\' then some ([], afterBackslash reversed)
      else if c.toNat < 0x20 then none
      else some ([], inQuotes (c.toNat :: reversed))
  | afterBackslash reversed, c =>
      if c = 'u' then some ([], inUnit reversed 3 0)
      else (unescape? c).map fun character => ([], inQuotes (character.toNat :: reversed))
  | inUnit reversed missing value, c =>
      (hexValue? c).map fun digit =>
        match missing with
        | 0 => ([], inQuotes ((16 * value + digit) :: reversed))
        | missing + 1 => ([], inUnit reversed missing (16 * value + digit))

def finish : ScanState → Option (List Lexeme)
  | between => some []
  | inWord reversed => (word? reversed.reverse).map fun value => [.word value]
  | _ => none

end ScanState

/-- The lexemes of a text, from a state on. -/
def scanFrom (state : ScanState) : List Char → Option (List Lexeme)
  | [] => state.finish
  | c :: rest => do
      let (lexemes, next) ← state.step c
      let later ← scanFrom next rest
      some (lexemes ++ later)

theorem scanFrom_cons {state next : ScanState} {c : Char} {lexemes : List Lexeme}
    (stepped : state.step c = some (lexemes, next)) (rest : List Char) :
    scanFrom state (c :: rest) = (scanFrom next rest).map (lexemes ++ ·) := by
  rw [scanFrom, stepped]
  simp only [Option.bind_eq_bind, Option.bind_some]
  cases scanFrom next rest <;> rfl

def scan (text : List Char) : Option (List Lexeme) := scanFrom .between text

namespace Lexeme

/-- The characters of a lexeme.  A text that is no Unicode text is written as a lone
surrogate. -/
def text : Lexeme → List Char
  | openArray => ['[']
  | closeArray => [']']
  | openObject => ['{']
  | closeObject => ['}']
  | comma => [',']
  | colon => [':']
  | quoted (some content) => quote content.toList
  | quoted none => ['"', '\\', 'u', 'd', '8', '0', '0', '"']
  | word (.bool true) => "true".toList
  | word (.bool false) => "false".toList
  | word (.integer value) => Decimal.intText value
  | word (.decimal value) => value.text
  | word _ => "null".toList

end Lexeme

mutual

def lexemes : Json → List Lexeme
  | string text => [.quoted (some text)]
  | garbled => [.quoted none]
  | array [] => [.openArray, .closeArray]
  | array (item :: items) => .openArray :: (item.lexemes ++ lexemesOfItems items)
  | object [] => [.openObject, .closeObject]
  | object ((name, value) :: entries) =>
      .openObject :: .quoted (some name) :: .colon :: (value.lexemes ++ lexemesOfEntries entries)
  | word => [.word word]

/-- The lexemes of an array after its first item. -/
def lexemesOfItems : List Json → List Lexeme
  | [] => [.closeArray]
  | item :: items => .comma :: (item.lexemes ++ lexemesOfItems items)

/-- The lexemes of an object after its first entry. -/
def lexemesOfEntries : List (String × Json) → List Lexeme
  | [] => [.closeObject]
  | (name, value) :: entries =>
      .comma :: .quoted (some name) :: .colon :: (value.lexemes ++ lexemesOfEntries entries)

end

def text (json : Json) : String := String.ofList (json.lexemes.flatMap Lexeme.text)

end RingHealth.Json
