import RingHealth.Json.Lexeme.Lemmas
import RingHealth.Json.Reader

namespace RingHealth.Json

/-- A list of lexemes whose text is scanned back in front of a rest. -/
def ScansBack (lexemes : List Lexeme) (rest : List Char) : Prop :=
  scanFrom .between (lexemes.flatMap Lexeme.text ++ rest) =
    (scanFrom .between rest).map (lexemes ++ ·)

theorem ScansBack.append {first second : List Lexeme} {rest : List Char}
    (scansFirst : ScansBack first (second.flatMap Lexeme.text ++ rest))
    (scansSecond : ScansBack second rest) : ScansBack (first ++ second) rest := by
  unfold ScansBack at *
  rw [List.flatMap_append, List.append_assoc, scansFirst, scansSecond, Option.map_map]
  simp only [Function.comp_def, List.append_assoc]

theorem ScansBack.cons {first : Lexeme} {second : List Lexeme} {rest : List Char}
    (scansFirst : ScansBack [first] (second.flatMap Lexeme.text ++ rest))
    (scansSecond : ScansBack second rest) : ScansBack (first :: second) rest :=
  .append scansFirst scansSecond

theorem scansBack_quoted (text : String) (rest : List Char) :
    ScansBack [.quoted (some text)] rest := by
  unfold ScansBack
  rw [List.flatMap_singleton, scanFrom_quote]
  rfl

theorem scansBack_garbled (rest : List Char) : ScansBack [.quoted none] rest := by
  unfold ScansBack
  simp only [List.flatMap_singleton]
  change scanFrom .between ('"' :: '\\' :: 'u' :: 'd' :: '8' :: '0' :: '0' :: '"' :: rest) = _
  repeat rw [scanFrom_cons rfl]
  cases scanFrom .between rest <;> rfl

theorem scansBack_word (value : Json) (isWord : value.IsWord) {rest : List Char}
    (ends : EndsWord rest) : ScansBack [.word value] rest := by
  unfold ScansBack
  rw [List.flatMap_singleton, scanFrom_word isWord ends]
  rfl

theorem scansBack_mark {c : Char} {mark : Lexeme} (isMark : mark? c = some mark)
    (noSpace : isSpace c = false) (written : mark.text = [c]) (rest : List Char) :
    ScansBack [mark] rest := by
  unfold ScansBack
  rw [List.flatMap_singleton, written, List.cons_append, List.nil_append,
    scanFrom_mark isMark noSpace]
  rfl

theorem scansBack_openArray (rest : List Char) : ScansBack [.openArray] rest :=
  scansBack_mark (c := '[') rfl rfl rfl rest

theorem scansBack_closeArray (rest : List Char) : ScansBack [.closeArray] rest :=
  scansBack_mark (c := ']') rfl rfl rfl rest

theorem scansBack_openObject (rest : List Char) : ScansBack [.openObject] rest :=
  scansBack_mark (c := '{') rfl rfl rfl rest

theorem scansBack_closeObject (rest : List Char) : ScansBack [.closeObject] rest :=
  scansBack_mark (c := '}') rfl rfl rfl rest

theorem scansBack_comma (rest : List Char) : ScansBack [.comma] rest :=
  scansBack_mark (c := ',') rfl rfl rfl rest

theorem scansBack_colon (rest : List Char) : ScansBack [.colon] rest :=
  scansBack_mark (c := ':') rfl rfl rfl rest

theorem endsWord_items (items : List Json) (rest : List Char) :
    EndsWord ((lexemesOfItems items).flatMap Lexeme.text ++ rest) := by
  intro c isFirst
  cases items with
  | nil =>
      cases isFirst
      rfl
  | cons item items =>
      cases isFirst
      rfl

theorem endsWord_entries (entries : List (String × Json)) (rest : List Char) :
    EndsWord ((lexemesOfEntries entries).flatMap Lexeme.text ++ rest) := by
  intro c isFirst
  cases entries with
  | nil =>
      cases isFirst
      rfl
  | cons entry entries =>
      cases isFirst
      rfl

mutual

theorem scansBack_lexemes (json : Json) {rest : List Char} (ends : EndsWord rest) :
    ScansBack json.lexemes rest := by
  match json with
  | null => exact scansBack_word null trivial ends
  | bool value => exact scansBack_word (bool value) trivial ends
  | integer value => exact scansBack_word (integer value) trivial ends
  | decimal value => exact scansBack_word (decimal value) trivial ends
  | string text => exact scansBack_quoted text rest
  | garbled => exact scansBack_garbled rest
  | array [] => exact .cons (scansBack_openArray _) (scansBack_closeArray rest)
  | array (item :: items) =>
      exact .cons (scansBack_openArray _)
        (.append (scansBack_lexemes item (endsWord_items items rest)) (scansBack_items items rest))
  | object [] => exact .cons (scansBack_openObject _) (scansBack_closeObject rest)
  | object ((name, value) :: entries) =>
      exact .cons (scansBack_openObject _) <| .cons (scansBack_quoted name _) <|
        .cons (scansBack_colon _)
          (.append (scansBack_lexemes value (endsWord_entries entries rest))
            (scansBack_entries entries rest))

theorem scansBack_items (items : List Json) (rest : List Char) :
    ScansBack (lexemesOfItems items) rest := by
  match items with
  | [] => exact scansBack_closeArray rest
  | item :: items =>
      exact .cons (scansBack_comma _)
        (.append (scansBack_lexemes item (endsWord_items items rest)) (scansBack_items items rest))

theorem scansBack_entries (entries : List (String × Json)) (rest : List Char) :
    ScansBack (lexemesOfEntries entries) rest := by
  match entries with
  | [] => exact scansBack_closeObject rest
  | (name, value) :: entries =>
      exact .cons (scansBack_comma _) <| .cons (scansBack_quoted name _) <|
        .cons (scansBack_colon _)
          (.append (scansBack_lexemes value (endsWord_entries entries rest))
            (scansBack_entries entries rest))

end

theorem scan_flatMap_lexemes (json : Json) :
    scan (json.lexemes.flatMap Lexeme.text) = some json.lexemes := by
  have scans : ScansBack json.lexemes [] := scansBack_lexemes json fun _ none => nomatch none
  unfold ScansBack at scans
  rw [List.append_nil] at scans
  rw [scan, scans]
  simp [scanFrom, ScanState.finish]

namespace ReadState

theorem foldlM_firstItem (json : Json) (outer : List Frame) (more : List Lexeme) :
    (json.lexemes ++ more).foldlM step (firstItem outer) =
      (json.lexemes ++ more).foldlM step (valueNext (.item [] :: outer)) := by
  match json with
  | null | bool _ | integer _ | decimal _ | string _ | garbled => rfl
  | array [] | array (_ :: _) | object [] | object (_ :: _) => rfl

theorem ofEntries_map_some (entries : List (String × Json)) :
    ofEntries (entries.map fun entry => (some entry.1, entry.2)) = .object entries := by
  have allNamed :
      (entries.map fun entry => ((some entry.1, entry.2) : Entry)).mapM withName? =
        some entries := by
    induction entries with
    | nil => rfl
    | cons entry entries entriesIH =>
        rw [List.map_cons, List.mapM_cons, entriesIH]
        rfl
  rw [ofEntries, allNamed]

mutual

theorem foldlM_lexemes (json : Json) (outer : List Frame) (more : List Lexeme) :
    (json.lexemes ++ more).foldlM step (valueNext outer) = more.foldlM step (place json outer) := by
  match json with
  | null | bool _ | integer _ | decimal _ | string _ | garbled => rfl
  | array [] => rfl
  | array (item :: items) =>
      change ((item.lexemes ++ lexemesOfItems items) ++ more).foldlM step (firstItem outer) = _
      rw [List.append_assoc, foldlM_firstItem, foldlM_lexemes item]
      exact foldlM_items items [item] outer more
  | object [] => rfl
  | object ((name, value) :: entries) =>
      change ((value.lexemes ++ lexemesOfEntries entries) ++ more).foldlM step
        (valueNext (.entry [] (some name) :: outer)) = _
      rw [List.append_assoc, foldlM_lexemes value]
      have read := foldlM_entries entries [(name, value)] outer more
      exact read

theorem foldlM_items (items before : List Json) (outer : List Frame) (more : List Lexeme) :
    (lexemesOfItems items ++ more).foldlM step (afterItem before outer) =
      more.foldlM step (place (.array (before.reverse ++ items)) outer) := by
  match items with
  | [] =>
      rw [List.append_nil]
      rfl
  | item :: items =>
      change ((item.lexemes ++ lexemesOfItems items) ++ more).foldlM step
        (valueNext (.item before :: outer)) = _
      rw [List.append_assoc, foldlM_lexemes item]
      have read := foldlM_items items (item :: before) outer more
      rw [List.reverse_cons, List.append_assoc] at read
      exact read

theorem foldlM_entries (entries before : List (String × Json)) (outer : List Frame)
    (more : List Lexeme) :
    (lexemesOfEntries entries ++ more).foldlM step
        (afterEntry (before.map fun entry => (some entry.1, entry.2)) outer) =
      more.foldlM step (place (.object (before.reverse ++ entries)) outer) := by
  match entries with
  | [] =>
      rw [List.append_nil, ← ofEntries_map_some before.reverse, List.map_reverse]
      rfl
  | (name, value) :: entries =>
      change ((value.lexemes ++ lexemesOfEntries entries) ++ more).foldlM step
        (valueNext (.entry (before.map fun entry => (some entry.1, entry.2)) (some name) :: outer)) = _
      rw [List.append_assoc, foldlM_lexemes value]
      have read := foldlM_entries entries ((name, value) :: before) outer more
      rw [List.reverse_cons, List.append_assoc] at read
      exact read

end

end ReadState

theorem ofLexemes?_lexemes (json : Json) : ofLexemes? json.lexemes = some json := by
  have read := ReadState.foldlM_lexemes json [] []
  rw [List.append_nil] at read
  rw [ofLexemes?, read]
  rfl

/-- Reading undoes writing. -/
theorem read?_text (json : Json) : read? json.text = some json := by
  rw [read?, text, String.toList_ofList, scan_flatMap_lexemes]
  exact ofLexemes?_lexemes json

theorem text_injective {first second : Json} (same : first.text = second.text) :
    first = second := by
  have read := read?_text first
  rw [same, read?_text second] at read
  exact (Option.some.inj read).symm

end RingHealth.Json
