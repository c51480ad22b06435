import RingHealth.Json.Lexeme

namespace RingHealth.Json

/-- An entry of an object that is being read; the name may be garbled. -/
abbrev Entry := Option String × Json

/-- An open array or object around the value that is being read, with what stands
before the value in reverse order. -/
inductive Frame where
  | item (before : List Json)
  | entry (before : List Entry) (name : Option String)

/-- What has been read, by what may come next. -/
inductive ReadState where
  | valueNext (outer : List Frame)
  /-- After an opening bracket: a first item or the end of the array. -/
  | firstItem (outer : List Frame)
  /-- After an item, the last of those given: a comma or the end of the array. -/
  | afterItem (items : List Json) (outer : List Frame)
  /-- After an opening brace: a first name or the end of the object. -/
  | firstName (outer : List Frame)
  /-- After a comma in an object: a name. -/
  | nextName (entries : List Entry) (outer : List Frame)
  | afterName (entries : List Entry) (name : Option String) (outer : List Frame)
  /-- After an entry, the last of those given: a comma or the end of the object. -/
  | afterEntry (entries : List Entry) (outer : List Frame)
  | complete (value : Json)

namespace ReadState

/-- The state after a value has been completed inside the open arrays and objects. -/
def place (value : Json) : List Frame → ReadState
  | [] => complete value
  | .item before :: outer => afterItem (value :: before) outer
  | .entry before name :: outer => afterEntry ((name, value) :: before) outer

def ofQuoted : Option String → Json
  | some text => .string text
  | none => .garbled

/-- An entry with its name, if the name is Unicode text. -/
def withName? (entry : Entry) : Option (String × Json) :=
  entry.1.map fun name => (name, entry.2)

/-- The object of entries in the order of the text, garbled if a name is. -/
def ofEntries (entries : List Entry) : Json :=
  match entries.mapM withName? with
  | some entries => .object entries
  | none => .garbled

def begin (outer : List Frame) : Lexeme → Option ReadState
  | .word value => some (place value outer)
  | .quoted text => some (place (ofQuoted text) outer)
  | .openArray => some (firstItem outer)
  | .openObject => some (firstName outer)
  | _ => none

def step : ReadState → Lexeme → Option ReadState
  | valueNext outer, lexeme => begin outer lexeme
  | firstItem outer, .closeArray => some (place (.array []) outer)
  | firstItem outer, lexeme => begin (.item [] :: outer) lexeme
  | afterItem items outer, .comma => some (valueNext (.item items :: outer))
  | afterItem items outer, .closeArray => some (place (.array items.reverse) outer)
  | firstName outer, .closeObject => some (place (.object []) outer)
  | firstName outer, .quoted name => some (afterName [] name outer)
  | nextName entries outer, .quoted name => some (afterName entries name outer)
  | afterName entries name outer, .colon => some (valueNext (.entry entries name :: outer))
  | afterEntry entries outer, .comma => some (nextName entries outer)
  | afterEntry entries outer, .closeObject => some (place (ofEntries entries.reverse) outer)
  | _, _ => none

def result? : ReadState → Option Json
  | complete value => some value
  | _ => none

end ReadState

def ofLexemes? (lexemes : List Lexeme) : Option Json := do
  let last ← lexemes.foldlM ReadState.step (.valueNext [])
  last.result?

def read? (text : String) : Option Json := do
  let lexemes ← scan text.toList
  ofLexemes? lexemes

end RingHealth.Json
