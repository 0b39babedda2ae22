import ZoneRelay.Toml.Number
import ZoneRelay.Toml.Quoted

/-!
# Reading TOML

A text is read in two steps. First it is taken apart into **statements**
(`ZoneRelay.Toml.Statement`), one to a line: headers and assignments. Then the statements
are carried out from the top (`ZoneRelay.Toml.build`): a header opens a section, and the
assignments up to the next header belong to its table.

* A header may name a table that is implied so far, or a new one; an array header may name
  an array of tables or a new one, and adds an element to it.
* A list may run over several lines and hold comments, a table between braces may not.
* Lists and tables between braces are nested less than 80 deep, and a path has less than 80
  keys.
-/

namespace ZoneRelay

namespace Toml

open Text (Reader)

/-! ### Between the tokens -/

/-- What follows the blanks at the front. -/
def skipBlanks (text : List Char) : List Char := text.dropWhile isBlank

/-- What follows the blanks, line breaks and comments at the front. -/
def skipTrivia : (comment : Bool) → List Char → List Char
  | _, [] => []
  | comment, c :: rest =>
    if comment && isPlain c then skipTrivia true rest
    else if isBlank c || c = '\n' then skipTrivia false rest
    else if c = '\r' && rest.head? = some '\n' then skipTrivia false rest
    else if c = '#' then skipTrivia true rest
    else c :: rest

/-- What follows the end of a line, which only blanks and a comment may stand before. -/
def endLine? (text : List Char) : Option (List Char) :=
  let text := skipBlanks text
  let text := if text.head? = some '#' then text.dropWhile isPlain else text
  match text with
  | [] => some []
  | '\n' :: rest => some rest
  | '\r' :: '\n' :: rest => some rest
  | _ => none

/-! ### Keys -/

/-- Whether a character may stand in a key without quotes. -/
def isBare (c : Char) : Bool := c.isAlphanum || c == '-' || c == '_'

/-- A key. -/
def readKey : Reader String := fun text =>
  match text.takeWhile isBare with
  | [] => readLine text
  | bare => some (String.ofList bare, text.drop bare.length)

/-- The largest number of keys in a path, and the deepest nesting of values. -/
def maxDepth : Nat := 79

/-- Keys with points between them, at most `room` of them, and blanks around each. -/
def readPath : (room : Nat) → Reader (List String)
  | 0, _ => none
  | room + 1, text =>
    match readKey (skipBlanks text) with
    | none => none
    | some (key, rest) =>
      match skipBlanks rest with
      | '.' :: rest => (readPath room rest).map fun r => (key :: r.1, r.2)
      | rest => some ([key], rest)

/-- A path and the equals sign behind it. -/
def readTarget : Reader (List String) := fun text => do
  let (path, text) ← readPath maxDepth text
  let (_, text) ← Text.character '=' text
  return (path, text)

/-- The assignment of a value to a path. -/
def Assignment.ofPath? (path : List String) (value : Value) : Option Assignment :=
  path.getLast?.map fun key => ⟨path.dropLast, key, value⟩

/-! ### Values -/

/-- A value without parts. -/
def readScalar : Reader Value
  | [] => none
  | c :: rest =>
    if c = '"' || c = '\'' then (readString (c :: rest)).map fun r => (.text r.1, r.2)
    else if c = 't' then (Text.word? "true" (c :: rest)).map fun r => (.boolean true, r)
    else if c = 'f' then (Text.word? "false" (c :: rest)).map fun r => (.boolean false, r)
    else readNumber (c :: rest)

mutual

/-- A value with at most `room` levels of lists and tables. -/
def readValue : (fuel room : Nat) → Reader Value
  | 0, _, _ => none
  | fuel + 1, room, text =>
    match room, text with
    | 0, '[' :: _ => none
    | 0, '\x7b' :: _ => none
    | room + 1, '[' :: rest =>
      (readItems fuel room (skipTrivia false rest)).map fun r => (.list r.1, r.2)
    | room + 1, '\x7b' :: rest =>
      match skipBlanks rest with
      | '\x7d' :: rest => some (.table .inline [], rest)
      | rest =>
        match readPairs fuel room rest with
        | none => none
        | some (pairs, rest) =>
          (assignAll [] pairs).map fun fields => (.table .inline fields, rest)
    | _, text => readScalar text

/-- The items of a list and its closing bracket; a comma may stand behind the last. -/
def readItems : (fuel room : Nat) → Reader (List Value)
  | 0, _, _ => none
  | fuel + 1, room, text =>
    match text with
    | ']' :: rest => some ([], rest)
    | text =>
      match readValue fuel room text with
      | none => none
      | some (item, rest) =>
        match skipTrivia false rest with
        | ']' :: rest => some ([item], rest)
        | ',' :: rest =>
          (readItems fuel room (skipTrivia false rest)).map fun r => (item :: r.1, r.2)
        | _ => none

/-- The assignments of a table between braces, at least one, and its closing brace. -/
def readPairs : (fuel room : Nat) → Reader (List Assignment)
  | 0, _, _ => none
  | fuel + 1, room, text =>
    match readTarget text with
    | none => none
    | some (path, rest) =>
      match readValue fuel room (skipBlanks rest) with
      | none => none
      | some (value, rest) =>
        match Assignment.ofPath? path value, skipBlanks rest with
        | some pair, '\x7d' :: rest => some ([pair], rest)
        | some pair, ',' :: rest => (readPairs fuel room rest).map fun r => (pair :: r.1, r.2)
        | _, _ => none

end

/-! ### Statements -/

/-- One line of a text. -/
inductive Statement where
  /-- The header of a table, or of an element of an array of tables. -/
  | header (element : Bool) (path : List String) (key : String)
  /-- An assignment. -/
  | assignment (a : Assignment)

/-- A header behind its opening brackets, up to the end of its line. -/
def readHeader (element : Bool) (text : List Char) : Option (Statement × List Char) := do
  let (path, text) ← readPath maxDepth text
  let text ← Text.word? (if element then "]]" else "]") text
  let text ← endLine? text
  return (.header element path.dropLast (← path.getLast?), text)

/-- An assignment up to the end of its line. -/
def readAssignment (text : List Char) : Option (Statement × List Char) := do
  let (path, text) ← readTarget text
  let (value, text) ← readValue (2 * text.length + 2) maxDepth (skipBlanks text)
  let text ← endLine? text
  return (.assignment (← Assignment.ofPath? path value), text)

/-- One statement. -/
def readStatement : Reader Statement
  | '[' :: '[' :: rest => readHeader true rest
  | '[' :: rest => readHeader false rest
  | text => readAssignment text

/-- The statements of a text, at most `fuel` of them. -/
def readStatements : (fuel : Nat) → List Char → Option (List Statement)
  | 0, _ => none
  | fuel + 1, text =>
    match skipTrivia false text with
    | [] => some []
    | text =>
      match readStatement text with
      | none => none
      | some (statement, rest) => (readStatements fuel rest).map (statement :: ·)

/-- The statements of a text; a mark of byte order may stand in front. Every statement takes
a character, so there are no more of them than characters. -/
def statements? (text : String) : Option (List Statement) :=
  let characters := match text.toList with
    | '\uFEFF' :: rest => rest
    | characters => characters
  readStatements (characters.length + 1) characters

/-! ### Sections -/

/-- The assignments in front of the first header, and what follows them. -/
def leading : List Statement → List Assignment × List Statement
  | .assignment a :: rest => (a :: (leading rest).1, (leading rest).2)
  | rest => ([], rest)

/-- The table that a header opens, given what stands in its place: the tables in front of
it in an array, and its contents so far. -/
def opened (element : Bool) : Option Value → Option (List Fields × Fields)
  | none => some ([], [])
  | some (.tables elements) => if element then some (elements, []) else none
  | some (.table .implied fields) => if element then none else some ([], fields)
  | some _ => none

/-- Carries out a section: its table is opened, filled and put in its place. -/
def section? (root : Fields) (element : Bool) (path : List String) (key : String)
    (assignments : List Assignment) : Option Fields :=
  enter false
    (fun _ parent => do
      let (others, fields) ← opened element (parent.get? key)
      let fields ← assignAll fields assignments
      return parent.put key
        (if element then .tables (others ++ [fields]) else .table .explicit fields))
    path .explicit root

/-- Carries out the sections of a list of statements, at most `fuel` of them. -/
def buildSections : (fuel : Nat) → Fields → List Statement → Option Fields
  | 0, _, _ => none
  | fuel + 1, root, statements =>
    match statements with
    | [] => some root
    | .header element path key :: rest =>
      (section? root element path key (leading rest).1).bind fun root =>
        buildSections fuel root (leading rest).2
    | .assignment _ :: _ => none

/-- The tables that statements build up. -/
def build (statements : List Statement) : Option Fields :=
  (assignAll [] (leading statements).1).bind fun root =>
    buildSections (statements.length + 1) root (leading statements).2

/-- The tables that a TOML text spells, if it is one. -/
def read? (text : String) : Option Value :=
  ((statements? text).bind build).map (.table .explicit)

end Toml

end ZoneRelay
