import PairIndex.Assoc
import PairIndex.Text.Blank

/-! Files of environment variables. A line binds a name: `NAME=value`, with `export` allowed in front and a comment behind.
A value in quotes may run over several lines and has escapes. A line that has another form is skipped. In a value
`${NAME}` and `${NAME:-default}` stand for the value of a variable. -/

namespace PairIndex.EnvFile

/-! ## Lines -/

/-- The text with every line ended by one line feed. -/
def unifyLines : List Char → List Char
  | '\r' :: '\n' :: rest => '\n' :: unifyLines rest
  | '\r' :: rest => '\n' :: unifyLines rest
  | c :: rest => c :: unifyLines rest
  | [] => []

/-- White space inside a line. -/
def isSpace (c : Char) : Bool :=
  Text.isBlank c && c != '\n'

/-- What follows the white space of the line. -/
def skipSpaces (chars : List Char) : List Char :=
  chars.dropWhile isSpace

/-- What follows the line. -/
def skipLine (chars : List Char) : List Char :=
  (chars.dropWhile (· != '\n')).drop 1

/-- What follows a comment, if there is one. -/
def skipComment (chars : List Char) : List Char :=
  match skipSpaces chars with
  | '#' :: rest => rest.dropWhile (· != '\n')
  | _ => chars

/-- What follows the end of the line, if only white space stands before it. -/
def endLine? (chars : List Char) : Option (List Char) :=
  match skipSpaces chars with
  | [] => some []
  | '\n' :: rest => some rest
  | _ => none

/-! ## Names -/

/-- What follows an `export` that stands apart. -/
def skipExport (chars : List Char) : List Char :=
  match "export".toList.isPrefixOf? chars with
  | some (c :: rest) => if isSpace c then skipSpaces rest else chars
  | _ => chars

/-- Whether a character may stand in a name without quotes. -/
def isNameChar (c : Char) : Bool :=
  c != '=' && c != '#' && !Text.isBlank c

/-- The name at the start of a line, and what follows it. A comment has no name. -/
def name? (chars : List Char) : Option (Option String × List Char) :=
  match chars with
  | '#' :: _ => some (none, chars)
  | '\'' :: rest =>
    match rest.span (· != '\'') with
    | (c :: name, '\'' :: rest) => some (some (String.ofList (c :: name)), rest)
    | _ => none
  | _ =>
    match chars.span isNameChar with
    | ([], _) => none
    | (name, rest) => some (some (String.ofList name), rest)

/-! ## Values -/

/-- The characters up to the closing quote, and what follows it. An escaped quote does not close; but if no other does,
the last escaped one closes after all. The characters seen so far come in reverse. -/
def quoted (quote : Char) :
    List Char → Option (List Char × List Char) → List Char → Option (List Char × List Char)
  | _, lastEscaped, [] => lastEscaped
  | seen, lastEscaped, '\\' :: c :: rest =>
    if c = quote then quoted quote (c :: '\\' :: seen) (some (('\\' :: seen).reverse, rest)) rest
    else quoted quote ('\\' :: seen) lastEscaped (c :: rest)
  | seen, lastEscaped, c :: rest =>
    if c = quote then some (seen.reverse, rest) else quoted quote (c :: seen) lastEscaped rest

/-- The character that an escape in single quotes stands for. -/
def singleEscape? (c : Char) : Option Char :=
  if c = '\\' ∨ c = '\'' then some c else none

/-- The character that an escape in double quotes stands for. -/
def doubleEscape? : Char → Option Char
  | '\\' => some '\\'
  | '\'' => some '\''
  | '"' => some '"'
  | 'a' => some '\x07'
  | 'b' => some '\x08'
  | 'f' => some '\x0c'
  | 'n' => some '\n'
  | 'r' => some '\r'
  | 't' => some '\t'
  | 'v' => some '\x0b'
  | _ => none

/-- The text with its escapes replaced; a backslash that starts none stays. -/
def unescape (escape? : Char → Option Char) : List Char → List Char
  | '\\' :: c :: rest =>
    match escape? c with
    | some d => d :: unescape escape? rest
    | none => '\\' :: unescape escape? (c :: rest)
  | c :: rest => c :: unescape escape? rest
  | [] => []

/-- A line's value without the comment that starts with white space and a number sign. -/
def dropComment : List Char → List Char
  | [] => []
  | c :: rest =>
    if Text.isBlank c && (rest.dropWhile Text.isBlank).head? == some '#' then [] else c :: dropComment rest

/-- The value at the start of a text, and what follows it. -/
def value? (chars : List Char) : Option (List Char × List Char) :=
  match chars with
  | '\'' :: rest => (quoted '\'' [] none rest).map fun (raw, rest) => (unescape singleEscape? raw, rest)
  | '"' :: rest => (quoted '"' [] none rest).map fun (raw, rest) => (unescape doubleEscape? raw, rest)
  | _ =>
    let (line, rest) := chars.span (· != '\n')
    some ((Text.trimStart (dropComment line).reverse).reverse, rest)

/-! ## Bindings -/

/-- A name and its value; a name alone has none. -/
abbrev Binding := String × Option (List Char)

/-- The binding of a line that is read to its end. -/
def finish (binding : Option Binding) (chars : List Char) : Option Binding × List Char :=
  let chars := skipComment chars
  match endLine? chars with
  | some rest => (binding, rest)
  | none => (none, skipLine chars)

/-- The binding at the start of a text, if it has one, and what follows the line. -/
def binding (chars : List Char) : Option Binding × List Char :=
  let chars := skipExport chars
  match name? chars with
  | none => (none, skipLine chars)
  | some (name, rest) =>
    match skipSpaces rest with
    | '=' :: rest =>
      let rest := skipSpaces rest
      match value? rest with
      | none => (none, skipLine rest)
      | some (value, rest) => finish (name.map (·, some value)) rest
    | rest => finish (name.map (·, none)) rest

/-- The bindings of a text, in order, from at most `fuel` lines. -/
def bindingsFrom : Nat → List Char → List Binding
  | 0, _ => []
  | fuel + 1, chars =>
    match chars.dropWhile Text.isBlank with
    | [] => []
    | c :: rest =>
      let (found, rest) := binding (c :: rest)
      found.toList ++ bindingsFrom fuel rest

/-- The bindings of a file. Every line takes at least one character, so that its length bounds their number. -/
def bindings (file : String) : List Binding :=
  let chars := unifyLines file.toList
  bindingsFrom chars.length chars

/-! ## Variables in values -/

/-- The variable after `${`, its default, and what follows the closing brace. -/
def reference? (chars : List Char) : Option (String × List Char × List Char) :=
  match chars.span fun c => c != '}' && c != ':' with
  | (name, '}' :: rest) => some (String.ofList name, [], rest)
  | (name, ':' :: '-' :: rest) =>
    match rest.span (· != '}') with
    | (default, '}' :: rest) => some (String.ofList name, default, rest)
    | _ => none
  | _ => none

/-- A value with its variables replaced, looking at no more than `fuel` characters. -/
def expandFrom (value? : String → Option (List Char)) : Nat → List Char → List Char
  | 0, _ => []
  | _ + 1, [] => []
  | fuel + 1, '$' :: '{' :: rest =>
    match reference? rest with
    | some (name, default, rest) => (value? name).getD default ++ expandFrom value? fuel rest
    | none => '$' :: expandFrom value? fuel ('{' :: rest)
  | fuel + 1, c :: rest => c :: expandFrom value? fuel rest

/-- The value that a variable has for later lines: that of an earlier line, or else that of the environment. A name that
an earlier line left without a value has the empty one. -/
def valueFor (environment : List (String × String)) (earlier : List (String × Option (List Char))) (name : String) :
    Option (List Char) :=
  match Assoc.get? name earlier with
  | some value => some (value.getD [])
  | none => (Assoc.get? name environment).map (·.toList)

/-- A value with its variables replaced. -/
def expand (environment : List (String × String)) (earlier : List (String × Option (List Char)))
    (value : List Char) : List Char :=
  expandFrom (valueFor environment earlier) value.length value

/-- The variables that a file binds. -/
def values (environment : List (String × String)) (file : String) : List (String × Option String) :=
  let bound := (bindings file).foldl (fun earlier (name, value) =>
    Assoc.set name (value.map (expand environment earlier)) earlier) []
  bound.map fun (name, value) => (name, value.map String.ofList)

end PairIndex.EnvFile
