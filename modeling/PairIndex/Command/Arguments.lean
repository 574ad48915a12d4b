import PairIndex.Crawl.Run

/-! The command line: the name of a command, then its options in any order. The arguments after the name are first read as
words, each by itself; the words then take effect from left to right. Of an option that is given twice the last one
counts. A word that has no place makes the line wrong, but a request for help behind it is still met. -/

namespace PairIndex

/-! ## Commands -/

/-- The names of the commands. -/
inductive CommandName where
  | run
  | backfill
  | gapFill
  | initDb
  deriving DecidableEq, Repr

/-- A command of the program. -/
inductive Command where
  /-- Start the service and keep it up to date. -/
  | run
  /-- Backfill one address or all. -/
  | backfill (address : Option String) (request : BackfillRequest)
  /-- Fill the gap of one address or of all. -/
  | gapFill (address : Option String)
  | initDb
  deriving DecidableEq, Repr

/-- Why a command line gives no command. -/
inductive NoCommand where
  /-- It asks for help, on one command or on all. -/
  | help (topic : Option CommandName)
  | misuse
  deriving DecidableEq, Repr

/-- The code that the program ends with if it was given no command. -/
def NoCommand.code : NoCommand → Nat
  | .help _ => 0
  | .misuse => 2

namespace CommandName

/-- How the name of a command is written. -/
def text : CommandName → String
  | .run => "run"
  | .backfill => "backfill"
  | .gapFill => "gap-fill"
  | .initDb => "init-db"

/-- The command name that is written so. -/
def ofText? (text : String) : Option CommandName :=
  [CommandName.run, .backfill, .gapFill, .initDb].find? (·.text == text)

end CommandName

def Command.name : Command → CommandName
  | .run => .run
  | .backfill _ _ => .backfill
  | .gapFill _ => .gapFill
  | .initDb => .initDb

/-! ## Options -/

/-- The options of the commands. -/
inductive CommandOption where
  | help
  | address
  | fromSlot
  | toSlot
  | batchSize
  | reprocess
  deriving DecidableEq, Repr

/-- How an option is written. -/
def CommandOption.text : CommandOption → String
  | .help => "--help"
  | .address => "--address"
  | .fromSlot => "--from-slot"
  | .toSlot => "--to-slot"
  | .batchSize => "--batch-size"
  | .reprocess => "--reprocess"

def CommandName.options : CommandName → List CommandOption
  | .run => [.help]
  | .backfill => [.help, .address, .fromSlot, .toSlot, .batchSize, .reprocess]
  | .gapFill => [.help, .address]
  | .initDb => [.help]

/-! ## Words -/

/-- An argument as a command with certain options reads it. -/
inductive Word where
  /-- It may be a name or the value of an option. -/
  | plain (text : String)
  /-- An option, with the value that an equals sign attaches to it. -/
  | option (which : CommandOption) (attached : Option String)
  /-- It looks like an option, but there is none like it. -/
  | stray
  deriving DecidableEq, Repr

/-- Whether characters are digits, and at least one. -/
def areDigits (chars : List Char) : Bool :=
  !chars.isEmpty && chars.all Text.isDigit

/-- Whether what follows a minus sign makes a number, with or without a decimal point. It may end in a line feed. -/
def looksNegative (chars : List Char) : Bool :=
  let number := if chars.getLast? = some '\n' then chars.dropLast else chars
  let (whole, rest) := number.span Text.isDigit
  match rest with
  | [] => areDigits whole
  | '.' :: places => areDigits places
  | _ => false

/-- An argument cut at its first equals sign, if it has one. -/
def cutAtEquals (argument : List Char) : List Char × Option String :=
  match argument.span (· != '=') with
  | (front, _ :: behind) => (front, some (String.ofList behind))
  | (front, []) => (front, none)

/-- The word for the letter `h` behind a single dash. The letter may be repeated, and other letters may follow; an
equals sign or a dash attaches a value, which help does not take. -/
def shortHelp (behind : List Char) : Word :=
  match behind.dropWhile (· == 'h') with
  | '=' :: value | '-' :: value => .option .help (some (String.ofList value))
  | _ => .option .help none

/-- The word for an argument that names no option. It is plain if it looks like a negative number or has a space. -/
def unnamedWord (argument : String) (behindDash : List Char) : Word :=
  if looksNegative behindDash || behindDash.contains ' ' then .plain argument else .stray

/-- The word for an argument that starts with two dashes. The name of an option may be cut short as long as it fits no
other one; nothing if it fits several. -/
def longWord? (options : List CommandOption) (argument : String) : Option Word :=
  let (name, attached) := cutAtEquals argument.toList
  match options.find? (·.text.toList == name) with
  | some which => some (.option which attached)
  | none =>
    match options.filter fun o => name.isPrefixOf o.text.toList with
    | [] => some (unnamedWord argument (argument.toList.drop 1))
    | [which] => some (.option which attached)
    | _ => none

/-- The word for an argument; nothing if it fits several options. -/
def Word.read? (options : List CommandOption) (argument : String) : Option Word :=
  match argument.toList with
  | '-' :: '-' :: _ => longWord? options argument
  | '-' :: 'h' :: behind => some (shortHelp behind)
  | '-' :: c :: behind => some (unnamedWord argument (c :: behind))
  | _ => some (.plain argument)

/-- The words for the arguments of a command; nothing if one of them fits several options. Two dashes by themselves
have no place, and neither has what follows. -/
def wordsOf? (options : List CommandOption) : List String → Option (List Word)
  | [] => some []
  | argument :: rest =>
    if argument = "--" then some [.stray]
    else
      match Word.read? options argument, wordsOf? options rest with
      | some word, some words => some (word :: words)
      | _, _ => none

/-! ## Reading -/

/-- What the options say. -/
structure GivenOptions where
  address : Option String := none
  request : BackfillRequest := {}
  deriving DecidableEq, Repr

/-- Sets an option that takes a value. Nothing if the option takes none or the value cannot be read. -/
def GivenOptions.set? (given : GivenOptions) (value : String) : CommandOption → Option GivenOptions
  | .address => some { given with address := some value }
  | .fromSlot =>
    (Number.readInteger? value).map fun n => { given with request := { given.request with fromSlot := some n } }
  | .toSlot =>
    (Number.readInteger? value).map fun n => { given with request := { given.request with toSlot := some n } }
  | .batchSize =>
    (Number.readInteger? value).map fun n => { given with request := { given.request with batchSize := some n } }
  | .help | .reprocess => none

/-- What comes of a line with a word that has no place, given what comes of the rest. -/
def NoCommand.outOfPlace {α : Type} : Except NoCommand α → Except NoCommand α
  | .error (.help topic) => .error (.help topic)
  | _ => .error .misuse

/-- What the words after the name of a command say. -/
def readWords (name : CommandName) : List Word → GivenOptions → Except NoCommand GivenOptions
  | [], given => .ok given
  | .plain _ :: rest, given => NoCommand.outOfPlace (readWords name rest given)
  | .stray :: rest, given => NoCommand.outOfPlace (readWords name rest given)
  | .option which (some value) :: rest, given =>
    match given.set? value which with
    | some given => readWords name rest given
    | none => .error .misuse
  | .option .help none :: _, _ => .error (.help (some name))
  | .option .reprocess none :: rest, given =>
    readWords name rest { given with request := { given.request with reprocess := true } }
  | .option which none :: .plain value :: rest, given =>
    match given.set? value which with
    | some given => readWords name rest given
    | none => .error .misuse
  | .option _ none :: _, _ => .error .misuse

/-- The command of a name with its options. -/
def Command.ofOptions (name : CommandName) (given : GivenOptions) : Command :=
  match name with
  | .run => .run
  | .backfill => .backfill given.address given.request
  | .gapFill => .gapFill given.address
  | .initDb => .initDb

/-- Reads the arguments after the name of a command. -/
def Command.readOptions (name : CommandName) (arguments : List String) : Except NoCommand Command :=
  match wordsOf? name.options arguments with
  | none => .error .misuse
  | some words => (readWords name words {}).map (Command.ofOptions name)

/-- Reads a command line. -/
def Command.read : List String → Except NoCommand Command
  | [] => .error .misuse
  | argument :: rest =>
    if argument = "--" then .error .misuse
    else
      match Word.read? [.help] argument with
      | some (.plain text) =>
        match CommandName.ofText? text with
        | some name => Command.readOptions name rest
        | none => .error .misuse
      | some .stray => NoCommand.outOfPlace (Command.read rest)
      | some (.option _ none) => .error (.help none)
      | some (.option _ (some _)) | none => .error .misuse

end PairIndex
