import TrainingJobs.CommandLine.Argument
import TrainingJobs.SortedTable

/-!
# Words of a command line

The words of a command line are taken one after the other (`Words.take`). Each command on the way has a level with the
arguments that were given behind its name. An option waits for its value, and a value is looked at only when the next
argument comes or the words end (`Level.settle`).
-/

namespace TrainingJobs

/-- The arguments that were given behind the name of a command. -/
structure Level where
  command : Subcommand
  /-- The values of arguments; a flag has none, and a count has a number. -/
  given : SortedTable String (List ArgumentValue) := .empty
  /-- An argument with values that were not looked at yet. -/
  pending : Option (Argument × List String) := none
  /-- Whether the next word is the value of the pending option. -/
  awaiting : Bool := false
  /-- Whether all words that follow are taken by position. -/
  trailing : Bool := false
  /-- Whether an argument by position was given. -/
  placed : Bool := false

namespace Level

/-- The values of an argument so far. -/
def valuesOf (l : Level) (a : Argument) : List ArgumentValue := (l.given.get? a.name).getD []

/-- Sets the values of an argument. -/
def put (l : Level) (a : Argument) (values : List ArgumentValue) : Level :=
  { l with given := l.given.insert a.name values }

/-- How often a counted argument was given. -/
def countOf (l : Level) (a : Argument) : Nat :=
  match l.valuesOf a with
  | [.integer n] => n.toNat
  | _ => 0

/-- Looks at an argument and its values. -/
def accept (l : Level) (a : Argument) (words : List String) : Except UsageError Level :=
  match a.rule with
  | .once takes => do
    if words.isEmpty then .error .invalidValue
    if l.given.contains a.name then .error .repeatedArgument
    return l.put a (← words.mapM takes.read)
  | .each takes => do
    if words.isEmpty then .error .invalidValue
    return l.put a (l.valuesOf a ++ (← words.mapM takes.read))
  | .flag => if l.given.contains a.name then .error .repeatedArgument else .ok (l.put a [])
  | .counted => .ok (l.put a [.integer (l.countOf a + 1)])
  | .help => .error .help
  | .version => .error .version

/-- Looks at the pending argument, if there is one. -/
def settle (l : Level) : Except UsageError Level :=
  match l.pending with
  | none => .ok l
  | some (a, words) => { l with pending := none, awaiting := false }.accept a words

/-- An option is given, perhaps with a value. -/
def option (l : Level) (a : Argument) (value : Option String) : Except UsageError Level := do
  let l ← l.settle
  match value with
  | some word => l.accept a [word]
  | none => return { l with pending := some (a, []), awaiting := true }

/-- A flag is given. -/
def flag (l : Level) (a : Argument) : Except UsageError Level := do
  (← l.settle).accept a []

/-- The name and the attached value of a word that starts with two hyphens. -/
def splitLong (body : List Char) : String × Option String :=
  let name := body.takeWhile (· != '=')
  (String.ofList name, match body.drop name.length with
    | _ :: value => some (String.ofList value)
    | [] => none)

/-- A word that starts with two hyphens. -/
def long (l : Level) (body : List Char) : Except UsageError Level :=
  let (name, value) := splitLong body
  match l.command.options.find? (·.name == name) with
  | none => .error .unknownArgument
  | some a =>
    if a.rule.takes?.isSome then l.option a value
    else if value.isSome then .error .unwantedValue
    else l.flag a

/-- What is attached to the letter of an option: nothing, or a value perhaps behind an equals sign. -/
def attached : List Char → Option String
  | [] => none
  | '=' :: rest => some (String.ofList rest)
  | cs => some (String.ofList cs)

/-- A word of letters behind a hyphen. The first letter of an option takes the rest for its value. -/
def letters (l : Level) : List Char → Except UsageError Level
  | [] => .ok l
  | c :: rest =>
    match l.command.options.find? (·.letter == some c) with
    | none => .error .unknownArgument
    | some a => if a.rule.takes?.isSome then l.option a (attached rest) else do (← l.flag a).letters rest

/-- Whether a command has subcommands. -/
def hasChildren (l : Level) : Bool := !l.command.children.isEmpty

/-- What is said of a word that has no place. -/
def misplaced (l : Level) (word : String) : UsageError :=
  if !l.hasChildren then .unknownArgument
  else if l.trailing && (word == Subcommand.helpName || (l.command.child? word).isSome) then .unknownArgument
  else .unknownSubcommand

/-- A word by position. -/
def place (l : Level) (word : String) : Except UsageError Level :=
  match l.command.positional? with
  | none => .error (l.misplaced word)
  | some a =>
    match a.rule, l.pending with
    | .each _, some (b, words) =>
      if a.name == b.name then .ok { l with pending := some (b, words ++ [word]) }
      else do return { (← l.settle) with pending := some (a, [word]), placed := true }
    | .each _, none => .ok { l with pending := some (a, [word]), placed := true }
    | _, _ =>
      if l.placed then .error (l.misplaced word)
      else do return { (← l.settle) with pending := some (a, [word]), placed := true }

/-- A word that is no subcommand. -/
def take (l : Level) (word : String) : Except UsageError Level :=
  if l.trailing then l.place word
  else
    match word.toList, l.pending with
    | ['-', '-'], _ => .ok { l with trailing := true, awaiting := false }
    | '-' :: '-' :: body, _ => l.long body
    | '-' :: c :: body, _ => l.letters (c :: body)
    | _, some (a, words) =>
      if l.awaiting then .ok { l with pending := some (a, words ++ [word]), awaiting := false } else l.place word
    | _, none => l.place word

/-- Whether a word may be the name of a subcommand here. -/
def takesNames (l : Level) : Bool := l.hasChildren && !l.trailing && !l.awaiting

/-- The end of the words behind a command. Only the last command must have its arguments. -/
def finish (l : Level) (isLast : Bool) : Except UsageError Level := do
  let l ← l.settle
  if isLast then
    if l.hasChildren then .error (if l.given.isEmpty then .nothingGiven else .missingSubcommand)
    else if l.command.required.any (!l.given.contains ·.name) then .error .missingArgument
    else .ok l
  else return l

end Level

/-- The words that were taken so far. -/
inductive Words
  /-- The level of the last command, and those of the commands before it from the last to the first. -/
  | at (level : Level) (outer : List Level)
  /-- Help on a command is asked for, or on the asking itself. -/
  | help (command : Option Subcommand)

namespace Words

/-- No words. -/
def none : Words := .at { command := .program } []

/-- One more word. -/
def take (words : Words) (word : String) : Except UsageError Words :=
  match words with
  | .help .none => .error .unknownSubcommand
  | .help (some command) =>
    if word == Subcommand.helpName && !command.children.isEmpty then .ok (.help .none)
    else
      match command.child? word with
      | some child => .ok (.help (some child))
      | .none => .error .unknownSubcommand
  | .at level outer =>
    if level.takesNames && word == Subcommand.helpName then .ok (.help (some level.command))
    else
      match if level.takesNames then level.command.child? word else Option.none with
      | some child => .ok (.at { command := child } (level :: outer))
      | .none => (level.take word).map (.at · outer)

/-- The levels of all commands, from the last to the first. -/
def finish : Words → Except UsageError (List Level)
  | .help _ => .error .help
  | .at level outer => do
    let level ← level.finish true
    let outer ← outer.mapM (·.finish false)
    return level :: outer

/-- Reads all words. -/
def read (words : List String) : Except UsageError (List Level) := do
  (← words.foldlM take none).finish

end Words

end TrainingJobs
