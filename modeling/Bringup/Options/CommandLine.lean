import Bringup.Options.Usage

/-!
Reading a command line.

The words before the name of a command and the words after it are two levels. Both may hold every
option, and the later level wins. An option that takes its value from the next word is settled only when
the next option is met or the level ends.

* `CommandLine.level`: the words of one level.
* `CommandLine.parse`: a whole command line with the environment.
-/

namespace Bringup.CommandLine

set_option autoImplicit false

/-- The options that a level gives. -/
structure Given where
  config : Option Path := none
  workdir : Option Path := none
  revision : Option String := none
  sync : Option SyncPolicy := none
  resume : Bool := false
  disassembler : Option Path := none
  verbose : Option Nat := none
  quiet : Bool := false
  json : Bool := false
deriving DecidableEq, Repr, Inhabited

namespace Given

/-- The option has been given. -/
def has (g : Given) : Switch → Bool
  | .config => g.config.isSome
  | .workdir => g.workdir.isSome
  | .revision => g.revision.isSome
  | .sync => g.sync.isSome
  | .resume => g.resume
  | .disassembler => g.disassembler.isSome
  | .verbose => g.verbose.isSome
  | .quiet => g.quiet
  | .json => g.json
  | .help => false
  | .version => false

/-- A path, which must not be empty. -/
def path (option : Switch) (value : String) : Except Usage Path :=
  if value.isEmpty then .error (.valueRequired option) else .ok ⟨value⟩

/-- A policy by its name. -/
def policy (value : String) : Except Usage SyncPolicy :=
  match SyncPolicy.ofText? value with
  | some p => .ok p
  | none => if value.isEmpty then .error (.valueRequired .sync) else .error (.invalidValue .sync value)

/-- The largest count of an option that may be repeated. -/
def countLimit : Nat := 255

/-- The options with one more, which must not be there already unless it is counted. -/
def put (g : Given) (option : Switch) (value : String) : Except Usage Given :=
  if option ≠ .verbose ∧ g.has option then .error (.repeated option)
  else match option with
    | .config => do return { g with config := some (← path .config value) }
    | .workdir => do return { g with workdir := some (← path .workdir value) }
    | .revision => .ok { g with revision := some value }
    | .sync => do return { g with sync := some (← policy value) }
    | .resume => .ok { g with resume := true }
    | .disassembler => do return { g with disassembler := some (← path .disassembler value) }
    | .verbose => .ok { g with verbose := some (min (g.verbose.getD 0 + 1) countLimit) }
    | .quiet => .ok { g with quiet := true }
    | .json => .ok { g with json := true }
    | .help => .ok g
    | .version => .ok g

/-- The options of the outer level with those of the inner level in their place. -/
def merge (outer inner : Given) : Given :=
  { config := inner.config.or outer.config
    workdir := inner.workdir.or outer.workdir
    revision := inner.revision.or outer.revision
    sync := inner.sync.or outer.sync
    resume := inner.resume || outer.resume
    disassembler := inner.disassembler.or outer.disassembler
    verbose := inner.verbose.or outer.verbose
    quiet := inner.quiet || outer.quiet
    json := inner.json || outer.json }

end Given

/-! ## One level -/

/-- A level as far as it was read. -/
structure Level where
  /-- The command that the words belong to; none in front of a command. -/
  command : Option Command
  given : Given := {}
  /-- An option that is not settled yet, and its value once that was read. -/
  pending : Option (Switch × Option String) := none
deriving DecidableEq, Repr

namespace Level

/-- The words stand after the name of a command. -/
def inCommand (l : Level) : Bool := l.command.isSome

/-- The next word is the value of an option, unless it looks like an option itself. -/
def awaits (l : Level) : Bool :=
  match l.pending with
  | some (_, none) => true
  | _ => false

/-- The pending option is settled. -/
def settle (l : Level) : Except Usage Level :=
  match l.pending with
  | none => .ok l
  | some (option, none) => .error (.valueRequired option)
  | some (option, some value) => do
    return { l with given := ← l.given.put option value, pending := none }

/-- What help is about at this level. -/
def topic (l : Level) : HelpTopic :=
  match l.command with
  | none => .program
  | some command => .command command

/-- A flag is met, in its long form or as a letter. -/
def flag (l : Level) (option : Switch) (long : Bool) : Except Usage Level := do
  let l ← l.settle
  match option with
  | .help => .error (.help l.topic long)
  | .version => .error .version
  | _ => return { l with given := ← l.given.put option "" }

/-- An option is met with its value, or waits for it. -/
def option (l : Level) (option : Switch) (value : Option String) : Except Usage Level := do
  let l ← l.settle
  match value with
  | some v => return { l with given := ← l.given.put option v }
  | none => return { l with pending := some (option, none) }

/-- A long option: its name, and what stands after an equals sign. -/
def long (l : Level) (name : String) (value : Option String) : Except Usage Level :=
  match Switch.ofLong? l.inCommand name with
  | none => .error (.unknownArgument ("--" ++ name))
  | some s =>
    if s.takesValue then l.option s value
    else match value with
      | some v => .error (.unexpectedValue s v)
      | none => l.flag s true

/-- The value attached to a letter; an equals sign in front of it does not count. -/
def attached : List Char → Option String
  | [] => none
  | '=' :: cs => some (String.ofList cs)
  | cs => some (String.ofList cs)

/-- A row of letters. The first that takes a value takes the rest of the word. -/
def letters (l : Level) : List Char → Except Usage Level
  | [] => .ok l
  | c :: cs =>
    match Switch.ofShort? l.inCommand c with
    | none => .error (.unknownArgument (String.ofList ['-', c]))
    | some s =>
      if s.takesValue then l.option s (attached cs)
      else do
        let l ← l.flag s false
        l.letters cs

/-- A word that is no option: the value that is awaited, or a word that has no place. -/
def word (l : Level) (arg : String) : Except Usage Level :=
  match l.pending with
  | some (option, none) => .ok { l with pending := some (option, some arg) }
  | _ => .error (if l.inCommand then .unknownArgument arg else .unknownCommand arg)

/-- A word after two dashes, which has no place. -/
def trailing (l : Level) (arg : String) : Usage :=
  if l.inCommand || (Command.ofName? arg).isSome || arg == "help" then .unknownArgument arg
  else .unknownCommand arg

/-- The words after `help`: at most one, the name of a command. -/
def helpAbout : List String → Usage
  | [] => .help .program true
  | arg :: rest =>
    match Command.ofName? arg, rest with
    | some command, [] => .help (.command command) true
    | some _, other :: _ => .unknownCommand other
    | none, _ =>
      if arg == "help" then
        match rest with
        | [] => .help .help true
        | other :: _ => .unknownCommand other
      else .unknownCommand arg

/-- A word by its first characters: an option by name, letters, or anything else. -/
def argument (l : Level) (arg : String) : Except Usage Level :=
  match arg.toList with
  | '-' :: '-' :: cs =>
    let name := cs.takeWhile (· != '=')
    l.long (String.ofList name)
      (if name.length < cs.length then some (String.ofList (cs.drop (name.length + 1))) else none)
  | '-' :: c :: cs => l.letters (c :: cs)
  | _ => l.word arg

/-- The words of a level, up to the name of a command and the words after it. -/
def read (l : Level) : List String → Except Usage (Level × Option (Command × List String))
  | [] => .ok (l, none)
  | arg :: rest =>
    if !l.inCommand && !l.awaits && arg == "help" then .error (helpAbout rest)
    else match (if !l.inCommand && !l.awaits then Command.ofName? arg else none) with
      | some command => .ok (l, some (command, rest))
      | none =>
        if arg == "--" then
          match rest with
          | [] => .ok (l, none)
          | other :: _ => .error (l.trailing other)
        else do
          let l ← l.argument arg
          l.read rest

/-- The end of a level: the pending option is settled, and the environment must hold a path where one
is missing. -/
def finish (l : Level) (env : Variables) : Except Usage Given := do
  let l ← l.settle
  match l.given.disassembler, env.disassembler with
  | none, some value => do let _ ← Given.path .disassembler value
  | _, _ => pure ()
  return l.given

end Level

/-! ## The whole line -/

/-- The options that a line gives, with the environment in place of those that are missing. -/
def options (command : Option Command) (given : Given) (env : Variables) : Options :=
  { given := command
    config := given.config
    workdir := given.workdir
    revision := given.revision.or env.revision
    sync := given.sync
    resume := given.resume
    disassembler := given.disassembler.or (env.disassembler.map Path.ofText)
    verbose := given.verbose.getD 0
    quiet := given.quiet
    json := given.json }

/-- The options that a command line asks for, or why there are none. -/
def parse (env : Variables) (args : List String) : Except Usage Options := do
  let (outer, rest) ← Level.read { command := none } args
  match rest with
  | none => return options none (← outer.finish env) env
  | some (command, words) =>
    let (inner, _) ← Level.read { command := some command } words
    let inner ← inner.finish env
    let outer ← outer.finish env
    return options (some command) (outer.merge inner) env

end Bringup.CommandLine
