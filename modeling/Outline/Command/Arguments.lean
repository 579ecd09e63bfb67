import Outline.Path

/-!
# Arguments

What the arguments of a run ask for.

* `Command` — the three commands with their choices;
* `Request` — a command, the version, help, or nothing that can be understood;
* `Request.ofArguments` — the request of a list of arguments.

Options may stand before and after the path, in short or long form; short options may share a
dash, and a value may follow in the same argument or in the next.  Everything but the
verbosity may be given once.  Arguments are read in order, so that of a fault and a wish for
help the first decides.
-/

namespace Outline

/-- The choices of a scan. -/
structure ScanChoices where
  path : Option Path
  json : Bool
  all : Bool
  max : Option UInt64
  calls : Bool
  parallel : Bool
  config : Option Path
deriving DecidableEq

/-- What can be run. -/
inductive Command where
  /-- Summarize the files of a project. -/
  | scan (choices : ScanChoices)
  /-- List the languages. -/
  | languages
  /-- Write a default configuration. -/
  | init (path : Option Path)
deriving DecidableEq

/-- What a list of arguments asks for. -/
inductive Request where
  | run (c : Command)
  | version
  | help
  | misuse
deriving DecidableEq

/-! ### Options -/

/-- The options of all commands. -/
inductive Switch where
  | verbose
  | help
  | version
  | json
  | all
  | calls
  | parallel
  | max
  | config
deriving DecidableEq

namespace Switch

def longName : Switch → Text
  | verbose => "verbose".toList
  | help => "help".toList
  | version => "version".toList
  | json => "json".toList
  | all => "all".toList
  | calls => "calls".toList
  | parallel => "parallel".toList
  | max => "max".toList
  | config => "config".toList

def letter? : Switch → Option Char
  | verbose => some 'v'
  | help => some 'h'
  | version => some 'V'
  | json => some 'j'
  | all => some 'a'
  | calls => none
  | parallel => some 'p'
  | max => some 'n'
  | config => some 'c'

def takesValue : Switch → Bool
  | max | config => true
  | _ => false

end Switch

/-- The part of a command line that is being read. -/
inductive Section where
  | top
  | scan
  | languages
  | init
deriving DecidableEq

namespace Section

/-- The options that a part knows. -/
def switches : Section → List Switch
  | top => [.verbose, .help, .version]
  | scan => [.verbose, .help, .json, .all, .calls, .parallel, .max, .config]
  | languages => [.verbose, .help]
  | init => [.verbose, .help]

/-- Whether a path can stand in a part. -/
def takesPath : Section → Bool
  | scan | init => true
  | _ => false

/-- The part that the name of a command begins. -/
def ofName? (name : Text) : Option Section :=
  if name = "scan".toList then some scan
  else if name = "languages".toList then some languages
  else if name = "init".toList then some init
  else none

def long? (s : Section) (name : Text) : Option Switch := s.switches.find? (·.longName == name)

def short? (s : Section) (c : Char) : Option Switch := s.switches.find? (·.letter? == some c)

end Section

/-! ### Reading -/

/-- What has been read. -/
structure Settings where
  given : List Switch
  path : Option Path
  max : Option UInt64
  config : Option Path

namespace Settings

def start : Settings := ⟨[], none, none, none⟩

/-- The path of a value, which must not be empty. -/
def path? (value : Text) : Option Path := if value = [] then none else some (Path.ofText value)

/-- The number of a value: decimal digits, perhaps behind a plus, of at most 64 bits. -/
def number? (value : Text) : Option UInt64 :=
  let ds : Text := match value with
    | '+' :: r => r
    | r => r
  let n := Text.natOfDigits ds
  if ds ≠ [] && ds.all Char.isDigit && n < UInt64.size then some (UInt64.ofNat n) else none

def give (s : Settings) (o : Switch) : Except Request Settings :=
  match o with
  | .help => .error .help
  | .version => .error .version
  | .verbose => .ok s
  | o => if s.given.contains o then .error .misuse else .ok { s with given := o :: s.given }

/-- An option is given with a value. -/
def giveValue (s : Settings) (o : Switch) (value : Text) : Except Request Settings :=
  if s.given.contains o then .error .misuse
  else match o with
    | .max => match number? value with
      | some n => .ok { s with given := o :: s.given, max := some n }
      | none => .error .misuse
    | .config => match path? value with
      | some p => .ok { s with given := o :: s.given, config := some p }
      | none => .error .misuse
    | _ => .error .misuse

def givePath (s : Settings) (part : Section) (value : Text) : Except Request Settings :=
  if part.takesPath && s.path.isNone then
    match path? value with
    | some p => .ok { s with path := some p }
    | none => .error .misuse
  else .error .misuse

/-- The request of a part of which everything has been read. -/
def request (s : Settings) : Section → Request
  | .top => .misuse
  | .languages => .run .languages
  | .init => .run (.init s.path)
  | .scan => .run (.scan
      { path := s.path
        json := s.given.contains .json
        all := s.given.contains .all
        max := s.max
        calls := s.given.contains .calls
        parallel := s.given.contains .parallel
        config := s.config })

end Settings

/-- What an argument that is read leaves to do. -/
inductive Reading where
  | done (s : Settings)
  /-- The value of the option is in the next argument. -/
  | wants (o : Switch) (s : Settings)

/-- Whether an argument can be a value: it does not look like an option. -/
def isValue : Text → Bool
  | ['-'] => true
  | '-' :: _ => false
  | _ => true

/-- Reads the letters behind one dash. -/
def readLetters (part : Section) : Settings → Text → Except Request Reading
  | s, [] => .ok (.done s)
  | s, c :: r =>
    match part.short? c with
    | none => .error .misuse
    | some o =>
      if o.takesValue then
        match r with
        | [] => .ok (.wants o s)
        | '=' :: value => (s.giveValue o value).map .done
        | value => (s.giveValue o value).map .done
      else match s.give o with
        | .ok s => readLetters part s r
        | .error e => .error e

/-- Reads the name behind two dashes, and the value behind its equals sign. -/
def readLong (part : Section) (s : Settings) (t : Text) : Except Request Reading :=
  let name := t.takeWhile (· ≠ '=')
  let value? := (t.dropWhile (· ≠ '=')).tail?
  match part.long? name, value? with
  | none, _ => .error .misuse
  | some o, some value =>
    if o.takesValue then (s.giveValue o value).map .done else .error .misuse
  | some o, none => if o.takesValue then .ok (.wants o s) else (s.give o).map .done

/-- Reads paths only. -/
def readPaths (part : Section) : Settings → List Text → Request
  | s, [] => s.request part
  | s, arg :: args =>
    match s.givePath part arg with
    | .ok s => readPaths part s args
    | .error e => e

/-- The request of the arguments behind `help`: each must be the name of a command. -/
def readHelp : List Text → Request
  | [] => .help
  | [name] => if (Section.ofName? name).isSome || name = "help".toList then .help else .misuse
  | _ => .misuse

/-- Reads arguments in a part of the command line. -/
def readArguments (part : Section) (s : Settings) : List Text → Request
  | [] => s.request part
  | arg :: args =>
    let reading : Except Request Reading :=
      match arg with
      | '-' :: '-' :: name => readLong part s name
      | '-' :: letters => readLetters part s letters
      | _ => .ok (.done s)
    if arg = ['-', '-'] then readPaths part s args
    else if isValue arg then
      match part with
      | .top =>
        if arg = "help".toList then readHelp args
        else match Section.ofName? arg with
          | some part => readArguments part Settings.start args
          | none => .misuse
      | part =>
        match s.givePath part arg with
        | .ok s => readArguments part s args
        | .error e => e
    else match reading, args with
      | .error e, _ => e
      | .ok (.done s), args => readArguments part s args
      | .ok (.wants _ _), [] => .misuse
      | .ok (.wants o s), value :: args =>
        if isValue value then
          match s.giveValue o value with
          | .ok s => readArguments part s args
          | .error e => e
        else .misuse

/-- The request of a list of arguments. -/
def Request.ofArguments (args : List Text) : Request := readArguments .top Settings.start args

end Outline
