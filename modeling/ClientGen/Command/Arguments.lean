import ClientGen.OrderedMap

/-!
# Arguments of the command line

* `Command` — what can be asked for: client files, or a description.
* `Command.parse` — the command that a list of arguments asks for.
* `Interruption` — why there is no command.

**Options** have a name after two dashes, and a value after an equals sign or as the next argument.
None may be given twice, a path must not be empty, and a value that is an argument of its own must
not start with a dash, unless it is nothing else. Arguments are taken in order: a request for help
counts only if nothing before it is wrong, and then what follows it does not matter.
-/

namespace ClientGen

/-- Options for the files of clients. -/
structure GenerateOptions where
  /-- The languages. -/
  languages : Option String := none
  /-- The document. -/
  spec : String
  /-- The directory of the files. -/
  dir : Option String := none
  /-- The name of the client. -/
  sdk : Option String := none
  /-- The tag of operations that have none. -/
  defaultTag : Option String := none
  /-- The file of settings. -/
  config : Option String := none
  deriving DecidableEq, Repr

/-- Options for a description. -/
structure DescribeOptions where
  /-- The document. -/
  spec : String
  /-- The file of the description. -/
  out : String
  /-- The tag of operations that have none. -/
  defaultTag : Option String := none
  /-- The file of settings. -/
  config : Option String := none
  deriving DecidableEq, Repr

/-- **What can be asked for.** -/
inductive Command where
  /-- The files of clients. -/
  | generate (options : GenerateOptions)
  /-- The description of an API. -/
  | describe (options : DescribeOptions)
  deriving DecidableEq, Repr

/-- **Why there is no command.** -/
inductive Interruption where
  /-- Help was asked for, or nothing at all. -/
  | help
  /-- The version was asked for. -/
  | version
  /-- The arguments do not fit together. -/
  | misuse
  deriving DecidableEq, Repr

namespace Command

/-- An option: its name, and whether its value is a path. -/
structure Flag where
  /-- The name. -/
  name : String
  /-- Whether its value is a path, which must not be empty. -/
  isPath : Bool
  deriving Repr

/-- The options for the files of clients. -/
def generateFlags : List Flag :=
  [⟨"lang", false⟩, ⟨"spec", true⟩, ⟨"out", true⟩, ⟨"sdk", false⟩, ⟨"default-tag", false⟩,
    ⟨"config", true⟩]

/-- The options for a description. -/
def describeFlags : List Flag :=
  [⟨"spec", true⟩, ⟨"out", true⟩, ⟨"default-tag", false⟩, ⟨"config", true⟩]

/-- **An argument by its form.** -/
inductive Form where
  /-- Two dashes alone, after which there are no options. -/
  | separator
  /-- A name after two dashes, and perhaps a value after an equals sign. -/
  | long (name : String) (value : Option String)
  /-- Letters after one dash. -/
  | short (letter : Char)
  /-- Anything else. -/
  | value (text : String)
  deriving DecidableEq, Repr

/-- The form of an argument. -/
def form (arg : String) : Form :=
  match arg.toList with
  | ['-', '-'] => .separator
  | '-' :: '-' :: cs =>
    let name := cs.takeWhile (· != '=')
    match cs.drop name.length with
    | [] => .long (String.ofList name) none
    | _ :: value => .long (String.ofList name) (some (String.ofList value))
  | '-' :: c :: _ => .short c
  | _ => .value arg

/-- The values so far with one more. -/
def assign (flag : Flag) (value : String) (given : OrderedMap String) :
    Except Interruption (OrderedMap String) :=
  if (given.lookup flag.name).isSome ∨ (flag.isPath ∧ value = "") then .error .misuse
  else .ok (given.insert flag.name value)

/-- **The values of options**, where one of them may still wait for its value. -/
def values (flags : List Flag) (waiting : Option Flag) (given : OrderedMap String) :
    List String → Except Interruption (OrderedMap String)
  | [] => if waiting.isNone then .ok given else .error .misuse
  | arg :: args =>
    match form arg, waiting with
    | .value text, some flag => do
      let given ← assign flag text given
      values flags none given args
    | .separator, none => if args.isEmpty then .ok given else .error .misuse
    | .long "help" none, none => .error .help
    | .short 'h', none => .error .help
    | .long name value, none =>
      match flags.find? (·.name == name), value with
      | some flag, some value => do
        let given ← assign flag value given
        values flags none given args
      | some flag, none => values flags (some flag) given args
      | none, _ => .error .misuse
    | _, _ => .error .misuse

/-- The options for the files of clients. A directory and a name of a client exclude each other. -/
def generateOptions (given : OrderedMap String) : Except Interruption GenerateOptions :=
  match given.lookup "spec" with
  | none => .error .misuse
  | some spec =>
    if (given.lookup "out").isSome ∧ (given.lookup "sdk").isSome then .error .misuse
    else
      .ok
        { languages := given.lookup "lang", spec, dir := given.lookup "out"
          sdk := given.lookup "sdk", defaultTag := given.lookup "default-tag"
          config := given.lookup "config" }

/-- The options for a description. -/
def describeOptions (given : OrderedMap String) : Except Interruption DescribeOptions :=
  match given.lookup "spec", given.lookup "out" with
  | some spec, some out =>
    .ok
      { spec, out, defaultTag := given.lookup "default-tag", config := given.lookup "config" }
  | _, _ => .error .misuse

/-- The language of a command name that stands for the files in one language. -/
def shorthand? (arg : String) : Option String :=
  match arg.toList with
  | 'g' :: 'e' :: 'n' :: ':' :: language => some (String.ofList language)
  | _ => none

/-- Arguments without a shorthand. -/
def expanded : List String → List String
  | [] => []
  | arg :: args =>
    match shorthand? arg with
    | none => arg :: args
    | some "" => "gen" :: args
    | some language => "gen" :: "--lang" :: language :: args

/-- What a request for help says: there has to be a command of the name, if a name is given. -/
def helpFor : List String → Interruption
  | [] => .help
  | [name] => if ["gen", "ir", "help"].contains name then .help else .misuse
  | _ => .misuse

/-- **The command that arguments ask for.** -/
def parse (args : List String) : Except Interruption Command :=
  match expanded args with
  | [] => .error .help
  | "gen" :: args => do
    let given ← values generateFlags none [] args
    let options ← generateOptions given
    return .generate options
  | "ir" :: args => do
    let given ← values describeFlags none [] args
    let options ← describeOptions given
    return .describe options
  | "help" :: args => .error (helpFor args)
  | arg :: args =>
    match form arg with
    | .separator => .error (if args.isEmpty then .help else .misuse)
    | .long "help" none => .error .help
    | .long "version" none => .error .version
    | .short 'h' => .error .help
    | .short 'V' => .error .version
    | _ => .error .misuse

end Command

end ClientGen
