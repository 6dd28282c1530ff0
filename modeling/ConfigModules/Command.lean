import ConfigModules.Settings
import ConfigModules.Check
import ConfigModules.Loader.Rendering
/-!
The command line: what arguments ask for, and what the program answers. An answer has an exit status,
the text for standard output, the log, and at most one error.
-/
namespace ConfigModules

inductive Action where
  /-- Print the module of an identifier. -/
  | load (id : String) (json : Bool)
  /-- Check a directory, or the one that the settings name. -/
  | check (directory : Option String)
deriving DecidableEq, Repr

inductive HelpTopic where
  | program
  | load
  | check
  | help
deriving DecidableEq, Repr

structure GlobalOptions where
  /-- The path of the settings file, if it is named. -/
  settings : Option String := none
  verbose : Bool := false
deriving DecidableEq, Repr

def GlobalOptions.settingsPath (o : GlobalOptions) : String := o.settings.getD "quire.toml"

inductive Request where
  | version
  | help (topic : HelpTopic)
  | act (options : GlobalOptions) (action : Action)
deriving DecidableEq, Repr

inductive Argument where
  /-- Two hyphens alone: no options follow. -/
  | endOfOptions
  | long (name : List Char)
  /-- A hyphen with letters after it. -/
  | short (letters : List Char)
  | word (text : String)
deriving DecidableEq, Repr

def Argument.ofString (s : String) : Argument :=
  match s.toList with
  | ['-', '-'] => .endOfOptions
  | '-' :: '-' :: name => .long name
  | '-' :: c :: letters => .short (c :: letters)
  | _ => .word s

namespace Request

/-- Takes the value of the option that names the settings file: not empty, and only once. -/
def nameSettings? (o : GlobalOptions) (value : String) : Option GlobalOptions :=
  if value.isEmpty || o.settings.isSome then none else some { o with settings := some value }

def beVerbose? (o : GlobalOptions) : Option GlobalOptions :=
  if o.verbose then none else some { o with verbose := true }

/-- What an option before the command does. -/
inductive OptionStep where
  | refuse
  | ask (request : Request)
  | goOn (options : GlobalOptions)
  /-- The next argument is the path of the settings file. -/
  | awaitPath (options : GlobalOptions)

/-- Goes on with the options, if there are any. -/
def OptionStep.ofOptions? : Option GlobalOptions → OptionStep
  | some o => .goOn o
  | none => .refuse

def longOption (o : GlobalOptions) (name : List Char) : OptionStep :=
  let key := String.ofList (name.takeWhile (· ≠ '='))
  match key, name.dropWhile (· ≠ '=') with
  | "config", [] => .awaitPath o
  | "config", _ :: value => .ofOptions? (nameSettings? o (String.ofList value))
  | "verbose", [] => .ofOptions? (beVerbose? o)
  | "version", [] => .ask .version
  | "help", [] => .ask (.help .program)
  | _, _ => .refuse

/-- Options of one letter may stand together. The path may follow its letter directly. -/
def shortOptions (o : GlobalOptions) : List Char → OptionStep
  | [] => .goOn o
  | 'v' :: letters =>
    match beVerbose? o with
    | some o => shortOptions o letters
    | none => .refuse
  | ['c'] => .awaitPath o
  | 'c' :: '=' :: value => .ofOptions? (nameSettings? o (String.ofList value))
  | 'c' :: value => .ofOptions? (nameSettings? o (String.ofList value))
  | 'V' :: _ => .ask .version
  | 'h' :: _ => .ask (.help .program)
  | _ => .refuse

/-- The arguments of the loading command, after an identifier and a mark if there were any. -/
def loadArguments (o : GlobalOptions) : (id : Option String) → (json wordsOnly : Bool) → List String →
    Option Request
  | id, json, _, [] => id.map fun id => .act o (.load id json)
  | id, json, wordsOnly, a :: more =>
    match if wordsOnly then .word a else Argument.ofString a with
    | .endOfOptions => loadArguments o id json true more
    | .long name =>
      match String.ofList name with
      | "json" => if json then none else loadArguments o id true wordsOnly more
      | "help" => some (.help .load)
      | _ => none
    | .short letters => if letters.head? = some 'h' then some (.help .load) else none
    | .word text => if id.isSome then none else loadArguments o (some text) json wordsOnly more

/-- The arguments of the checking command, after a directory if there was one. -/
def checkArguments (o : GlobalOptions) : (directory : Option String) → (wordsOnly : Bool) → List String →
    Option Request
  | directory, _, [] => some (.act o (.check directory))
  | directory, wordsOnly, a :: more =>
    match if wordsOnly then .word a else Argument.ofString a with
    | .endOfOptions => checkArguments o directory true more
    | .long name => if String.ofList name = "help" then some (.help .check) else none
    | .short letters => if letters.head? = some 'h' then some (.help .check) else none
    | .word text =>
      if directory.isSome || text.isEmpty then none else checkArguments o (some text) wordsOnly more

def helpArguments : List String → Option Request
  | [] => some (.help .program)
  | ["load"] => some (.help .load)
  | ["check"] => some (.help .check)
  | ["help"] => some (.help .help)
  | _ => none

/-- What an argument before the command does as an option. -/
def optionStep (o : GlobalOptions) : Argument → OptionStep
  | .long name => longOption o name
  | .short letters => shortOptions o letters
  | _ => .refuse

/-- The arguments from the command on. -/
def commandArguments (o : GlobalOptions) (command : String) (more : List String) : Option Request :=
  match command with
  | "load" => loadArguments o none false false more
  | "check" => checkArguments o none false more
  | "help" => helpArguments more
  | _ => none

/-- The arguments from the options before the command on. -/
def arguments (o : GlobalOptions) : (awaitsPath : Bool) → List String → Option Request
  | _, [] => none
  | true, a :: more =>
    match Argument.ofString a with
    | .word path => (nameSettings? o path).bind fun o => arguments o false more
    | _ => none
  | false, a :: more =>
    match optionStep o (Argument.ofString a) with
    | .goOn o => arguments o false more
    | .awaitPath o => arguments o true more
    | .ask request => some request
    | .refuse => commandArguments o a more

/-- What arguments ask for, or nothing if they make no sense. -/
def ofArguments? (args : List String) : Option Request := arguments {} false args

end Request

inductive ActionError where
  | settings (fault : SettingsError)
  | render (fault : RenderError)
  | check (fault : CheckError)

def ActionError.message : ActionError → String
  | .settings fault => fault.message
  | .render fault => fault.message
  | .check fault => fault.message

/-- What an action prints and logs, and how it ends. -/
structure Report where
  output : String := ""
  log : List LogLine := []
  error : Option ActionError := none

namespace Action

variable {m : Type → Type} [Monad m]

/-- Acts with loaded settings and their chain. -/
def perform (files : FileAccess m) (settings : Settings) (chain : LoaderChain m) : Action → m Report
  | .load id json => do
    match ← chain.render files id json with
    | .error fault => return { error := some (.render fault) }
    | .ok rendering => return { output := rendering.text ++ "\n", log := rendering.notes }
  | .check directory => do
    let (log, verdict) ← chain.runCheck files settings.loader.decoding
      (directory.getD settings.check.directory)
    match verdict with
    | .error fault => return { log, error := some (.check fault) }
    | .ok () => return { log }

/-- Loads the settings, makes their chain, and acts. -/
def run (files : FileAccess m) (settingsPath : String) (action : Action) : m Report := do
  match ← Settings.load files settingsPath with
  | .error fault => return { error := some (.settings fault) }
  | .ok ⟨settings, note⟩ =>
    match (settings.chain : Except SettingsError (LoaderChain m)) with
    | .error fault => return { log := [note], error := some (.settings fault) }
    | .ok chain =>
      let report ← action.perform files settings chain
      return { report with log := note :: report.log }

end Action

/-- What the program as a whole answers. -/
structure Reply where
  status : Nat
  output : String := ""
  log : List LogLine := []
  /-- The text of the error without its heading. -/
  error : Option String := none
deriving DecidableEq, Repr

namespace Reply

def version : Reply := { status := 0, output := "quire 0.1.0\n" }

def helpLines : HelpTopic → List String
  | .program =>
    ["Load YAML config files as JavaScript modules", "",
      "Usage: quire [OPTIONS] <COMMAND>", "",
      "Commands:",
      "  load   Load one module and print the generated code",
      "  check  Check that every config module in a directory round-trips",
      "  help   Print this message or the help of the given subcommand(s)", "",
      "Options:",
      "  -c, --config <CONFIG>  Path to quire.toml config file [default: quire.toml]",
      "  -v, --verbose          Enable verbose output",
      "  -h, --help             Print help",
      "  -V, --version          Print version"]
  | .load =>
    ["Load one module and print the generated code", "",
      "Usage: quire load [OPTIONS] <ID>", "",
      "Arguments:",
      "  <ID>  Module identifier (a file path)", "",
      "Options:",
      "      --json  Print the full load result as JSON",
      "  -h, --help  Print help"]
  | .check =>
    ["Check that every config module in a directory round-trips", "",
      "Usage: quire check [DIR]", "",
      "Arguments:",
      "  [DIR]  Directory to scan (defaults to config or \"docs\")", "",
      "Options:",
      "  -h, --help  Print help"]
  | .help =>
    ["Print this message or the help of the given subcommand(s)", "",
      "Usage: quire help [COMMAND]...", "",
      "Arguments:",
      "  [COMMAND]...  Print help for the subcommand(s)"]

def help (topic : HelpTopic) : Reply :=
  { status := 0, output := String.join ((helpLines topic).map (· ++ "\n")) }

/-- The reply to arguments that make no sense. -/
def usage : Reply := { status := 2, error := some "unexpected arguments" }

def ofReport (verbose : Bool) (report : Report) : Reply where
  status := if report.error.isSome then 1 else 0
  output := report.output
  log := shownLines verbose report.log
  error := report.error.map ActionError.message

end Reply

/-- The answer of the program to its arguments. -/
def runProgram {m : Type → Type} [Monad m] (files : FileAccess m) (args : List String) : m Reply := do
  match Request.ofArguments? args with
  | none => return .usage
  | some .version => return .version
  | some (.help topic) => return .help topic
  | some (.act options action) =>
    return .ofReport options.verbose (← action.run files options.settingsPath)

end ConfigModules
