import StaticSite.Site.Build

/-!
# The command line

The arguments name a command and its options. An option has a long name behind two dashes and may
have a letter behind one; letters may be put together, and a value stands behind an equals sign,
directly behind its letter, or as the next argument, which may then not begin with a dash. Behind
`--` every argument is a plain word. Arguments are read from left to right, and the first one that
asks for help or is wrong decides.
-/

namespace StaticSite.CommandLine

/-- Why arguments are refused. -/
inductive UsageError where
  | noCommand
  | unknownCommand (name : String)
  | unexpected (argument : String)
  | missingValue (option : String)
  | emptyValue (option : String)
  | unneededValue (option : String)
  | repeated (option : String)
  | required (option : String)
deriving DecidableEq

/-- What a refused call is told. -/
def UsageError.message : UsageError → String
  | noCommand => "a command is required but none was given"
  | unknownCommand name => "unrecognized command '" ++ name ++ "'"
  | unexpected argument => "unexpected argument '" ++ argument ++ "' found"
  | missingValue option => "a value is required for '" ++ option ++ "' but none was given"
  | emptyValue option => "the value of '" ++ option ++ "' may not be empty"
  | unneededValue option => "'" ++ option ++ "' takes no value"
  | repeated option => "'" ++ option ++ "' cannot be used multiple times"
  | required option => "'" ++ option ++ "' is required"

/-- Why the arguments do not lead to a build. -/
inductive Stop where
  | help
  | version
  | refused (cause : UsageError)
deriving DecidableEq

/-- The form of an argument. -/
inductive Argument where
  | word (text : String)
  /-- Two dashes alone. -/
  | separator
  | long (name : String) (value : Option String)
  | letters (text : List Char)
deriving DecidableEq

/-- The form of an argument. A dash alone is a word. -/
def Argument.ofString (text : String) : Argument :=
  match text.toList with
  | ['-', '-'] => separator
  | '-' :: '-' :: rest =>
    let name := rest.takeWhile (· != '=')
    let value := match rest.dropWhile (· != '=') with
      | _ :: value => some (String.ofList value)
      | [] => none
    long (String.ofList name) value
  | '-' :: c :: rest => letters (c :: rest)
  | _ => word text

/-! ## Building -/

/-- What a build is asked for. -/
structure BuildRequest where
  website : Path
  output : Path
  baseUrl : String
  /-- Whether pages of one depth are rendered one after the other. -/
  parallel : Bool
deriving DecidableEq

/-- What the arguments of a build have said so far. -/
structure Draft where
  website : Option String := none
  output : Option String := none
  baseUrl : Option String := none
  parallel : Bool := false
deriving DecidableEq

/-- The options of a build that take a value. -/
inductive Setting where
  | output
  | baseUrl
deriving DecidableEq

/-- The option under which a setting is written. -/
def Setting.label : Setting → String
  | output => "--output"
  | baseUrl => "--base-url"

namespace Draft

/-- Keeps the value of an option that may be given once and not empty. -/
def once (label value : String) : Option String → Except Stop (Option String)
  | some _ => .error (.refused (.repeated label))
  | none => if value = "" then .error (.refused (.emptyValue label)) else .ok (some value)

/-- Takes the value of a setting, which may be given once. -/
def set (d : Draft) (setting : Setting) (value : String) : Except Stop Draft :=
  match setting with
  | .output => (once setting.label value d.output).map fun v => { d with output := v }
  | .baseUrl =>
    if d.baseUrl.isSome then .error (.refused (.repeated setting.label))
    else .ok { d with baseUrl := some value }

/-- The first word is the website; there is no second one. -/
def addWord (d : Draft) (word : String) : Except Stop Draft :=
  if d.website.isSome then .error (.refused (.unexpected word))
  else (once "WEBSITE" word none).map fun v => { d with website := v }

/-- Asks for parallel rendering, once. -/
def setParallel (d : Draft) : Except Stop Draft :=
  if d.parallel then .error (.refused (.repeated "--parallel")) else .ok { d with parallel := true }

/-- Reads a long option. An option that still needs its value is given back. -/
def readLong (d : Draft) (name : String) (value : Option String) :
    Except Stop (Draft × Option Setting) :=
  let setting? : Option Setting := match name with
    | "output" => some .output
    | "base-url" => some .baseUrl
    | _ => none
  match setting?, value with
  | some setting, some value => (d.set setting value).map (·, none)
  | some setting, none => .ok (d, some setting)
  | none, _ =>
    if ["parallel", "verbose", "help"].contains name then
      if value.isSome then .error (.refused (.unneededValue ("--" ++ name)))
      else if name = "parallel" then d.setParallel.map (·, none)
      else if name = "verbose" then .ok (d, none)
      else .error .help
    else .error (.refused (.unexpected ("--" ++ name)))

/-- Reads letters. What stands behind an option's letter is its value. -/
def readLetters (d : Draft) : List Char → Except Stop (Draft × Option Setting)
  | [] => .ok (d, none)
  | c :: rest =>
    let setting? : Option Setting :=
      if c = 'o' then some .output else if c = 'b' then some .baseUrl else none
    match setting? with
    | some setting =>
      match rest with
      | [] => .ok (d, some setting)
      | '=' :: value => (d.set setting (String.ofList value)).map (·, none)
      | value => (d.set setting (String.ofList value)).map (·, none)
    | none =>
      if c = 'v' then readLetters d rest
      else if c = 'h' then .error .help
      else .error (.refused (.unexpected ("-" ++ String.singleton c)))

/-- Reads arguments of which an option may be waiting for the first one. -/
def readAll (d : Draft) (waiting : Option Setting) : List String → Except Stop Draft
  | [] =>
    match waiting with
    | some setting => .error (.refused (.missingValue setting.label))
    | none => .ok d
  | argument :: rest =>
    match waiting, Argument.ofString argument with
    | some setting, .word value => do readAll (← d.set setting value) none rest
    | some setting, _ => .error (.refused (.missingValue setting.label))
    | none, .word word => do readAll (← d.addWord word) none rest
    | none, .separator => rest.foldlM addWord d
    | none, .long name value => do
      let (d, waiting) ← d.readLong name value
      readAll d waiting rest
    | none, .letters text => do
      let (d, waiting) ← d.readLetters text
      readAll d waiting rest

/-- What is asked for, with the usual directories where none are named. -/
def request (d : Draft) : Except Stop BuildRequest :=
  match d.baseUrl with
  | none => .error (.refused (.required Setting.baseUrl.label))
  | some baseUrl => .ok {
      website := ⟨d.website.getD "."⟩
      output := ⟨d.output.getD "public"⟩
      baseUrl
      parallel := d.parallel }

end Draft

/-! ## Commands -/

/-- Reads letters before the command. -/
def readLetters : List Char → Except Stop Unit
  | [] => .ok ()
  | 'v' :: rest => readLetters rest
  | 'h' :: _ => .error .help
  | 'V' :: _ => .error .version
  | c :: _ => .error (.refused (.unexpected ("-" ++ String.singleton c)))

/-- Reads a long option before the command. -/
def readLong (name : String) (value : Option String) : Except Stop Unit :=
  if ["verbose", "help", "version"].contains name then
    if value.isSome then .error (.refused (.unneededValue ("--" ++ name)))
    else if name = "verbose" then .ok ()
    else if name = "help" then .error .help
    else .error .version
  else .error (.refused (.unexpected ("--" ++ name)))

/-- Reads the names behind the command for help: at most one, which is that of a command. -/
def readHelp : List String → Stop
  | [] => .help
  | [name] => if name = "build" ∨ name = "help" then .help else .refused (.unknownCommand name)
  | name :: second :: _ =>
    .refused (.unknownCommand (if name = "build" ∨ name = "help" then second else name))

/-- Reads the arguments of the program. -/
def read : List String → Except Stop BuildRequest
  | [] => .error (.refused .noCommand)
  | argument :: rest =>
    match Argument.ofString argument with
    | .word "build" => do (← Draft.readAll {} none rest).request
    | .word "help" => .error (readHelp rest)
    | .word name => .error (.refused (.unknownCommand name))
    | .separator => .error (.refused (rest.head?.elim .noCommand .unexpected))
    | .long name value => do
      readLong name value
      read rest
    | .letters text => do
      readLetters text
      read rest

/-! ## Running -/

/-- How a run of the program ends. -/
inductive Outcome where
  | built (report : BuildReport) (output : Path)
  | failed (website : Path) (cause : BuildError)
  | stopped (cause : Stop)

/-- The build that is asked for, by a user with the given home directory. -/
def BuildRequest.builder (request : BuildRequest) (home : Option Path) : Builder :=
  { website := request.website
    output := request.output
    baseUrl := request.baseUrl
    home
    order := if request.parallel then RenderOrder.byDepth else RenderOrder.depthFirst }

/-- Runs the program with its arguments on a disk. -/
def run (home : Option Path) (arguments : List String) (disk : Disk) : Outcome × Disk :=
  match read arguments with
  | .error cause => (.stopped cause, disk)
  | .ok request =>
    match (request.builder home).build disk with
    | (.ok report, disk) => (.built report request.output, disk)
    | (.error cause, disk) => (.failed request.website cause, disk)

namespace Outcome

/-- Nothing is wrong with asking for help, a build may fail, and arguments may be refused. -/
def exitCode : Outcome → UInt32
  | built _ _ => 0
  | failed _ _ => 1
  | stopped (.refused _) => 2
  | stopped _ => 0

/-- The lines that tell of inconsistencies. -/
def warnings : List Inconsistency → List String
  | [] => []
  | problems => "  Warnings:" :: problems.map (fun p => "  ⚠ " ++ p.message) ++ [""]

/-- What is printed as help. -/
def helpLines : List String :=
  ["A static site builder", "",
    "Usage: staticsite [-v]... build [-v]... [--output DIRECTORY] [--parallel] --base-url URL [WEBSITE]",
    "", "Options:",
    "  -o, --output DIRECTORY  Output directory [default: public]",
    "  -b, --base-url URL      URL the site is published at (e.g., https://example.com)",
    "      --parallel          Render sibling pages in parallel",
    "  -v, --verbose           Increase verbosity",
    "  -h, --help              Print help",
    "  -V, --version           Print version"]

/-- The lines that are printed, for a run that took a time. -/
def lines (duration : String) : Outcome → List String
  | built report output =>
    ["", "  Build completed successfully!", "",
      "  Pages:       " ++ toString report.pages,
      "  Aliases:     " ++ toString report.aliases,
      "  Resources:   " ++ toString report.resources,
      "  Stylesheets: " ++ toString report.stylesheets, ""] ++
    warnings report.inconsistencies ++
    ["  Duration:    " ++ duration, "  Output:      " ++ output.text, ""]
  | failed _ _ => []
  | stopped .help => helpLines
  | stopped .version => ["staticsite 0.1.0"]
  | stopped (.refused _) => []

/-- What is printed when something is wrong. -/
def complaint : Outcome → Option String
  | failed website cause => some ("Failed to build " ++ website.text ++ ": " ++ cause.message)
  | stopped (.refused cause) => some ("error: " ++ cause.message)
  | _ => none

end Outcome

end StaticSite.CommandLine
