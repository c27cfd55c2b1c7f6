/-
The command line without its surroundings: what is written, and with which exit
code, for given options, pattern and input.
-/
import TextGrammar.Types.Registry

namespace TextGrammar

/-- Options of the command. -/
structure Options where
  /-- The pattern has to match the whole input. -/
  whole : Bool := false
  /-- The first match anywhere in the input is looked for. -/
  find : Bool := false
  /-- Values of nodes with a type are shown. -/
  values : Bool := false

/-- What the command writes and ends with. -/
structure Output where
  exit : Nat
  stdout : String
  stderr : String
  deriving DecidableEq

namespace Options

/-- Sets the option a letter stands for. -/
def setLetter (options : Options) : Char → Option Options
  | 'w' => some { options with whole := true }
  | 'f' => some { options with find := true }
  | 'v' => some { options with values := true }
  | _ => none

def setLetters (options : Options) : List Char → Option Options
  | [] => some options
  | c :: cs => do setLetters (← options.setLetter c) cs

/-- Sets the options of one argument, which is a word or several letters. -/
def setFlag (options : Options) (flag : String) : Option Options :=
  match flag with
  | "--whole" => some { options with whole := true }
  | "--find" => some { options with find := true }
  | "--values" => some { options with values := true }
  | _ =>
    match flag.toList with
    | '-' :: letters => if letters.isEmpty then none else options.setLetters letters
    | _ => none

/-- The options of some arguments. Matching the whole input and looking for a match exclude each
other. -/
def ofFlags (flags : List String) : Option Options := do
  let options ← flags.foldlM setFlag {}
  if options.whole && options.find then none else some options

end Options

namespace Command

/-- A line for every value, up to the first error, and what was reported. -/
def valueLines (find? : String → Option ParserType) :
    List NodeRef → Report → String × Except GrammarError Report
  | [], report => ("", .ok report)
  | ref :: refs, report =>
    match ref.value find? report with
    | (.error error, _) => ("", .error error)
    | (.ok value, report) =>
      let (others, result) := valueLines find? refs report
      let line := toString ref.node.start ++ ".." ++ toString ref.node.stop ++ " "
        ++ ref.node.typeName.getD "" ++ ": " ++ value.describe ++ "\n"
      (line ++ others, result)

/-- Each error in a line. -/
def errorLines (errors : List GrammarError) : String :=
  String.join (errors.map fun error => error.message ++ "\n")

/-- The output for a match. -/
def showTree (options : Options) (registry : TypeRegistry) (tree : MatchTree) : Output :=
  if options.values then
    let typed := tree.rootRef.descendants.filter (·.node.typeName.isSome)
    match valueLines registry.find? typed {} with
    | (lines, .ok report) => ⟨0, tree.outline ++ lines, errorLines report.errors⟩
    | (lines, .error error) => ⟨2, tree.outline ++ lines, error.message ++ "\n"⟩
  else ⟨0, tree.outline, ""⟩

/-- Why a search ended without a match. -/
def stopMessage : Stop → String
  | .refused error => error.message
  | .fault _ => "The search was given up"

/-- The command on an input, of which an error says why it cannot be read. The pattern is compiled
first. -/
def run (options : Options) (pattern : String) (input : Except String String) : Output :=
  let registry := TypeRegistry.standard
  match registry.compile pattern with
  | .error error => ⟨2, "", "Failed to compile pattern: " ++ error.message ++ "\n"⟩
  | .ok g =>
    match input with
    | .error reason => ⟨2, "", reason ++ "\n"⟩
    | .ok input =>
      let text := Text.ofString input
      let (result, registry) :=
        if options.whole then registry.matchWhole g text
        else if options.find then registry.find g text
        else registry.parse g text
      match result with
      | .ok tree => showTree options registry tree
      | .error stop => ⟨1, "", stopMessage stop ++ "\n"⟩

/-- The reason given for an input file that is not there. -/
def missingFile (name : String) : String :=
  "Failed to read " ++ name ++ ": No such file or directory (os error 2)"

end Command

end TextGrammar
