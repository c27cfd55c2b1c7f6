/-
The command line: reads arguments and input, runs the command, writes its output.
-/
import TextGrammar.Command

open TextGrammar

/-- The arguments before a pattern, the pattern, and the file after it. Two hyphens end the
options. -/
def splitArguments : List String → List String × List String
  | [] => ([], [])
  | "--" :: args => ([], args)
  | arg :: args =>
    let (flags, others) := splitArguments args
    if arg.startsWith "-" && arg != "-" then (arg :: flags, others) else (flags, arg :: others)

/-- The input of the command: a file, or else what is typed in. -/
def readInput (file : Option String) : IO (Except String String) := do
  match file with
  | none => return .ok (← (← IO.getStdin).readToEnd)
  | some name =>
    try
      return .ok (← IO.FS.readFile name)
    catch _ =>
      return .error (Command.missingFile name)

def main (args : List String) : IO UInt32 := do
  let (flags, others) := splitArguments args
  let usage : IO UInt32 := do
    IO.eprintln "usage: [-w | -f] [-v] PATTERN [FILE]"
    return 2
  match Options.ofFlags flags, others with
  | some options, pattern :: files =>
    match files with
    | _ :: _ :: _ => usage
    | _ =>
      let output := Command.run options pattern (← readInput files.head?)
      IO.print output.stdout
      IO.eprint output.stderr
      return output.exit.toUInt32
  | _, _ => usage
