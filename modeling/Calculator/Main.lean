import Calculator.CommandLine.Session

/-!
# The program

Reads the words of the command line, the standard input or the lines typed at a prompt, and writes
what the session answers.
-/

namespace Calculator.CommandLine

def writeLines (stream : IO.FS.Stream) (lines : List Text) : IO Unit :=
  lines.forM fun line => stream.putStrLn (String.ofList line)

/-- Writes a transcript and gives the exit status. -/
def write (t : Transcript) : IO UInt32 := do
  writeLines (← IO.getStdout) t.output
  writeLines (← IO.getStderr) t.errors
  match t.ending with
  | .exit status => return status.toUInt32
  | .unrounded reason =>
    writeLines (← IO.getStderr) [reason.message]
    return 1

/-- Answers lines as they are typed, until one cannot be answered or the input ends. -/
partial def converse (o : Options) (prompt : String) : IO UInt32 := do
  let output ← IO.getStdout
  output.putStr prompt
  output.flush
  let line ← (← IO.getStdin).getLine
  if line.isEmpty then return 0
  let answers := o.answer .native (.exit 0) ([line.toList].filterMap expression?)
  let status ← write answers
  if answers.ending = .exit 0 then converse o prompt else return status

end Calculator.CommandLine

open Calculator CommandLine in
def main (args : List String) : IO UInt32 := do
  let words := args.map String.toList
  let stdin ← IO.getStdin
  let terminal := (← stdin.isTty) && (← (← IO.getStdout).isTty)
  let nobody : Surroundings := ⟨[], [], false, terminal⟩
  match Options.ofWords words with
  | .error _ => write (run .native words nobody)
  | .ok o =>
    if o.expressions.isSome || o.task == .grammar then write (run .native words nobody)
    else if o.prompts nobody then
      writeLines (← IO.getStdout) o.heading
      converse o (String.ofList ((o.prompt.filter (!·.isEmpty)).getD defaultPrompt))
    else write (run .native words { nobody with input := (← stdin.readToEnd).toList })
