import Calculator.CommandLine.Switch
import Calculator.Number.Numeral

/-!
# Options

The words before a bare `--` are read first, so that an ambiguous one is reported before anything
else; then they are taken in order. One word can hold several switches without operands, by their
letters, and a last one that has its operand attached or takes the words that follow; the operands
are found before any of these switches is taken. Words that no switch takes are left over, as is
everything from the `--` on, and must not exist.
-/

namespace Calculator.CommandLine

/-- Evaluating expressions, listing their tokens, or printing the grammar of tokens. -/
inductive Task
  | evaluate
  | dump
  | grammar
deriving DecidableEq, Repr

/-- What results are rounded to: nothing, some number of decimal places, or places that were asked
for without a number, to which nothing can be rounded. -/
inductive Precision
  | full
  | places (n : Int)
  | unstated
deriving DecidableEq, Repr

structure Options where
  verbose : Bool
  radians : Bool
  substitution : Bool
  precision : Precision
  expressions : Option (List Text)
  prompt : Option Text
  task : Task
deriving DecidableEq, Repr

/-- Why a command line is not run: it asks for help, or it is misused. -/
inductive Stop
  | help
  | misuse (reason : Misuse)
deriving DecidableEq

/-- The options found so far, the switches that set them, and the words left over. -/
structure Progress where
  options : Options
  used : List Switch
  leftOver : List Text

/-- The switches of one word: those without operands, and the last one with what is attached to
it. -/
structure Bundle where
  flags : List Switch
  last : Switch
  attached : Option Text
deriving DecidableEq, Repr

def defaultPrompt : Text := ['=', ' ']

namespace Options

def initial : Options := ⟨false, false, false, .full, none, none, .evaluate⟩

/-- The precision that the operands of its switch state. -/
def precisionOf : List Text → Except Misuse Precision
  | [] => .ok .unstated
  | operand :: _ =>
    match Numeral.integer? operand with
    | none => .error (.notInteger .precision operand)
    | some n => .ok (.places n)

/-- The options after one more switch with its operands. -/
def set (o : Options) (s : Switch) (operands : List Text) : Except Stop Options :=
  match s with
  | .help => .error .help
  | .verbose => .ok { o with verbose := true }
  | .radians => .ok { o with radians := true }
  | .substitution => .ok { o with substitution := true }
  | .precision =>
    ((precisionOf operands).mapError .misuse).map fun precision => { o with precision := precision }
  | .expression => .ok { o with expressions := some operands }
  | .prompt => .ok { o with prompt := some (operands.headD defaultPrompt) }
  | .grammar => .ok { o with task := .grammar }
  | .dump => .ok { o with task := .dump }

end Options

/-- The switches of a word, given the first one and the text after its letter. The text is the
operand of a switch that takes any; otherwise its first character must be the letter of the next
switch. -/
def unbundle (s : Switch) : Text → Except Misuse Bundle
  | [] => if s.operands = .none then .error (.ignored s []) else .ok ⟨[], s, some []⟩
  | c :: rest =>
    if s.operands ≠ .none then .ok ⟨[], s, some (c :: rest)⟩
    else match Switch.ofLetter? c with
      | none => .error (.ignored s (c :: rest))
      | some next =>
        if rest.isEmpty then .ok ⟨[s], next, none⟩
        else (unbundle next rest).map fun b => { b with flags := s :: b.flags }

def Attached.unbundle (s : Switch) : Attached → Except Misuse Bundle
  | .nothing => .ok ⟨[], s, none⟩
  | .toLetter t => CommandLine.unbundle s t
  | .toName t => if s.operands = .none then .error (.ignored s t) else .ok ⟨[], s, some t⟩

/-- The operands that an attached text is. Two dashes are none, except among expressions. -/
def Switch.operandsIn (s : Switch) (attached : Text) : List Text :=
  if attached = ['-', '-'] ∧ s.operands ≠ .rest then [] else [attached]

/-- The operands that a switch takes from the words behind it, one for each word taken. -/
def Switch.operandsFrom (s : Switch) (words : List Word) : Except Misuse (List Text) :=
  match s.operands, words with
  | .rest, words => .ok (words.map Word.text)
  | .one, ⟨text, .operand⟩ :: _ | .optional, ⟨text, .operand⟩ :: _ => .ok [text]
  | .one, _ => .error (.missing s)
  | _, _ => .ok []

namespace Progress

def initial : Progress := ⟨.initial, [], []⟩

def leave (p : Progress) (t : Text) : Progress := { p with leftOver := p.leftOver ++ [t] }

/-- Takes one switch with its operands, unless its rival was taken before. -/
def take (p : Progress) (s : Switch) (operands : List Text) : Except Stop Progress := do
  let options ← p.options.set s operands
  match s.rival?.filter (· ∈ p.used) with
  | some rival => .error (.misuse (.conflict s rival))
  | none => .ok { p with options := options, used := s :: p.used }

/-- Takes the switches of a word, the last one with its operands. -/
def takeBundle (p : Progress) (b : Bundle) (operands : List Text) : Except Stop Progress := do
  let p ← b.flags.foldlM (fun p s => p.take s []) p
  p.take b.last operands

/-- Takes the words in order. -/
def takeWords (p : Progress) : List Word → Except Stop Progress
  | [] => .ok p
  | ⟨text, .operand⟩ :: rest | ⟨text, .unknown⟩ :: rest => (p.leave text).takeWords rest
  | ⟨_, .switch s attached⟩ :: rest => do
    let b ← (attached.unbundle s).mapError .misuse
    match b.attached with
    | some t => (← p.takeBundle b (b.last.operandsIn t)).takeWords rest
    | none =>
      let operands ← (b.last.operandsFrom rest).mapError .misuse
      (← p.takeBundle b operands).takeWords (rest.drop operands.length)
termination_by words => words.length
decreasing_by all_goals simp only [List.length_cons, List.length_drop]; omega

end Progress

/-- The options that the words of a command line set. -/
def Options.ofWords (words : List Text) : Except Stop Options := do
  let before := words.takeWhile (· ≠ ['-', '-'])
  let after := words.dropWhile (· ≠ ['-', '-'])
  let read ← (before.mapM Word.read).mapError .misuse
  let p ← Progress.initial.takeWords read
  match p.leftOver ++ after with
  | [] => .ok p.options
  | leftOver => .error (.misuse (.unrecognized leftOver))

end Calculator.CommandLine
