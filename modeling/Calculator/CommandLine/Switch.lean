import Calculator.Text.Digit
import Calculator.Text.Quoted

/-!
# Words of the command line

A switch has a letter and a long name, and takes no operand, one, at most one, or all the words
after it. A word is read as a switch when it is its letter after a dash, with or without something
attached, or an unambiguous beginning of its long name after two dashes. A word without a dash, a
negative number and a word with a space in it are operands; anything else is unknown.
-/

namespace Calculator.CommandLine

inductive Switch
  | help
  | verbose
  | radians
  | substitution
  | precision
  | expression
  | prompt
  | grammar
  | dump
deriving DecidableEq, Repr

/-- How many operands a switch takes. -/
inductive Operands
  | none
  | one
  | optional
  | rest
deriving DecidableEq, Repr

namespace Switch

def all : List Switch :=
  [.help, .verbose, .radians, .substitution, .precision, .expression, .prompt, .grammar, .dump]

def letter : Switch → Char
  | .help => 'h'
  | .verbose => 'v'
  | .radians => 'r'
  | .substitution => 's'
  | .precision => 'k'
  | .expression => 'e'
  | .prompt => 'p'
  | .grammar => 'G'
  | .dump => 'D'

def longName : Switch → Text
  | .help => "help".toList
  | .verbose => "verbose".toList
  | .radians => "radians".toList
  | .substitution => "substitute-constants".toList
  | .precision => "precision".toList
  | .expression => "expression".toList
  | .prompt => "prompt".toList
  | .grammar => "raw-grammar".toList
  | .dump => "dump".toList

def long (s : Switch) : Text := '-' :: '-' :: s.longName

/-- Both spellings, as messages name the switch. -/
def label (s : Switch) : Text := '-' :: s.letter :: '/' :: s.long

def operands : Switch → Operands
  | .precision => .one
  | .expression => .rest
  | .prompt => .optional
  | _ => .none

/-- The switch that may not be given together with this one. -/
def rival? : Switch → Option Switch
  | .expression => some .prompt
  | .prompt => some .expression
  | .grammar => some .dump
  | .dump => some .grammar
  | _ => none

def ofLetter? (c : Char) : Option Switch := all.find? fun s => s.letter == c

end Switch

/-- Why a command line is not understood. -/
inductive Misuse
  | ambiguous (word : Text) (candidates : List Switch)
  | missing (switch : Switch)
  | ignored (switch : Switch) (operand : Text)
  | notInteger (switch : Switch) (operand : Text)
  | conflict (switch rival : Switch)
  | unrecognized (words : List Text)
deriving DecidableEq

namespace Misuse

def about (s : Switch) (complaint : String) : Text :=
  "argument ".toList ++ s.label ++ complaint.toList

def message : Misuse → Text
  | .ambiguous word candidates => "ambiguous option: ".toList ++ word ++ " could match ".toList ++
    [',', ' '].intercalate (candidates.map Switch.long)
  | .missing s => about s ": expected one argument"
  | .ignored s operand => about s ": ignored explicit argument " ++ Text.quoted operand
  | .notInteger s operand => about s ": invalid int value: " ++ Text.quoted operand
  | .conflict s rival => about s ": not allowed with argument " ++ rival.label
  | .unrecognized words => "unrecognized arguments: ".toList ++ Text.spaced words

end Misuse

/-- What a word attaches to a switch: nothing, a text after its letter, or a text after its long
name. -/
inductive Attached
  | nothing
  | toLetter (t : Text)
  | toName (t : Text)
deriving DecidableEq, Repr

inductive Reading
  | operand
  | unknown
  | switch (s : Switch) (attached : Attached)
deriving DecidableEq, Repr

structure Word where
  text : Text
  reading : Reading
deriving DecidableEq, Repr

namespace Word

/-- Digits, possibly with a point before the last of them, and possibly a line feed at the end. -/
def isUnsigned (t : Text) : Bool :=
  let t := if t.getLast? = some '\n' then t.dropLast else t
  match t.dropWhile isDigit with
  | [] => !t.isEmpty
  | '.' :: fraction => !fraction.isEmpty && fraction.all isDigit
  | _ => false

/-- The reading of a word, with a dash in front of `rest`, that names no switch. -/
def readOther (rest : Text) : Reading :=
  if isUnsigned rest || ' ' ∈ rest then .operand else .unknown

/-- A word that starts with two dashes: the beginning of a long name, then a value after an equals
sign. -/
def readLong (rest : Text) : Except Misuse Reading :=
  let name := rest.takeWhile (· ≠ '=')
  let attached := match rest.dropWhile (· ≠ '=') with
    | [] => .nothing
    | _ :: value => .toName value
  match Switch.all.filter fun s => name.isPrefixOf s.longName with
  | [] => .ok (readOther ('-' :: rest))
  | [s] => .ok (.switch s attached)
  | candidates => .error (.ambiguous ('-' :: '-' :: rest) candidates)

/-- A word that starts with one dash and a character that is none. An equals sign after the letter
of a switch only divides. -/
def readShort (c : Char) (rest : Text) : Reading :=
  match Switch.ofLetter? c with
  | none => readOther (c :: rest)
  | some s => .switch s <| match rest with
    | [] => .nothing
    | '=' :: attached => .toLetter attached
    | attached => .toLetter attached

def read (t : Text) : Except Misuse Word :=
  match t with
  | '-' :: '-' :: rest => (readLong rest).map (Word.mk t)
  | '-' :: c :: rest => .ok ⟨t, readShort c rest⟩
  | _ => .ok ⟨t, .operand⟩

end Word
end Calculator.CommandLine
