import Calculator.Token.Basic
import Calculator.Fault

/-!
# Records of an evaluation

Evaluating an expression leaves records of what was done, in order: the tokens, their postfix order,
a text that preparation changed, and a leading reciprocal that was kept as it stood. `Logged α` is a
value with the records made on the way; records stay when a later step fails.
-/

namespace Calculator

/-- Why a leading reciprocal is kept: what follows has no value, its reciprocal is not finite, or
too many of them are nested. -/
inductive Kept
  | failed (fault : Fault)
  | notFinite (value : Float)
  | tooDeep
deriving DecidableEq

inductive Record
  | tokens (ts : List Token)
  | converted (ts : List Token)
  | prepared (expression text : Text)
  | kept (expression : Text) (reason : Kept)
deriving DecidableEq

namespace Record

/-- The part of the calculator that makes the record. -/
def origin : Record → Text
  | .tokens _ => "lexer".toList
  | .converted _ => "converter".toList
  | .prepared _ _ => "evaluator".toList
  | .kept _ _ => "preprocessor".toList

def message : Record → Text
  | .tokens ts => "tokens ".toList ++ Token.spaced ts
  | .converted ts => "postfix ".toList ++ Token.spaced ts
  | .prepared expression text =>
    "preprocessed ".toList ++ Text.quoted expression ++ " to ".toList ++ Text.quoted text
  | .kept expression reason => "keeping ".toList ++ Text.quoted expression ++
    match reason with
    | .failed fault => ", remainder failed: ".toList ++ fault.message
    | .notFinite value => ", reciprocal is ".toList ++ Double.display value
    | .tooDeep => ", too many leading 1/".toList

end Record

structure Logged (α : Type) where
  records : List Record
  value : α

namespace Logged

variable {α β : Type}

def map (f : α → β) (x : Logged α) : Logged β := ⟨x.records, f x.value⟩

/-- The records of the second computation follow those of the first. -/
def bind (x : Logged α) (f : α → Logged β) : Logged β :=
  ⟨x.records ++ (f x.value).records, (f x.value).value⟩

@[simp] theorem records_map (f : α → β) (x : Logged α) : (x.map f).records = x.records := rfl

@[simp] theorem value_map (f : α → β) (x : Logged α) : (x.map f).value = f x.value := rfl

@[simp] theorem records_bind (x : Logged α) (f : α → Logged β) :
    (x.bind f).records = x.records ++ (f x.value).records := rfl

@[simp] theorem value_bind (x : Logged α) (f : α → Logged β) :
    (x.bind f).value = (f x.value).value := rfl

end Logged
end Calculator
