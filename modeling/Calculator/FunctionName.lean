import Calculator.Text.Basic

/-!
# Function names

The functions of the calculator, each with the name by which expressions call it.
-/

namespace Calculator

inductive FunctionName
  | sin
  | cos
  | tan
  | log
  | ln
  | sqrt
  | asin
  | acos
  | atan
  | fact
deriving DecidableEq, Repr

namespace FunctionName

def all : List FunctionName :=
  [.sin, .cos, .tan, .log, .ln, .sqrt, .asin, .acos, .atan, .fact]

theorem mem_all (f : FunctionName) : f ∈ all := by
  cases f <;> simp [all]

def name : FunctionName → Text
  | .sin => "sin".toList
  | .cos => "cos".toList
  | .tan => "tan".toList
  | .log => "log".toList
  | .ln => "ln".toList
  | .sqrt => "sqrt".toList
  | .asin => "asin".toList
  | .acos => "acos".toList
  | .atan => "atan".toList
  | .fact => "fact".toList

/-- The function with a given name. -/
def ofName? (name : Text) : Option FunctionName := all.find? fun f => f.name == name

@[simp] theorem ofName?_name (f : FunctionName) : ofName? f.name = some f := by
  cases f <;> rfl

theorem name_of_ofName? {name : Text} {f : FunctionName} (h : ofName? name = some f) :
    f.name = name := by
  simpa using List.find?_some h

/-- A name belongs to at most one function. -/
theorem ofName?_eq_some_iff {name : Text} {f : FunctionName} :
    ofName? name = some f ↔ name = f.name :=
  ⟨fun h => (name_of_ofName? h).symm, fun h => h ▸ ofName?_name f⟩

end FunctionName
end Calculator
