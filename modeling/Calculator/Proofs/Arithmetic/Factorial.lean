import Calculator.Proofs.Number.Product
import Calculator.Proofs.Postfix.Refusal

/-!
# Factorials as plain products

The loop of a factorial stops at the first infinite product. All products are at least one, so an
infinite one is positive infinity, which every further factor leaves as it is: the loop has the same
value as the plain product. The product of the numbers up to 171 is infinite, and a loop that has
not stopped before it stops there, after at most 170 factors.
-/

namespace Calculator

open Double

variable {acc x : Float} {next : Nat}

end Calculator
