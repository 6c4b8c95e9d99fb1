/-!
# Texts and unions of character ranges

A text is a list of characters, so that every reader and printer of the calculator is an ordinary
list function. A character class is a list of closed ranges of code points in ascending order;
`inRanges` stops at the first range that lies above the code point it looks for.
-/

namespace Calculator

abbrev Text := List Char

/-- Membership in a union of closed ranges that are listed in ascending order. -/
def inRanges : List (Nat × Nat) → Nat → Bool
  | [], _ => false
  | (lo, hi) :: rest, n => decide (lo ≤ n) && (decide (n ≤ hi) || inRanges rest n)

namespace Text

/-- The words with one space between neighbours. -/
def spaced (words : List Text) : Text := [' '].intercalate words

/-- Drops the characters of a class at both ends. -/
def trim (p : Char → Bool) (t : Text) : Text :=
  ((t.dropWhile p).reverse.dropWhile p).reverse

/-- The pieces between separators, one more than there are separators. -/
def pieces (separates : Char → Bool) : Text → List Text
  | [] => [[]]
  | c :: rest =>
    if separates c then [] :: pieces separates rest
    else (pieces separates rest).modifyHead (c :: ·)

@[simp] theorem pieces_nil (p : Char → Bool) : pieces p [] = [[]] := rfl

theorem pieces_ne_nil (p : Char → Bool) (t : Text) : pieces p t ≠ [] := by
  induction t with
  | nil => simp
  | cons c rest ih =>
    unfold pieces
    split
    · simp
    · cases h : pieces p rest with
      | nil => exact absurd h ih
      | cons l ls => simp

/-- A text without separators is its own only piece. -/
theorem pieces_eq_singleton {p : Char → Bool} {t : Text} (h : ∀ c ∈ t, p c = false) :
    pieces p t = [t] := by
  induction t with
  | nil => rfl
  | cons c rest ih =>
    have hc : p c = false := h c List.mem_cons_self
    have hr := ih fun d hd => h d (List.mem_cons_of_mem c hd)
    simp [pieces, hc, hr]

end Text
end Calculator
