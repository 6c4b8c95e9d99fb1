import Mathlib.Data.List.Chain
import Calculator.Text.Digit
import Calculator.Text.Letter
import Calculator.Text.Quoted

/-!
# Texts that print

A text prints if all its characters are printable; no line break is, so such a text stands on one
line. Letters and digits are printable since their ranges lie within printable ones, and a quoted
text prints whatever it quotes.
-/

namespace Calculator

/-- Every range of the first union lies within a single range of the second one. Ranges of the
second one that end before the range at hand begins are done with. -/
def withinRanges : List (Nat × Nat) → List (Nat × Nat) → Bool
  | [], _ => true
  | (lo, hi) :: rest, ranges =>
    let later := ranges.dropWhile fun r => decide (r.2 < lo)
    later.head?.any (fun r => decide (r.1 ≤ lo ∧ hi ≤ r.2)) && withinRanges rest later

theorem inRanges_of_mem {ranges : List (Nat × Nat)} {r : Nat × Nat} {n : Nat}
    (h : ranges.IsChain fun r s => r.1 ≤ s.1) (hr : r ∈ ranges) (hlo : r.1 ≤ n) (hhi : n ≤ r.2) :
    inRanges ranges n = true := by
  replace h := List.isChain_iff_pairwise.1 h
  induction ranges with
  | nil => cases hr
  | cons q rest ih =>
    obtain ⟨hq, hrest⟩ := List.pairwise_cons.1 h
    rcases List.mem_cons.1 hr with rfl | hr
    · simp [inRanges, hlo, hhi]
    · have hle : q.1 ≤ n := Nat.le_trans (hq r hr) hlo
      simp [inRanges, hle, ih hr hrest]

theorem exists_mem_of_withinRanges {first second : List (Nat × Nat)} {n : Nat}
    (h : withinRanges first second = true) (hn : inRanges first n = true) :
    ∃ r ∈ second, r.1 ≤ n ∧ n ≤ r.2 := by
  induction first generalizing second with
  | nil => cases hn
  | cons q rest ih =>
    simp only [inRanges, Bool.and_eq_true, Bool.or_eq_true, decide_eq_true_eq] at hn
    simp only [withinRanges, Bool.and_eq_true] at h
    have hmem : ∀ r ∈ second.dropWhile fun r => decide (r.2 < q.1), r ∈ second :=
      fun r hr => (List.dropWhile_sublist _).mem hr
    obtain ⟨hlo, hhi | hrest⟩ := hn
    · cases hd : second.dropWhile fun r => decide (r.2 < q.1) with
      | nil => simp [hd] at h
      | cons r later =>
        rw [hd] at h hmem
        have hr : r.1 ≤ q.1 ∧ q.2 ≤ r.2 := of_decide_eq_true h.1
        exact ⟨r, hmem r List.mem_cons_self, by omega, by omega⟩
    · obtain ⟨r, hr, hrange⟩ := ih h.2 hrest
      exact ⟨r, hmem r hr, hrange⟩

theorem isPrintable_of_withinRanges {ranges : List (Nat × Nat)} {c : Char}
    (h : withinRanges ranges printableRanges = true) (hc : inRanges ranges c.toNat = true) :
    isPrintable c = true := by
  have hchain : printableRanges.IsChain fun r s => r.1 ≤ s.1 := by decide +kernel
  obtain ⟨r, hr, hlo, hhi⟩ := exists_mem_of_withinRanges h hc
  exact inRanges_of_mem hchain hr hlo hhi

theorem isPrintable_of_isLetter {c : Char} (h : isLetter c = true) : isPrintable c = true :=
  isPrintable_of_withinRanges (by decide +kernel) h

theorem isPrintable_of_isDigit {c : Char} (h : isDigit c = true) : isPrintable c = true :=
  isPrintable_of_withinRanges (by decide +kernel) h

namespace Text

/-- Every character is printable. -/
def Prints (t : Text) : Prop := ∀ c ∈ t, isPrintable c = true

instance (t : Text) : Decidable t.Prints :=
  decidable_of_iff (t.all isPrintable = true) List.all_eq_true

variable {t u : Text} {c : Char}

theorem prints_nil : Prints [] := List.forall_mem_nil _

theorem prints_cons : Prints (c :: t) ↔ isPrintable c = true ∧ t.Prints := List.forall_mem_cons

theorem prints_append : Prints (t ++ u) ↔ t.Prints ∧ u.Prints := List.forall_mem_append

theorem prints_replicate (n : Nat) (hc : isPrintable c = true) : Prints (List.replicate n c) :=
  fun _ hd => List.eq_of_mem_replicate hd ▸ hc

theorem prints_toDigits {base : Nat} (hbase : 1 < base) (hle : base ≤ 16) (n : Nat) :
    Prints (Nat.toDigits base n) := by
  have hdigit : ∀ d < 16, isPrintable (Nat.digitChar d) = true := by decide +kernel
  induction n using Nat.strongRecOn with
  | ind n ih =>
    rw [Nat.toDigits_eq_if hbase]
    split
    · next hn => exact prints_cons.2 ⟨hdigit n (by omega), prints_nil⟩
    · next hn =>
      have hlt : n / base < n := Nat.div_lt_self (by omega) hbase
      have hmod : n % base < base := Nat.mod_lt n (by omega)
      exact prints_append.2 ⟨ih _ hlt, prints_cons.2 ⟨hdigit _ (by omega), prints_nil⟩⟩

theorem prints_hexadecimal (width n : Nat) : Prints (hexadecimal width n) := by
  refine prints_append.2 ⟨prints_replicate _ (by decide +kernel), ?_⟩
  exact prints_toDigits (by decide) (by decide) n

theorem prints_escape {quote : Char} (hquote : isPrintable quote = true) (c : Char) :
    Prints (escape quote c) := by
  have hslash : isPrintable '\\' = true := by decide +kernel
  unfold escape
  split_ifs with hself hfeed hreturn htab hprint
  · rcases hself with rfl | rfl
    · exact prints_cons.2 ⟨hslash, prints_cons.2 ⟨hquote, prints_nil⟩⟩
    · exact prints_cons.2 ⟨hslash, prints_cons.2 ⟨hslash, prints_nil⟩⟩
  · decide +kernel
  · decide +kernel
  · decide +kernel
  · exact prints_cons.2 ⟨hprint, prints_nil⟩
  all_goals
    exact prints_cons.2 ⟨hslash, prints_cons.2 ⟨by decide +kernel, prints_hexadecimal _ _⟩⟩

theorem isPrintable_quote (t : Text) : isPrintable (quote t) = true := by
  unfold quote
  split
  · decide +kernel
  · decide +kernel

theorem prints_quoted (t : Text) : Prints (quoted t) := by
  have hquote := isPrintable_quote t
  refine prints_append.2 ⟨prints_cons.2 ⟨hquote, ?_⟩, prints_cons.2 ⟨hquote, prints_nil⟩⟩
  intro c hc
  obtain ⟨d, -, hd⟩ := List.mem_flatMap.1 hc
  exact prints_escape hquote d c hd

end Text
end Calculator
