import Calculator.Proofs.Expression.Reciprocal

/-!
# Records of leading reciprocals

With a leading `1/` an expression is evaluated behind its remainder: the records of the remainder
come first, whether it has a value or not, and then those of the expression itself. If the `1/` is
expanded, the new text is the decimal of a finite double, which differs from the old one and is
always cut and put in order. So along a chain of `1/` each remainder is evaluated once, the
innermost one first, and leaves at most four records of its own.
-/

namespace Calculator

namespace Double

variable {x : Float}

theorem slash_notMem_plain (hx : x.isFinite = true) : '/' ∉ plain x := by
  intro h
  have hnumeral : ∀ c ∈ numeralCharacters, c ≠ '/' := forall_mem_numeralCharacters (by decide)
  rcases mem_plain hx _ h with hminus | hc
  · exact absurd hminus (by decide)
  · exact hnumeral _ hc rfl

/-- The decimal of a finite double is a number, or the negation of one. -/
theorem exists_scan_plain (hx : x.isFinite = true) (constants : Bool) :
    ∃ f : Derivation .factor, Token.scan constants (plain x) = .ok f.tokens := by
  let d := shortest (magnitude x)
  have hchars : ∀ c ∈ d.plain, c ∈ numeralCharacters := fun c =>
    Decimal.mem_numeralCharacters_of_mem_plain
  rw [plain_eq hx]
  cases isNegative x with
  | false =>
    refine ⟨.single (.number d.plain), ?_⟩
    rw [if_neg Bool.false_ne_true, List.nil_append]
    exact Token.scan_numeral d.plain_ne_nil hchars constants
  | true =>
    refine ⟨.negation (.single (.number d.plain)), ?_⟩
    rw [if_pos rfl, List.singleton_append]
    exact Token.scan_minus_numeral d.plain_ne_nil hchars constants

end Double

/-- Why a leading `1/` is kept, by the outcome of what follows it. -/
def keptReason? : Except Fault Float → Option Kept
  | .error fault => some (.failed fault)
  | .ok value =>
    if (Arithmetic.reciprocal value).isFinite then none
    else some (.notFinite (Arithmetic.reciprocal value))

theorem isSome_keptReason? (outcome : Except Fault Float) :
    (keptReason? outcome).isSome ↔ ∀ value, outcome = .ok value →
      (Arithmetic.reciprocal value).isInf = true ∨ (Arithmetic.reciprocal value).isNaN = true := by
  cases outcome with
  | error fault => exact iff_of_true rfl nofun
  | ok value =>
    have hreason : (keptReason? (.ok value)).isSome ↔
        (Arithmetic.reciprocal value).isFinite = false := by
      simp only [keptReason?]
      split
      · next hf => simp [hf]
      · next hf => simpa using hf
    rw [hreason, Double.isFinite_eq_false_iff]
    constructor
    · intro h v hv
      exact Except.ok.inj hv ▸ h
    · exact fun h => h value rfl

theorem exists_of_keptReason?_eq_none {outcome : Except Fault Float}
    (h : keptReason? outcome = none) :
    ∃ value, outcome = .ok value ∧ (Arithmetic.reciprocal value).isFinite = true := by
  cases outcome with
  | error fault => cases h
  | ok value =>
    refine ⟨value, rfl, ?_⟩
    by_contra hf
    rw [keptReason?, if_neg hf] at h
    cases h

theorem records_reciprocalText (text : Text) (remainder : Evaluated) :
    (reciprocalText text (some remainder)).records =
      remainder.records ++ ((keptReason? remainder.value).map (Record.kept text)).toList := by
  obtain ⟨records, outcome⟩ := remainder
  cases outcome with
  | error fault => rfl
  | ok value =>
    unfold reciprocalText keptReason?
    dsimp only
    split
    · exact (List.append_nil records).symm
    · rfl

theorem value_reciprocalText {text : Text} {remainder : Evaluated} {value : Float}
    (hv : remainder.value = .ok value) (hf : (Arithmetic.reciprocal value).isFinite = true) :
    (reciprocalText text (some remainder)).value = Double.plain (Arithmetic.reciprocal value) := by
  obtain ⟨records, outcome⟩ := remainder
  obtain rfl : outcome = .ok value := hv
  simp only [reciprocalText, if_pos hf]

namespace Settings

variable {s : Settings}

/-- The records of an expression with a leading `1/`, without those of its remainder. -/
def ownRecords (s : Settings) (rest : Text) : List Record :=
  let text := '1' :: '/' :: rest
  let prepared := (s.prepare text).value
  ((keptReason? (s.evaluate rest).value).map (Record.kept text)).toList ++
    (preparation text prepared ++ (s.listing prepared).records)

/-- The tokens are recorded once the text is cut, and their postfix order once they have one. -/
theorem records_listing (s : Settings) (prepared : Text) :
    (s.listing prepared).records =
      ((Token.scan (!s.substitution) prepared).toOption.map Record.tokens).toList ++
        (((Token.scan (!s.substitution) prepared).toOption.bind Postfix.ofInfix?).map
          Record.converted).toList := by
  unfold listing
  cases Token.scan (!s.substitution) prepared with
  | error fault => rfl
  | ok ts =>
    change _ = [Record.tokens ts] ++ ((Postfix.ofInfix? ts).map Record.converted).toList
    dsimp only
    cases Postfix.ofInfix? ts <;> rfl

theorem records_compute (s : Settings) (text : Text) (prepared : Logged Text) :
    (s.compute text prepared).records =
      prepared.records ++
        (preparation text prepared.value ++ (s.listing prepared.value).records) := rfl

theorem evaluateRemainder_of_nesting (hs : s.nesting = none) (rest : Text) :
    s.evaluateRemainder rest = some (s.evaluate rest) := by
  rw [evaluateRemainder, deeper, hs]
  rfl

theorem prepare_reciprocal (hs : s.nesting = none) (rest : Text) :
    s.prepare ('1' :: '/' :: rest) =
      (reciprocalText ('1' :: '/' :: rest) (some (s.evaluate rest))).map s.tidy := by
  rw [← evaluateRemainder_of_nesting hs rest]
  rfl

/-- The records of the remainder come first, and none of them twice. -/
theorem records_evaluate_cons (hs : s.nesting = none) (rest : Text) :
    (s.evaluate ('1' :: '/' :: rest)).records = (s.evaluate rest).records ++ s.ownRecords rest := by
  have hprepare : (s.prepare ('1' :: '/' :: rest)).records = (s.evaluate rest).records ++
      ((keptReason? (s.evaluate rest).value).map
        (Record.kept ('1' :: '/' :: rest))).toList := by
    rw [prepare_reciprocal hs, Logged.records_map, records_reciprocalText]
  rw [evaluate_eq, records_compute, hprepare, List.append_assoc]
  rfl

/-- An expanded `1/` leaves a text that is cut and put in order. -/
theorem ownRecords_of_expanded (hs : s.nesting = none) {rest : Text}
    (hkept : keptReason? (s.evaluate rest).value = none) :
    ∃ ts ordered, s.ownRecords rest =
      [.prepared ('1' :: '/' :: rest) (s.prepare ('1' :: '/' :: rest)).value, .tokens ts,
        .converted ordered] := by
  obtain ⟨value, hv, hf⟩ := exists_of_keptReason?_eq_none hkept
  let decimal := Double.plain (Arithmetic.reciprocal value)
  have hprepared : (s.prepare ('1' :: '/' :: rest)).value = decimal := by
    rw [prepare_reciprocal hs, Logged.value_map, value_reciprocalText hv hf]
    exact s.tidy_eq_self (Double.mem_plain hf)
  have hchanged : decimal ≠ '1' :: '/' :: rest := by
    intro h
    apply Double.slash_notMem_plain hf
    change '/' ∈ decimal
    rw [h]
    exact List.mem_cons_of_mem _ List.mem_cons_self
  obtain ⟨f, hscan⟩ := Double.exists_scan_plain hf (!s.substitution)
  refine ⟨f.tokens, f.postorder, ?_⟩
  unfold ownRecords
  dsimp only
  rw [hkept, hprepared, preparation, if_neg hchanged, records_listing, hscan]
  change _ = [_, _] ++ ((some f.postorder).map Record.converted).toList
  rw [← (Postfix.readsAs_tokens f).ofInfix?_eq]
  rfl

theorem length_preparation_listing (s : Settings) (text prepared : Text) :
    (preparation text prepared ++ (s.listing prepared).records).length ≤ 3 := by
  have hchanged : (preparation text prepared).length ≤ 1 := by
    unfold preparation
    split
    · exact Nat.zero_le 1
    · exact Nat.le_refl 1
  rw [records_listing, List.length_append, List.length_append]
  have hcut : ((Token.scan (!s.substitution) prepared).toOption.map
      Record.tokens).toList.length ≤ 1 := Option.length_toList_le
  have hconverted : (((Token.scan (!s.substitution) prepared).toOption.bind
      Postfix.ofInfix?).map Record.converted).toList.length ≤ 1 := Option.length_toList_le
  omega

theorem length_ownRecords (s : Settings) (rest : Text) : (s.ownRecords rest).length ≤ 4 := by
  have hkept : ((keptReason? (s.evaluate rest).value).map
      (Record.kept ('1' :: '/' :: rest))).toList.length ≤ 1 := Option.length_toList_le
  have hlisting := s.length_preparation_listing ('1' :: '/' :: rest)
    (s.prepare ('1' :: '/' :: rest)).value
  rw [ownRecords, List.length_append]
  omega

theorem length_records_of_remainder?_eq_none {t : Text} (ht : remainder? t = none) :
    (s.evaluate t).records.length ≤ 3 := by
  rw [evaluate_eq, prepare, prepareWith, ht]
  exact s.length_preparation_listing t (s.tidy t)

/-- Along a chain the records follow one another from the innermost remainder outwards. -/
theorem records_evaluate_reciprocals (hs : s.nesting = none) (t : Text) (k : Nat) :
    (s.evaluate (t.reciprocals k)).records = (s.evaluate t).records ++
      (List.range k).flatMap fun i => s.ownRecords (t.reciprocals i) := by
  induction k with
  | zero => exact (List.append_nil _).symm
  | succ k ih =>
    rw [Text.reciprocals, records_evaluate_cons hs, ih, List.range_succ, List.flatMap_append,
      List.flatMap_singleton, List.append_assoc]

theorem length_records_reciprocals (hs : s.nesting = none) {t : Text}
    (ht : remainder? t = none) (k : Nat) :
    (s.evaluate (t.reciprocals k)).records.length ≤ 4 * (k + 1) := by
  induction k with
  | zero =>
    have hle := length_records_of_remainder?_eq_none (s := s) ht
    change (s.evaluate t).records.length ≤ _
    omega
  | succ k ih =>
    have hle := s.length_ownRecords (t.reciprocals k)
    rw [Text.reciprocals, records_evaluate_cons hs, List.length_append]
    omega

/-- Where leading `1/` may be nested without limit, the records of an expression with one are those
of its remainder and then its own: why the `1/` is kept, if the remainder has no value or none with
a finite reciprocal, what the text was changed to, its tokens, if it is cut, and their postfix
order, if they have one. If the `1/` is not kept, none of the last three is missing. The remainders
of a chain of `1/` therefore leave their records one after another, the innermost one first, and
each has at most four. -/
theorem records_leading_reciprocals (hs : s.nesting = none) :
    (∀ rest,
      (s.evaluate ('1' :: '/' :: rest)).records =
        (s.evaluate rest).records ++ s.ownRecords rest ∧
      let text := '1' :: '/' :: rest
      let prepared := (s.prepare text).value
      let cut := (Token.scan (!s.substitution) prepared).toOption
      ∃ kept : Option Kept,
        s.ownRecords rest = (kept.map (Record.kept text)).toList ++
          ((if prepared = text then [] else [.prepared text prepared]) ++
            ((cut.map Record.tokens).toList ++
              ((cut.bind Postfix.ofInfix?).map Record.converted).toList)) ∧
        (kept.isSome ↔ ∀ v, (s.evaluate rest).value = .ok v →
          (Arithmetic.reciprocal v).isInf = true ∨ (Arithmetic.reciprocal v).isNaN = true) ∧
        (kept = none → ∃ ts ordered, s.ownRecords rest =
          [.prepared text prepared, .tokens ts, .converted ordered])) ∧
    (∀ t k, (s.evaluate (t.reciprocals k)).records = (s.evaluate t).records ++
      (List.range k).flatMap fun i => s.ownRecords (t.reciprocals i)) ∧
    ∀ t k, remainder? t = none → (s.evaluate (t.reciprocals k)).records.length ≤ 4 * (k + 1) := by
  refine ⟨fun rest => ⟨records_evaluate_cons hs rest, ?_⟩, records_evaluate_reciprocals hs,
    fun t k ht => length_records_reciprocals hs ht k⟩
  refine ⟨keptReason? (s.evaluate rest).value, ?_, isSome_keptReason? _,
    ownRecords_of_expanded hs⟩
  rw [← records_listing]
  rfl

/-- The inner `1/` of `1/1/0` is kept, and the outer one has the value zero. -/
theorem records_leading_reciprocals_zero :
    let s := standard .native
    let zero := [Token.number ['0', '.', '0']]
    let inner : List Record := [.kept ['1', '/', '0'] (.notFinite Double.infinity),
      .tokens [Token.reciprocal, Token.number ['0']],
      .converted [Token.number ['0'], Token.reciprocal]]
    let outer : List Record := [.prepared ['1', '/', '1', '/', '0'] ['0', '.', '0'], .tokens zero,
      .converted zero]
    (s.evaluate ['1', '/', '1', '/', '0']).records =
        (s.evaluate ['0']).records ++ (inner ++ (outer ++ [])) ∧
      (s.evaluate ['1', '/', '1', '/', '0']).records.length ≤ 12 := by
  intro s zero inner outer
  obtain ⟨-, hchain, hlength⟩ := records_leading_reciprocals (s := s) rfl
  have hinner : s.ownRecords ['0'] = inner := by decide +kernel
  have houter : s.ownRecords ['1', '/', '0'] = outer := by decide +kernel
  refine ⟨?_, hlength ['0'] 2 rfl⟩
  rw [← hinner, ← houter]
  exact hchain ['0'] 2

end Settings
end Calculator
