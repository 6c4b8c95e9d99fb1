import Mathlib.Data.List.TakeWhile
import Calculator.CommandLine.Options
import Calculator.Proofs.Outcome

/-!
# Words of a command line, in two parts

The words before the lines of expressions can be taken first, and the rest from where they leave
off, as long as no expression switch among them takes what follows. Such a switch behind them takes
every word that is left as a line, whatever the word looks like, unless two dashes start it.
-/

namespace Calculator.CommandLine

open Outcome

variable {p q : Progress} {s s' : Switch} {b : Bundle} {w : Word} {attached : Attached}
variable {front words rest : List Word} {operands lines : List Text} {o : Options}

theorem eq_ok_of_mapError {ε ε' α : Type} {x : Except ε α} {f : ε → ε'} {v : α}
    (h : x.mapError f = .ok v) : x = .ok v := by
  cases x with
  | error e => cases h
  | ok u => exact congrArg Except.ok (Except.ok.inj h)

/-- Only the expression switch takes all words behind it. -/
theorem Switch.eq_expression_of_operands (h : s.operands = .rest) : s = .expression := by
  cases s with
  | expression => rfl
  | help | verbose | radians | substitution | precision | prompt | grammar | dump => cases h

/-- A switch that does not take all words behind it looks no further than the next switch. -/
theorem Switch.operandsFrom_append (hs : s.operands ≠ .rest)
    (hw : w.reading = .switch s' attached) (h : s.operandsFrom words = .ok operands)
    (rest : List Word) :
    s.operandsFrom (words ++ w :: rest) = .ok operands ∧
      (words ++ w :: rest).drop operands.length = words.drop operands.length ++ w :: rest := by
  obtain ⟨text, reading⟩ := w
  obtain rfl : reading = .switch s' attached := hw
  unfold operandsFrom at h ⊢
  cases hoperands : s.operands with
  | rest => exact absurd hoperands hs
  | none =>
    simp only [hoperands] at h ⊢
    obtain rfl := Except.ok.inj h
    exact ⟨rfl, rfl⟩
  | one =>
    simp only [hoperands] at h
    match words, h with
    | ⟨text', .operand⟩ :: tail, h =>
      obtain rfl := Except.ok.inj h
      exact ⟨rfl, rfl⟩
  | optional =>
    simp only [hoperands] at h
    match words, h with
    | [], h =>
      obtain rfl := Except.ok.inj h
      exact ⟨rfl, rfl⟩
    | ⟨text', .operand⟩ :: tail, h =>
      obtain rfl := Except.ok.inj h
      exact ⟨rfl, rfl⟩
    | ⟨text', .unknown⟩ :: tail, h | ⟨text', .switch _ _⟩ :: tail, h =>
      obtain rfl := Except.ok.inj h
      exact ⟨rfl, rfl⟩

namespace Progress

theorem takeWords_switch (p : Progress) (text : Text) (s : Switch) (attached : Attached)
    (rest : List Word) :
    p.takeWords (⟨text, .switch s attached⟩ :: rest) =
      ((attached.unbundle s).mapError .misuse).bind fun b =>
        match b.attached with
        | some t => (p.takeBundle b (b.last.operandsIn t)).bind fun p => p.takeWords rest
        | none => ((b.last.operandsFrom rest).mapError .misuse).bind fun operands =>
            (p.takeBundle b operands).bind fun p =>
              p.takeWords (rest.drop operands.length) := by
  rw [takeWords]
  rfl

theorem exists_of_take (h : p.take s operands = .ok q) :
    ∃ options, p.options.set s operands = .ok options ∧
      q = { p with options := options, used := s :: p.used } := by
  obtain ⟨options, hoptions, hrest⟩ := exists_of_bind_eq_ok h
  refine ⟨options, hoptions, ?_⟩
  split at hrest
  · cases hrest
  · exact (Except.ok.inj hrest).symm

theorem expressions_of_takeBundle (hlast : b.last = .expression)
    (h : p.takeBundle b operands = .ok q) : q.options.expressions = some operands := by
  obtain ⟨p', -, htake⟩ := exists_of_bind_eq_ok h
  obtain ⟨options, hset, rfl⟩ := exists_of_take htake
  rw [hlast] at hset
  obtain rfl := Except.ok.inj hset
  rfl

section Induction

variable {motive : Progress → Prop}
variable (take : ∀ p s operands q, motive p → p.take s operands = .ok q → motive q)
include take

theorem takeFlags_induction {flags : List Switch} (hp : motive p)
    (h : flags.foldlM (fun p s => p.take s []) p = .ok q) : motive q := by
  induction flags generalizing p with
  | nil =>
    obtain rfl := Except.ok.inj h
    exact hp
  | cons s flags ih =>
    rw [List.foldlM_cons] at h
    obtain ⟨p', htake, hrest⟩ := exists_of_bind_eq_ok h
    exact ih (take p s [] p' hp htake) hrest

theorem takeBundle_induction (hp : motive p) (h : p.takeBundle b operands = .ok q) :
    motive q := by
  obtain ⟨p', hflags, hlast⟩ := exists_of_bind_eq_ok h
  exact take p' b.last operands q (takeFlags_induction take hp hflags) hlast

/-- What taking a switch keeps, and leaving a word over, is kept by all words together. -/
theorem takeWords_induction (leave : ∀ p text, motive p → motive (p.leave text)) (hp : motive p)
    (h : p.takeWords words = .ok q) : motive q := by
  induction p, words using takeWords.induct with
  | case1 p =>
    rw [takeWords] at h
    obtain rfl := Except.ok.inj h
    exact hp
  | case2 p text rest ih | case3 p text rest ih =>
    rw [takeWords] at h
    exact ih (leave p text hp) h
  | case4 p text s attached rest ihrest ihdrop =>
    rw [takeWords_switch] at h
    obtain ⟨b, -, hb⟩ := exists_of_bind_eq_ok h
    split at hb
    · obtain ⟨p', htake, hp'⟩ := exists_of_bind_eq_ok hb
      exact ihrest p' (takeBundle_induction take hp htake) hp'
    · obtain ⟨operands, -, hoperands⟩ := exists_of_bind_eq_ok hb
      obtain ⟨p', htake, hp'⟩ := exists_of_bind_eq_ok hoperands
      exact ihdrop operands p' (takeBundle_induction take hp htake) hp'

end Induction

/-- A prompt switch that was taken has set the prompt. -/
theorem prompt_not_mem_used (h : initial.takeWords words = .ok q) (hq : q.options.prompt = none) :
    Switch.prompt ∉ q.used := by
  have hkept : Switch.prompt ∈ q.used → q.options.prompt ≠ none := by
    refine takeWords_induction ?_ ?_ ?_ h (motive := fun p =>
      Switch.prompt ∈ p.used → p.options.prompt ≠ none)
    · intro p s operands q hp htake hused
      obtain ⟨options, hset, rfl⟩ := exists_of_take htake
      cases s with
      | prompt =>
        obtain rfl := Except.ok.inj hset
        exact Option.some_ne_none _
      | help => cases hset
      | precision =>
        cases hprecision : Options.precisionOf operands with
        | error m => simp [Options.set, hprecision, Except.mapError, Except.map] at hset
        | ok precision =>
          simp only [Options.set, hprecision, Except.mapError, Except.map] at hset
          obtain rfl := Except.ok.inj hset
          exact hp ((List.mem_cons.1 hused).resolve_left Switch.noConfusion)
      | verbose | radians | substitution | expression | grammar | dump =>
        obtain rfl := Except.ok.inj hset
        exact hp ((List.mem_cons.1 hused).resolve_left Switch.noConfusion)
    · exact fun p text hp => hp
    · exact fun hused => nomatch hused
  exact fun hused => hkept hused hq

/-- Words that leave no expressions behind can be taken first, if a switch follows them. -/
theorem takeWords_append (hw : w.reading = .switch s attached) (h : p.takeWords words = .ok q)
    (hq : q.options.expressions = none) (rest : List Word) :
    p.takeWords (words ++ w :: rest) = q.takeWords (w :: rest) := by
  induction p, words using takeWords.induct with
  | case1 p =>
    rw [takeWords] at h
    obtain rfl := Except.ok.inj h
    rfl
  | case2 p text tail ih | case3 p text tail ih =>
    rw [takeWords] at h
    rw [List.cons_append, takeWords]
    exact ih h
  | case4 p text s' attached' tail ihrest ihdrop =>
    rw [takeWords_switch] at h
    rw [List.cons_append, takeWords_switch]
    obtain ⟨b, hbundle, hb⟩ := exists_of_bind_eq_ok h
    rw [hbundle]
    change (match b.attached with | some t => _ | none => _) = _
    cases hattached : b.attached with
    | some t =>
      rw [hattached] at hb
      obtain ⟨p', htake, hp'⟩ := exists_of_bind_eq_ok hb
      dsimp only
      rw [htake]
      exact ihrest p' hp'
    | none =>
      rw [hattached] at hb
      obtain ⟨operands, hoperands, hrest⟩ := exists_of_bind_eq_ok hb
      obtain ⟨p', htake, hp'⟩ := exists_of_bind_eq_ok hrest
      have hoperands := eq_ok_of_mapError hoperands
      dsimp only
      by_cases hlast : b.last.operands = .rest
      · -- The expressions would have been set by the words before.
        have hnil : tail.drop operands.length = [] := by
          simp only [Switch.operandsFrom, hlast, Except.ok.injEq] at hoperands
          rw [← hoperands, List.length_map, List.drop_length]
        rw [hnil, takeWords] at hp'
        obtain rfl := Except.ok.inj hp'
        rw [expressions_of_takeBundle (Switch.eq_expression_of_operands hlast) htake] at hq
        cases hq
      · obtain ⟨hsame, hdrop⟩ := Switch.operandsFrom_append hlast hw hoperands rest
        rw [hsame, Except.mapError]
        change ((p.takeBundle b operands).bind _) = _
        rw [htake]
        change p'.takeWords ((tail ++ w :: rest).drop operands.length) = _
        rw [hdrop]
        exact ihdrop operands p' hp'

end Progress

namespace Word

/-- A word that two dashes do not start is read, whatever it is. -/
theorem exists_read {t : Text} (h : ¬ ['-', '-'] <+: t) : ∃ r, read t = .ok ⟨t, r⟩ := by
  unfold read
  split
  · next rest => exact absurd (List.prefix_append ['-', '-'] rest) h
  · exact ⟨_, rfl⟩
  · exact ⟨_, rfl⟩

theorem exists_mapM_read (h : ∀ line ∈ lines, ¬ ['-', '-'] <+: line) :
    ∃ words, lines.mapM read = .ok words ∧ words.map text = lines := by
  induction lines with
  | nil => exact ⟨[], rfl, rfl⟩
  | cons line lines ih =>
    obtain ⟨r, hr⟩ := exists_read (h line List.mem_cons_self)
    obtain ⟨words, hwords, htext⟩ := ih fun line hline => h line (List.mem_cons_of_mem _ hline)
    refine ⟨⟨line, r⟩ :: words, ?_, congrArg (line :: ·) htext⟩
    rw [List.mapM_cons, hr, hwords]
    rfl

end Word

namespace Options

theorem takeWhile_ne_dashes {words : List Text} (h : ∀ t ∈ words, t ≠ ['-', '-']) :
    words.takeWhile (· ≠ ['-', '-']) = words ∧ words.dropWhile (· ≠ ['-', '-']) = [] :=
  ⟨List.takeWhile_eq_self_iff.2 fun t ht => decide_eq_true (h t ht),
    List.dropWhile_eq_nil_iff.2 fun t ht => decide_eq_true (h t ht)⟩

/-- The words of a command line without misuse are all read and taken. -/
theorem ofWords_eq_ok_iff {words : List Text} :
    ofWords words = .ok o ↔ (∀ t ∈ words, t ≠ ['-', '-']) ∧ ∃ read p,
      words.mapM Word.read = .ok read ∧ Progress.initial.takeWords read = .ok p ∧
        p.leftOver = [] ∧ p.options = o := by
  constructor
  · intro h
    obtain ⟨read, hread, hrest⟩ := exists_of_bind_eq_ok h
    obtain ⟨p, htake, hmatch⟩ := exists_of_bind_eq_ok hrest
    split at hmatch
    · next hnil =>
      obtain ⟨hleft, hafter⟩ := List.append_eq_nil_iff.1 hnil
      have hwords : ∀ t ∈ words, t ≠ ['-', '-'] := fun t ht =>
        of_decide_eq_true (List.dropWhile_eq_nil_iff.1 hafter t ht)
      rw [(takeWhile_ne_dashes hwords).1] at hread
      exact ⟨hwords, read, p, eq_ok_of_mapError hread, htake, hleft, Except.ok.inj hmatch⟩
    · cases hmatch
  · rintro ⟨hwords, read, p, hread, htake, hleft, rfl⟩
    obtain ⟨hbefore, hafter⟩ := takeWhile_ne_dashes hwords
    unfold ofWords
    simp only [hbefore, hafter, hread, List.append_nil]
    change (Progress.initial.takeWords read).bind _ = _
    rw [htake, Except.bind, hleft]

end Options

namespace Progress

theorem takeBundle_expression (hp : Switch.prompt ∉ p.used) (lines : List Text) :
    p.takeBundle ⟨[], .expression, none⟩ lines =
      .ok { p with
        options := { p.options with expressions := some lines },
        used := .expression :: p.used } := by
  have hrival : Switch.expression.rival?.filter (· ∈ p.used) = none := by
    simp [Switch.rival?, hp]
  rw [takeBundle, List.foldlM_nil]
  change p.take .expression lines = _
  rw [take, hrival]
  rfl

/-- The expression switch takes all words behind it as lines. -/
theorem takeWords_expression (hp : Switch.prompt ∉ p.used) (words : List Word) :
    p.takeWords (⟨['-', 'e'], .switch .expression .nothing⟩ :: words) =
      .ok { p with
        options := { p.options with expressions := some (words.map Word.text) },
        used := .expression :: p.used } := by
  rw [takeWords_switch]
  change ((p.takeBundle ⟨[], .expression, none⟩ (words.map Word.text)).bind fun p =>
    p.takeWords (words.drop (words.map Word.text).length)) = _
  rw [takeBundle_expression hp, List.length_map, List.drop_length]
  change takeWords _ [] = _
  rw [takeWords]

end Progress

/-- Behind words that set neither expressions nor a prompt, the lines of an expression switch are
the expressions. -/
theorem Options.ofWords_append_expression {front : List Text} (h : ofWords front = .ok o)
    (hexpressions : o.expressions = none) (hprompt : o.prompt = none)
    (hlines : ∀ line ∈ lines, ¬ ['-', '-'] <+: line) :
    ofWords (front ++ ['-', 'e'] :: lines) = .ok { o with expressions := some lines } := by
  obtain ⟨hfront, read, p, hread, htake, hleft, rfl⟩ := ofWords_eq_ok_iff.1 h
  obtain ⟨words, hwords, rfl⟩ := Word.exists_mapM_read hlines
  have hunused := Progress.prompt_not_mem_used htake hprompt
  refine ofWords_eq_ok_iff.2 ⟨?_, read ++ ⟨['-', 'e'], .switch .expression .nothing⟩ :: words,
    { p with
      options := { p.options with expressions := some (words.map Word.text) },
      used := .expression :: p.used }, ?_, ?_, hleft, rfl⟩
  · intro t ht
    rcases List.mem_append.1 ht with ht | ht
    · exact hfront t ht
    · rcases List.mem_cons.1 ht with rfl | ht
      · decide
      · rintro rfl
        exact hlines _ ht (List.prefix_refl _)
  · rw [List.mapM_append, List.mapM_cons, hread, hwords]
    rfl
  · rw [Progress.takeWords_append rfl htake hexpressions,
      Progress.takeWords_expression hunused]

end Calculator.CommandLine
