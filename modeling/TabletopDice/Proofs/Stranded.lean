import TabletopDice.Proofs.Acceptance
import TabletopDice.Proofs.Phases

/-!
# Stranded lexemes

No rule takes a parenthesis, an unknown character, or an operator without a numeral in front of it. Such lexemes are
stranded, and they stay so:

- the stranded lexemes of a row are found by one walk from the left (`strandedFrom_append`). A redex has none, so they
  all stand around it (`stranded_of_find?`), and what replaces the redex frees none of them (`stranded_rewrite`);
- a difference below zero strands its own `-`. Only differences can follow it, and they fail only at a numeral that is
  too large (`fails_reduceRow_late`); so the evaluation has no total (`dooms_total`).
-/

namespace TabletopDice

open Lexeme

/-- Whether a lexeme is stranded, behind a numeral or not. -/
def Lexeme.isStranded (behindNumeral : Bool) (x : Lexeme) : Bool :=
  match x.kind with
  | .integer | .die => false
  | .plus | .minus | .star | .slash => !behindNumeral
  | .leftParen | .rightParen | .unknown => true

/-- The stranded lexemes of a row that stands behind a numeral or not. -/
def strandedFrom (behindNumeral : Bool) : List Lexeme → List Lexeme
  | [] => []
  | x :: rest => if x.isStranded behindNumeral then x :: strandedFrom x.isInteger rest else strandedFrom x.isInteger rest

/-- The stranded lexemes of a row. -/
def stranded (row : List Lexeme) : List Lexeme := strandedFrom false row

-- the sign of a negative number is stranded, and a `-` behind its digits is not
example : stranded (lexemes ['-', '2', '-', '1']) = [.mark '-'] := by decide

/-! ## Rows in a row -/

/-- What is stranded behind a row depends on the last lexeme of the row. -/
theorem strandedFrom_append (behindNumeral : Bool) (r s : List Lexeme) :
    strandedFrom behindNumeral (r ++ s) =
      strandedFrom behindNumeral r ++ strandedFrom (r.getLast?.elim behindNumeral isInteger) s := by
  induction r generalizing behindNumeral with
  | nil => rfl
  | cons x r ih =>
    have hlast : (x :: r).getLast?.elim behindNumeral isInteger = r.getLast?.elim x.isInteger isInteger := by
      rw [List.getLast?_cons]
      cases r.getLast? <;> rfl
    rw [List.cons_append, strandedFrom, strandedFrom, ih, hlast]
    split <;> rfl

theorem strandedFrom_sublist (behindNumeral : Bool) (row : List Lexeme) :
    (strandedFrom behindNumeral row).Sublist row := by
  induction row generalizing behindNumeral with
  | nil => exact .slnil
  | cons x row ih =>
    rw [strandedFrom]
    split
    · exact (ih _).cons_cons x
    · exact (ih _).cons x

/-- **Nothing in a redex is stranded.** -/
theorem strandedFrom_redex {rule : Rule} {matched : List Lexeme} (h : Rule.Redex rule matched)
    (behindNumeral : Bool) : strandedFrom behindNumeral matched = [] := by
  cases h with
  | die sides => rfl
  | dice count sides => rfl
  | binary op left right => cases op <;> rfl

/-- Of a written integer, only the sign is stranded. -/
theorem strandedFrom_integerRow (value : Int) :
    strandedFrom false (integerRow value) = if value < 0 then [.mark '-'] else [] := by
  cases value with
  | ofNat n => rfl
  | negSucc n => rw [if_pos (Int.negSucc_lt_zero n)]; rfl

theorem getLast?_integerRow (value : Int) : ∃ ds, (integerRow value).getLast? = some (numeral ds) := by
  cases value <;> exact ⟨_, rfl⟩

/-- Between a row and another one, a row that ends in a numeral. -/
theorem stranded_around (before : List Lexeme) {middle : List Lexeme} {ds : Text}
    (hlast : middle.getLast? = some (numeral ds)) (after : List Lexeme) :
    stranded (before ++ middle ++ after) =
      stranded before ++ strandedFrom (before.getLast?.elim false isInteger) middle ++ strandedFrom true after := by
  have hend : (before ++ middle).getLast? = some (numeral ds) := by rw [List.getLast?_append, hlast]; rfl
  rw [stranded, strandedFrom_append, hend, strandedFrom_append]
  rfl

/-- The stranded lexemes of a row stand around any occurrence in it. -/
theorem stranded_of_find? {rule : Rule} {row : List Lexeme} {m : Match} (h : rule.find? row = some m) :
    stranded row = stranded m.before ++ strandedFrom true m.after := by
  have hredex := Rule.redex_of_find? h
  obtain ⟨ds, hds⟩ := hredex.getLast?
  rw [Rule.row_eq_of_find? h, stranded_around m.before hds, strandedFrom_redex hredex, List.append_nil]

/-- **Around an integer in the place of an occurrence, the same lexemes are stranded**; a sign of it is, too. -/
theorem stranded_rewrite {rule : Rule} {row : List Lexeme} {m : Match} (h : rule.find? row = some m)
    (hsep : Separated row) (value : Int) :
    stranded (m.rewrite value) =
      stranded m.before ++ (if value < 0 then [.mark '-'] else []) ++ strandedFrom true m.after := by
  obtain ⟨ds, hds⟩ := getLast?_integerRow value
  have hbefore : m.before.getLast?.elim false isInteger = false := by
    have hfront := not_isInteger_before h hsep
    cases hlast : m.before.getLast? with
    | none => rfl
    | some x => simpa using hfront x hlast
  rw [Match.rewrite, stranded_around m.before hds, hbefore, strandedFrom_integerRow]

/-! ## Passes over rows with stranded lexemes -/

section

variable {σ : Type} [Roller σ]

/-- **The stranded lexemes stay, in their order, through a pass**, and a difference below zero strands its `-`. -/
theorem stranded_of_onePass {t next : Text} {tray tray' : Tray σ} {rule : Rule} {events : List Event}
    (h : (onePass t).run tray = ⟨.ok (.replaced rule next), tray', events⟩) :
    ∃ m value, rule.occurrence? t = some m ∧ lexemes t = m.before ++ m.matched ++ m.after ∧
      lexemes next = m.before ++ integerRow value ++ m.after ∧
      stranded (lexemes t) = stranded m.before ++ strandedFrom true m.after ∧
      ((∃ l r, m.Deficit rule l r ∧
          stranded (lexemes next) = stranded m.before ++ [.mark '-'] ++ strandedFrom true m.after) ∨
        ((∀ l r, ¬ m.Deficit rule l r) ∧
          stranded (lexemes next) = stranded m.before ++ strandedFrom true m.after)) := by
  obtain ⟨m, value, hm, rfl, hvalue⟩ := occurrence_of_onePass h
  have hnext := stranded_rewrite hm (separated_lexemes t) value
  rw [← lexemes_replace hm] at hnext
  refine ⟨m, value, hm, Rule.row_eq_of_find? hm, lexemes_replace hm value, stranded_of_find? hm, ?_⟩
  rcases deficit_of_value hm hvalue with ⟨l, r, hdef, rfl⟩ | ⟨hdef, hpos⟩
  · have hlt : l.toNat < r.toNat := hdef.2.1
    rw [if_pos (by omega)] at hnext
    exact Or.inl ⟨l, r, hdef, hnext⟩
  · rw [if_neg (by omega), List.append_nil] at hnext
    exact Or.inr ⟨hdef, hnext⟩

/-- A row that is one numeral has nothing stranded. -/
theorem stranded_of_isNumeralRow {row : List Lexeme} (h : isNumeralRow row) : stranded row = [] := by
  obtain ⟨ds, rfl⟩ := exists_of_isNumeralRow h
  rfl

/-- Nothing is freed: a row with stranded lexemes has some after an integer has been put in the place of a redex. -/
theorem stranded_rewrite_ne_nil {rule : Rule} {row : List Lexeme} {m : Match} (h : rule.find? row = some m)
    (hsep : Separated row) {value : Int} (hrow : stranded row ≠ [] ∨ value < 0) :
    stranded (m.rewrite value) ≠ [] := by
  rw [stranded_rewrite h hsep]
  rw [stranded_of_find? h] at hrow
  rcases hrow with hrow | hvalue
  · intro hnil
    simp only [List.append_eq_nil_iff] at hnil
    exact hrow (by rw [hnil.1.1, hnil.2]; rfl)
  · simp [hvalue]

/-- **A row with stranded lexemes has no total.** -/
theorem yields_reduceRow_stranded {row : List Lexeme} (hsep : Separated row) :
    (reduceRow row : Play σ UInt64).Yields fun _ => stranded row = [] := by
  induction row using row_induction with
  | normal row hredex =>
    rw [reduceRow_of_no_redex hredex]
    split
    · exact fun _ _ _ => stranded_of_isNumeralRow ‹_›
    · exact fun _ _ h => by cases h
  | redex row rule m hredex ih =>
    have hfind := find?_of_rowRedex? hredex
    rw [reduceRow_of_redex hredex]
    refine (Play.yields_true _).bind fun value _ tray total htotal => ?_
    have hnil := ih value (separated_rewrite hfind hsep value) tray total htotal
    by_contra hne
    exact stranded_rewrite_ne_nil hfind hsep (Or.inl hne) hnil

/-- A text with stranded lexemes has no total. -/
theorem yields_reduce_stranded (t : Text) : (reduce t : Play σ UInt64).Yields fun _ => stranded (lexemes t) = [] := by
  rw [reduce_eq_reduceRow]
  exact yields_reduceRow_stranded (separated_lexemes t)

/-- **No pass of a session over a buffer with stranded lexemes finishes it.** -/
theorem Session.not_finished_of_stranded {session : Session σ} {n : Nat}
    (h : stranded (lexemes session.buffer) ≠ []) : ∀ taken ∈ session.passes n, taken.1 ≠ .ok (.pass .finished) := by
  induction n generalizing session with
  | zero => exact fun taken htaken => by cases htaken
  | succ n ih =>
    have hstep : stranded (lexemes (session.step .pass).2.buffer) ≠ [] ∧
        (session.step .pass).1 ≠ .ok (.pass .finished) := by
      rcases session.step_pass_cases with
        ⟨rule, m, value, hredex, hanswer, hrow⟩ | ⟨_, _, _, -, hanswer, hbuffer⟩ | ⟨hanswer, hsession⟩
      · rw [hrow, hanswer]
        refine ⟨?_, by simp⟩
        exact stranded_rewrite_ne_nil (find?_of_rowRedex? hredex) (separated_lexemes session.buffer) (Or.inl h)
      · rw [hbuffer, hanswer]
        exact ⟨h, by simp⟩
      · have hnum : isNumeral session.buffer = false :=
          Bool.eq_false_iff.mpr fun hnum => h (stranded_of_isNumeralRow hnum)
        rw [hsession, hanswer, hnum]
        exact ⟨h, by simp⟩
    intro taken htaken
    rcases List.mem_cons.mp htaken with rfl | hlater
    · exact hstep.2
    · exact ih hstep.1 taken hlater

end

/-! ## The phase of differences -/

/-- A row with a numeral that is too large. -/
def Oversized (row : List Lexeme) : Prop := ∃ ds, numeral ds ∈ row ∧ UInt64.size ≤ Nat.ofDigitChars 10 ds 0

theorem Oversized.mono {r s : List Lexeme} (h : Oversized r) (hrs : ∀ x ∈ r, x ∈ s) : Oversized s := by
  obtain ⟨ds, hmem, hsize⟩ := h
  exact ⟨ds, hrs _ hmem, hsize⟩

/-- The faults behind a negative difference: something is malformed, or a numeral that is left is too large. -/
def Doomed (row : List Lexeme) (fault : Fault) : Prop :=
  (∃ buffer, fault = .malformed buffer) ∨ (fault = .overflow ∧ Oversized row)

/-- A difference fails only at an operand that is too large. -/
theorem oversized_of_combine_subtract {l r : Digits} {fault : Fault} (h : combine .subtract l r = .error fault) :
    fault = .overflow ∧ Oversized (operatorRow .subtract l r) := by
  unfold combine at h
  cases hl : l.read with
  | error _ =>
    rw [hl] at h
    obtain rfl := Except.error.inj h
    obtain ⟨hfault, hsize⟩ := Digits.size_le_of_read hl
    exact ⟨hfault, l.text, by simp [operatorRow, Digits.lexeme], hsize⟩
  | ok a =>
    cases hr : r.read with
    | error _ =>
      rw [hl, hr] at h
      obtain rfl := Except.error.inj h
      obtain ⟨hfault, hsize⟩ := Digits.size_le_of_read hr
      exact ⟨hfault, r.text, by simp [operatorRow, Digits.lexeme], hsize⟩
    | ok b => rw [hl, hr] at h; cases h

/-- A difference is less than its larger operand. -/
theorem natAbs_lt_of_combine_subtract {l r : Digits} {value : Int} (h : combine .subtract l r = .ok value) :
    value.natAbs < UInt64.size := by
  obtain ⟨a, b, -, -, happly⟩ := combine_eq_ok h
  obtain rfl : value = (a.toNat : Int) - b.toNat := (Except.ok.inj happly).symm
  have ha := a.toNat_lt
  have hb := b.toNat_lt
  have hsize : UInt64.size = 2 ^ 64 := rfl
  omega

/-- A pass writes no numeral that is too large. -/
theorem Oversized.of_rewrite {rule : Rule} {row : List Lexeme} {m : Match} (hfind : rule.find? row = some m)
    {value : Int} (hvalue : value.natAbs < UInt64.size) (h : Oversized (m.rewrite value)) : Oversized row := by
  obtain ⟨ds, hmem, hsize⟩ := h
  refine ⟨ds, ?_, hsize⟩
  have hwritten : numeral ds ∉ integerRow value := by
    intro hmem
    have hds : ds = Numeral.write value.natAbs := by cases value <;> simpa [integerRow] using hmem
    have hwrite : Nat.ofDigitChars 10 (Numeral.write value.natAbs) 0 = value.natAbs := Digits.value_ofNat _
    rw [hds, hwrite] at hsize
    omega
  rw [Rule.row_eq_of_find? hfind]
  simp only [Match.rewrite, List.mem_append] at hmem ⊢
  tauto

section

variable {σ : Type} [Roller σ]

/-- **In the phase of differences**, a row is malformed, or one of its numerals is too large. -/
theorem fails_reduceRow_late {row : List Lexeme} (hproper : ∀ x ∈ row, x.Proper)
    (hlate : Past (Rule.binary .subtract).rank row) : (reduceRow row : Play σ UInt64).Fails (Doomed row) := by
  induction row using row_induction with
  | normal row hredex =>
    rw [reduceRow_of_no_redex hredex]
    split
    · rename_i hnum
      obtain ⟨ds, rfl⟩ := exists_of_isNumeralRow hnum
      have hds : (numeral ds).Proper := hproper _ List.mem_cons_self
      have hread : readTotal (join [numeral ds]) = (⟨ds, hds.1, hds.2⟩ : Digits).read := by
        rw [← Digits.readOperand_text]
        simp [readTotal, Lexeme.text]
      refine Play.fails_ofExcept fun fault hfault => ?_
      obtain ⟨rfl, hsize⟩ := Digits.size_le_of_read (hread ▸ hfault)
      exact Or.inr ⟨rfl, ds, List.mem_cons_self, hsize⟩
    · exact Play.fails_fail (Or.inl ⟨_, rfl⟩)
  | redex row rule m hredex ih =>
    have hfind := find?_of_rowRedex? hredex
    obtain rfl : rule = .binary .subtract := by
      by_contra hne
      rw [hlate rule (Rule.rank_lt_of_ne rule.rank_le_subtract hne)] at hfind
      cases hfind
    have hmem : ∀ x ∈ m.matched, x ∈ row := fun x hx => by rw [Rule.row_eq_of_find? hfind]; simp [hx]
    rcases Rule.cases_of_find? hfind hproper with ⟨hdice, -⟩ | ⟨op, l, r, hop, hmatched⟩
    · cases hdice
    · obtain rfl := Rule.binary.inj hop
      show (reduceRow row : Play σ UInt64).mute.Fails (Doomed row)
      rw [mute_reduceRow_of_redex hredex, Match.text, hmatched, join_operatorRow, Rule.valueOf,
        valueOf_operatorText, Play.mute_ofExcept]
      refine Play.Fails.bind (q := fun value => combine .subtract l r = .ok value) ?_ ?_ fun value hvalue => ?_
      · refine Play.fails_ofExcept fun fault hfault => ?_
        obtain ⟨rfl, hsize⟩ := oversized_of_combine_subtract hfault
        exact Or.inr ⟨rfl, hsize.mono (hmatched ▸ hmem)⟩
      · exact fun _ _ h => h
      · have hnext : (reduceRow (m.rewrite value) : Play σ UInt64).Fails (Doomed (m.rewrite value)) :=
          ih value (proper_of_mem_rewrite hfind hproper value) (hlate.rewrite hfind value)
        have hdoomed : (reduceRow (m.rewrite value) : Play σ UInt64).Fails (Doomed row) :=
          hnext.mono fun fault hfault => hfault.imp_right fun h =>
            ⟨h.1, h.2.of_rewrite hfind (natAbs_lt_of_combine_subtract hvalue)⟩
        exact hdoomed

end

/-! ## Evaluations in which a difference is negative -/

section

variable {σ : Type}

/-- The event of a negative difference. -/
def Event.IsDeficit (event : Event) : Prop :=
  ∃ matched value, event = .substituting (.binary .subtract) matched value ∧ value < 0

/-- Behind each negative difference stands the buffer that it leaves, and the play ends in a fault that is due to it. -/
def Play.Dooms {α : Type} (play : Play σ α) : Prop :=
  ∀ tray earlier event rest, (play.run tray).events = earlier ++ event :: rest → event.IsDeficit →
    ∃ buffer later fault, rest = .reduced buffer :: later ∧ (play.run tray).result = .error fault ∧
      Doomed (lexemes buffer) fault

/-- Plays that tell of no rule tell of no difference. -/
theorem Play.dooms_of_tells {α : Type} {play : Play σ α} (h : play.Tells fun event => event.rule? = none) :
    play.Dooms := by
  rintro tray earlier event rest hevents ⟨matched, value, rfl, -⟩
  have hquiet := h tray (.substituting (.binary .subtract) matched value) (by rw [hevents]; simp)
  cases hquiet

theorem Play.Dooms.bind {α β : Type} {play : Play σ α} {next : α → Play σ β} (h : play.Dooms)
    (hnext : ∀ a, (next a).Dooms) : (play >>= next).Dooms := by
  intro tray earlier event rest hevents hdeficit
  have hplay := h tray
  rw [run_bind] at hevents ⊢
  rcases hrun : play.run tray with ⟨fault | a, tray', events⟩
  · rw [hrun] at hevents hplay
    obtain ⟨buffer, later, fault', hrest, hresult, hdoomed⟩ := hplay earlier event rest hevents hdeficit
    obtain rfl := Except.error.inj hresult
    exact ⟨buffer, later, fault, hrest, rfl, hdoomed⟩
  · rw [hrun] at hevents hplay
    -- a play that comes to a value has told of no negative difference
    have hnot : event ∉ events := by
      intro hmem
      obtain ⟨u, v, huv⟩ := List.append_of_mem hmem
      obtain ⟨_, _, _, -, hresult, -⟩ := hplay u event v huv hdeficit
      cases hresult
    obtain ⟨w, hlater, rfl⟩ := split_behind hnot hevents
    exact hnext a tray' w event rest hlater hdeficit

end

section

variable {σ : Type} [Roller σ]

/-- Behind a negative difference a reduction fails. -/
theorem doomed_of_redex {t : Text} {m : Match} (h : redex? t = some (.binary .subtract, m)) {value : Int}
    (hvalue : value < 0) (tray : Tray σ) : ∃ fault,
      ((reduce (m.replace value)).run tray).result = .error fault ∧ Doomed (lexemes (m.replace value)) fault := by
  have hfind := occurrence_of_redex? h
  have hlate : Past (Rule.binary .subtract).rank (lexemes (m.replace value)) := by
    rw [lexemes_replace hfind]
    exact (past_of_rowRedex? h).rewrite hfind value
  cases hresult : ((reduce (m.replace value)).run tray).result with
  | error fault =>
    have hfails := fails_reduceRow_late proper_of_mem_lexemes hlate tray fault
    rw [← reduce_eq_reduceRow] at hfails
    exact ⟨fault, rfl, hfails hresult⟩
  | ok total =>
    have hnil := yields_reduce_stranded (m.replace value) tray total hresult
    rw [lexemes_replace hfind] at hnil
    exact absurd hnil (stranded_rewrite_ne_nil hfind (separated_lexemes t) (Or.inr hvalue))

/-- **Where a difference is negative, a reduction fails.** -/
theorem dooms_reduce (t : Text) : (reduce t : Play σ UInt64).Dooms := by
  induction t using buffer_induction with
  | normal t hredex =>
    rw [reduce_of_no_redex hredex]
    split
    · exact Play.dooms_of_tells (Play.tells_ofExcept _)
    · exact Play.dooms_of_tells (Play.tells_fail _)
  | redex t rule m hredex ih =>
    intro tray earlier event rest hevents hdeficit
    obtain ⟨matched, negative, rfl, hnegative⟩ := hdeficit
    have hnot : .substituting (.binary .subtract) matched negative ∉ ((rule.valueOf m.text).run tray).events := by
      intro hmem
      obtain ⟨dice, total, he⟩ := tells_valueOf rule m.text tray _ hmem
      cases he
    rw [reduce_of_redex hredex, Play.run_bind] at hevents ⊢
    rcases hrun : (rule.valueOf m.text).run tray with ⟨fault | value, tray', events⟩
    · simp only [run_contract_of_error hrun] at hevents
      rw [hrun, hevents] at hnot
      simp at hnot
    · simp only [run_contract_of_ok hrun, Outcome.after, List.append_assoc] at hevents ⊢
      rw [hrun] at hnot
      obtain ⟨w, hlater, rfl⟩ := split_behind hnot hevents
      rcases w with _ | ⟨first, _ | ⟨second, w⟩⟩
      · -- this pass has left the negative difference
        obtain ⟨he, rfl⟩ := List.cons.inj hlater
        obtain ⟨rfl, rfl, rfl⟩ := Event.substituting.injEq .. ▸ he
        obtain ⟨fault, hresult, hdoomed⟩ := doomed_of_redex hredex hnegative tray'
        exact ⟨_, _, fault, rfl, hresult, hdoomed⟩
      · cases (List.cons.inj (List.cons.inj hlater).2).1
      · -- a later pass has left it
        have htail := (List.cons.inj (List.cons.inj hlater).2).2
        exact ih value tray' w _ rest htail ⟨matched, negative, rfl, hnegative⟩

/-- Where a difference is negative, a text has no total, in whatever group it is. -/
theorem dooms_total (t : Text) : (resolveGroups t >>= Resolution.total : Play σ UInt64).Dooms := by
  induction t using group_induction with
  | loose t hloose =>
    rw [total_of_loose hloose]
    exact dooms_reduce t
  | group t g hfind ih =>
    rw [total_of_group hfind]
    refine (dooms_reduce g.inside).bind fun value => ?_
    exact (Play.dooms_of_tells (Play.tells_tell rfl)).bind fun _ => ih value

theorem dooms_evaluate (t : Text) : (evaluate t : Play σ UInt64).Dooms := by
  rw [evaluate_eq_bind]
  refine (Play.dooms_of_tells fun _ _ h => by cases h).bind fun _ => ?_
  refine (dooms_total _).bind fun total => (Play.dooms_of_tells fun _ _ h => by cases h).bind fun rolls => ?_
  exact (Play.dooms_of_tells (Play.tells_tell rfl)).bind fun _ => Play.dooms_of_tells (Play.tells_pure _)

/-- **Stranded lexemes are never used again.** A pass keeps them in their order, and a difference below zero adds its
`-` to them. So no pass finishes a buffer that has some, such a buffer has no total, and neither has an instruction in
which a difference is negative: what is left of it is malformed, or one of its numerals is too large. -/
theorem stranded_stay :
    (∀ (t next : Text) (tray tray' : Tray σ) rule events,
      (onePass t).run tray = ⟨.ok (.replaced rule next), tray', events⟩ →
        ∃ m value, rule.occurrence? t = some m ∧ lexemes t = m.before ++ m.matched ++ m.after ∧
          lexemes next = m.before ++ integerRow value ++ m.after ∧
          stranded (lexemes t) = stranded m.before ++ strandedFrom true m.after ∧
          ((∃ l r, m.Deficit rule l r ∧
              stranded (lexemes next) = stranded m.before ++ [.mark '-'] ++ strandedFrom true m.after) ∨
            ((∀ l r, ¬ m.Deficit rule l r) ∧
              stranded (lexemes next) = stranded m.before ++ strandedFrom true m.after))) ∧
      (∀ (session : Session σ) n, stranded (lexemes session.buffer) ≠ [] →
        ∀ taken ∈ session.passes n, taken.1 ≠ .ok (.pass .finished)) ∧
      (∀ (t : Text) (tray : Tray σ) total, stranded (lexemes t) ≠ [] → ((reduce t).run tray).result ≠ .ok total) ∧
      (∀ (t : Text) (tray : Tray σ) earlier event rest,
        ((evaluate t).run tray).events = earlier ++ event :: rest → event.IsDeficit →
          ∃ buffer later fault, rest = .reduced buffer :: later ∧ ((evaluate t).run tray).result = .error fault ∧
            Doomed (lexemes buffer) fault) := by
  refine ⟨fun t next tray tray' rule events h => stranded_of_onePass h, ?_, ?_, ?_⟩
  · exact fun session n h => Session.not_finished_of_stranded h
  · exact fun t tray total h htotal => h (yields_reduce_stranded t tray total htotal)
  · exact fun t tray => dooms_evaluate t tray

end

end TabletopDice
