import TabletopDice.Proofs.Stranded

/-!
# Passes counted by characters

Each character that a rule looks for pays for at most one pass of that rule, whatever the roller shows.

- `Play.Spends` is an account of events: a play tells at most as many as are in stock, and exactly as many as are not
  left over if it comes to a value. Accounts of plays in a row add up (`Spends.bind`);
- the stock of a rule in a row is the number of its marks that are not stranded. A pass of the rule takes one of them,
  and any other pass none (`stock_rewrite`): the sign of a negative difference is stranded from the start;
- a total leaves nothing stranded and no mark, so it has been paid by all characters of its text (`spends_reduce`).
  Each group costs one `(` more, and the account of the whole text adds up (`spends_total`, `spends_passes`, `spends_groups`).
-/

namespace TabletopDice

open Lexeme

/-! ## Accounts of events -/

namespace Play

variable {σ α β : Type} {p : Event → Bool}

/-- The play tells of no more events than are in stock. If it comes to a value, it leaves over what it has not told of. -/
def Spends (play : Play σ α) (p : Event → Bool) (stock : Nat) (left : α → Nat) : Prop :=
  ∀ tray, (play.run tray).events.countP p ≤ stock ∧
    ∀ a, (play.run tray).result = .ok a → (play.run tray).events.countP p + left a = stock

/-- A play that tells of none of the events leaves the stock. -/
theorem spends_of_tells {play : Play σ α} (h : play.Tells fun event => p event = false) (stock : Nat) :
    play.Spends p stock fun _ => stock := by
  intro tray
  have hnone : (play.run tray).events.countP p = 0 :=
    List.countP_eq_zero.mpr fun event hevent => by simp [h tray event hevent]
  rw [hnone]
  exact ⟨Nat.zero_le _, fun _ _ => Nat.zero_add _⟩

theorem Spends.bind {play : Play σ α} {next : α → Play σ β} {stock : Nat} {left : α → Nat} {left' : β → Nat}
    (h : play.Spends p stock left) (hnext : ∀ a, (next a).Spends p (left a) left') :
    (play >>= next).Spends p stock left' := by
  intro tray
  have hplay := h tray
  rw [run_bind]
  rcases hrun : play.run tray with ⟨fault | a, tray', events⟩
  · rw [hrun] at hplay
    exact ⟨hplay.1, fun _ hb => by cases hb⟩
  · rw [hrun] at hplay
    obtain ⟨hle, heq⟩ := hnext a tray'
    have ha := hplay.2 a rfl
    simp only [Outcome.after, List.countP_append] at ha ⊢
    refine ⟨by omega, fun b hb => ?_⟩
    have hb' := heq b hb
    omega

/-- More in stock is more left over. -/
theorem Spends.frame {play : Play σ α} {stock : Nat} {left : α → Nat} (h : play.Spends p stock left) (n : Nat) :
    play.Spends p (stock + n) fun a => left a + n := by
  intro tray
  obtain ⟨hle, heq⟩ := h tray
  exact ⟨Nat.le_trans hle (Nat.le_add_right _ _), fun a ha => by rw [← Nat.add_assoc, heq a ha]⟩

theorem spends_tell (event : Event) : (tell event : Play σ Unit).Spends p (if p event then 1 else 0) fun _ => 0 := by
  intro tray
  rw [run_tell, List.countP_singleton]
  exact ⟨Nat.le_refl _, fun _ _ => rfl⟩

/-- What values leave over need only be known for values that the play comes to, and the stock may be larger if no
value is come to at all. -/
theorem Spends.mono {play : Play σ α} {q : α → Prop} {stock stock' : Nat} {left left' : α → Nat}
    (h : play.Spends p stock left) (hyields : play.Yields q) (hstock : stock ≤ stock')
    (hleft : ∀ a, q a → left' a + stock = left a + stock') : play.Spends p stock' left' := by
  intro tray
  obtain ⟨hle, heq⟩ := h tray
  refine ⟨Nat.le_trans hle hstock, fun a ha => ?_⟩
  have hcount := heq a ha
  have := hleft a (hyields tray a ha)
  omega

end Play

/-! ## The stock of a rule -/

/-- The character of a rule stands in the lexemes of a text as often as in the text. -/
theorem count_mark_lexemes {c : Char} (hc : c.isDigit = false) (t : Text) :
    (lexemes t).count (.mark c) = t.count c := by
  induction t with
  | nil => rfl
  | cons d t ih =>
    rw [lexemes_cons]
    unfold push
    split
    · rename_i hd
      have hne : d ≠ c := by rintro rfl; rw [hd] at hc; cases hc
      rw [List.count_cons_of_ne hne, ← ih]
      split
      · rename_i hrow
        simp [hrow]
      · simp
    · simp [List.count_cons, ih]

/-- A redex has one mark of its rule, and none of another one. -/
theorem Rule.Redex.count_mark {rule : Rule} {matched : List Lexeme} (h : Rule.Redex rule matched) (r : Rule) :
    matched.count (.mark r.mark) = if rule = r then 1 else 0 := by
  have hmark : (if Lexeme.mark rule.mark = .mark r.mark then 1 else 0) = if rule = r then 1 else 0 := by
    by_cases he : rule = r
    · rw [he]; simp
    · rw [if_neg he, if_neg fun hm => he (Rule.eq_of_mark_eq (Lexeme.mark.inj hm))]
  cases h <;> simpa [List.count_cons, Rule.mark] using hmark

/-- The marks of a rule in a row that can still be used. -/
def stock (r : Rule) (row : List Lexeme) : Nat := row.count (.mark r.mark) - (stranded row).count (.mark r.mark)

/-- **A pass takes one mark of its rule from the stock**, and no other one. -/
theorem stock_rewrite {rule : Rule} {row : List Lexeme} {m : Match} (h : rule.find? row = some m)
    (hsep : Separated row) (value : Int) (r : Rule) :
    (if rule = r then 1 else 0) + stock r (m.rewrite value) = stock r row := by
  have hmatched := (Rule.redex_of_find? h).count_mark r
  have hbefore := (strandedFrom_sublist false m.before).count_le (.mark r.mark)
  have hafter := (strandedFrom_sublist true m.after).count_le (.mark r.mark)
  have hsign : (integerRow value).count (.mark r.mark) =
      (if value < 0 then [Lexeme.mark '-'] else []).count (.mark r.mark) := by
    cases value with
    | ofNat n => rfl
    | negSucc n => rw [if_pos (Int.negSucc_lt_zero n)]; simp [integerRow, List.count_cons]
  have hrow := congrArg (List.count (Lexeme.mark r.mark)) (Rule.row_eq_of_find? h)
  rw [stock, stock, stranded_rewrite h hsep, stranded_of_find? h, Match.rewrite]
  simp only [stranded, List.count_append] at hrow ⊢
  omega

section

variable {σ : Type} [Roller σ]

/-! ## The account of a reduction -/

/-- Whether an event tells of a pass of a rule. -/
def Event.isPassOf (r : Rule) (event : Event) : Bool := event.rule? == some r

theorem countP_isPassOf (r : Rule) (events : List Event) :
    events.countP (Event.isPassOf r) = (rulesTold events).count r := List.count_filterMap.symm

theorem spends_contract (r rule : Rule) (m : Match) :
    (contract rule m : Play σ Int).Spends (Event.isPassOf r) (if rule = r then 1 else 0) fun _ => 0 := by
  intro tray
  have htold := rulesTold_contract rule m tray
  rw [countP_isPassOf, htold]
  cases ((contract rule m).run tray).result with
  | error fault => exact ⟨Nat.zero_le _, fun _ h => by cases h⟩
  | ok value =>
    have hone : [rule].count r = if rule = r then 1 else 0 := by simp [List.count_cons]
    refine ⟨?_, fun _ _ => ?_⟩
    · rw [hone]
    · simp only [hone, Nat.add_zero]

/-- The passes of a rule are paid from its stock. -/
theorem spends_reduceRow (r : Rule) {row : List Lexeme} (hsep : Separated row) :
    (reduceRow row : Play σ UInt64).Spends (Event.isPassOf r) (stock r row) fun _ => 0 := by
  induction row using row_induction with
  | normal row hredex =>
    rw [reduceRow_of_no_redex hredex]
    split
    · rename_i hnum
      obtain ⟨ds, rfl⟩ := exists_of_isNumeralRow hnum
      exact Play.spends_of_tells (Play.tells_ofExcept _) 0
    · intro tray
      exact ⟨Nat.zero_le _, fun _ h => by cases h⟩
  | redex row rule m hredex ih =>
    have hfind := find?_of_rowRedex? hredex
    have hstock := stock_rewrite hfind hsep
    rw [reduceRow_of_redex hredex, ← hstock 0 r]
    refine ((spends_contract r rule m).frame _).bind fun value => ?_
    -- what is left does not depend on the value
    have hleft : stock r (m.rewrite 0) = stock r (m.rewrite value) := by
      have h₁ := hstock 0 r
      have h₂ := hstock value r
      omega
    rw [Nat.zero_add, hleft]
    exact ih value (separated_rewrite hfind hsep value)

/-- **The passes of a rule are paid by its characters**, and a total takes them all. -/
theorem spends_reduce (r : Rule) (t : Text) :
    (reduce t : Play σ UInt64).Spends (Event.isPassOf r) (t.count r.mark) fun _ => 0 := by
  have hrow : (reduceRow (lexemes t) : Play σ UInt64).Spends _ _ _ := spends_reduceRow r (separated_lexemes t)
  have hcount := count_mark_lexemes r.isDigit_mark t
  rw [← reduce_eq_reduceRow] at hrow
  refine hrow.mono (yields_reduce_stranded t) ?_ fun _ hnil => ?_
  · rw [← hcount]
    exact Nat.sub_le _ _
  · rw [stock, hnil, hcount]
    rfl

/-! ## The account of an evaluation -/

/-- What stands in the place of a group has the characters of the text, less those of the group. -/
theorem Group.count_replace {t : Text} {g : Group} (h : find? t = some g) (value : UInt64) {c : Char}
    (hc : c.isDigit = false) : t.count c = g.text.count c + (g.replace value).count c := by
  have hwrite : (Numeral.write value.toNat).count c = 0 :=
    List.count_eq_zero.mpr fun hmem => by
      have hdigit := Numeral.isDigit_of_mem_write hmem
      rw [hc] at hdigit
      cases hdigit
  have ht := congrArg (List.count c) (eq_of_find? h)
  simp only [replace, List.count_append, hwrite] at ht ⊢
  omega

/-- A group has one `(`, and no other characters than those of its inside but for its parentheses. -/
theorem Group.count_text (g : Group) {c : Char} (hc : c ≠ ')') :
    g.text.count c = g.inside.count c + if c = '(' then 1 else 0 := by
  by_cases hl : c = '('
  · simp [text, hl]
  · simp [text, hl, Ne.symm hl, Ne.symm hc]

/-- **An account that is paid by a character in each reduction is paid by it in a text with groups**, and a group costs
one more if that character is its `(`. -/
theorem spends_total {p : Event → Bool} {c : Char} (hdigit : c.isDigit = false) (hc : c ≠ ')')
    (hgroup : ∀ text value, p (.resolvedGroup text value) = decide (c = '('))
    (hreduce : ∀ t, (reduce t : Play σ UInt64).Spends p (t.count c) fun _ => 0) (t : Text) :
    (resolveGroups t >>= Resolution.total : Play σ UInt64).Spends p (t.count c) fun _ => 0 := by
  induction t using group_induction with
  | loose t hloose =>
    rw [total_of_loose hloose]
    exact hreduce t
  | group t g hfind ih =>
    have hrest := fun value : UInt64 => Group.count_replace hfind value hdigit
    rw [total_of_group hfind, hrest 0, Group.count_text g hc, Nat.add_assoc]
    refine ((hreduce g.inside).frame _).bind fun value => ?_
    have hnext : (g.replace 0).count c = (g.replace value).count c := by
      have h₁ := hrest 0
      have h₂ := hrest value
      omega
    have htell := (Play.spends_tell (σ := σ) (p := p) (.resolvedGroup g.text value)).frame ((g.replace value).count c)
    rw [hgroup] at htell
    rw [Nat.zero_add, hnext]
    exact Play.Spends.bind (by simpa using htell) fun _ => ih value

/-- Every `(` of a row is stranded. -/
theorem leftParen_mem_strandedFrom (behindNumeral : Bool) {row : List Lexeme} (h : .mark '(' ∈ row) :
    .mark '(' ∈ strandedFrom behindNumeral row := by
  induction row generalizing behindNumeral with
  | nil => cases h
  | cons x row ih =>
    rw [strandedFrom]
    rcases List.mem_cons.mp h with rfl | hrow
    · exact List.mem_cons_self
    · split
      · exact List.mem_cons_of_mem x (ih _ hrow)
      · exact ih _ hrow

/-- A text with a total has no `(`. -/
theorem yields_reduce_leftParen (t : Text) : (reduce t : Play σ UInt64).Yields fun _ => '(' ∉ t := by
  intro tray total htotal hmem
  have hrow : .mark '(' ∈ lexemes t := by
    rw [← List.count_pos_iff, count_mark_lexemes (by decide), List.count_pos_iff]
    exact hmem
  have hstranded := leftParen_mem_strandedFrom false hrow
  rw [← stranded, yields_reduce_stranded t tray total htotal] at hstranded
  cases hstranded

/-- The groups of a text are paid by its `(`, of which none is left if there is a total. -/
theorem spends_reduce_groups (t : Text) :
    (reduce t : Play σ UInt64).Spends (fun event => event.groupValue?.isSome) (t.count '(') fun _ => 0 := by
  have hquiet : (reduce t : Play σ UInt64).Tells fun event => event.groupValue?.isSome = false := by
    rw [reduce_eq_reduceRow]
    exact (tells_reduceRow (lexemes t)).mono fun event hnone => by rw [hnone]; rfl
  refine (Play.spends_of_tells hquiet 0).mono (yields_reduce_leftParen t) (Nat.zero_le _) fun _ hnone => ?_
  rw [List.count_eq_zero.mpr hnone]

/-- The account of an evaluation is that of its text: quotes and the event of the total cost nothing. -/
theorem spends_evaluate {p : Event → Bool} {c : Char} (hc : c ≠ '"')
    (hevaluated : ∀ t total rolls, p (.evaluated t total rolls) = false)
    (htotal : ∀ t, (resolveGroups t >>= Resolution.total : Play σ UInt64).Spends p (t.count c) fun _ => 0) (t : Text) :
    (evaluate t : Play σ UInt64).Spends p (t.count c) fun _ => 0 := by
  have hunquote : (unquote t).count c = t.count c := List.count_filter (by simpa using hc)
  have hquiet : ∀ (t : Text) (total rolls : UInt64), (Play.tell (.evaluated t total rolls) : Play σ Unit).Tells
      fun event => p event = false := fun t total rolls => Play.tells_tell (hevaluated t total rolls)
  rw [evaluate_eq_bind]
  refine (Play.spends_of_tells (fun _ _ h => by cases h) _).bind fun _ => ?_
  rw [← hunquote]
  refine (htotal _).bind fun total => (Play.spends_of_tells (fun _ _ h => by cases h) _).bind fun rolls => ?_
  exact (Play.spends_of_tells (hquiet t total rolls) 0).bind fun _ => Play.spends_of_tells (Play.tells_pure _) 0

/-- **The passes of a rule in an evaluation are paid by the characters of the rule.** -/
theorem spends_passes (rule : Rule) (t : Text) :
    (evaluate t : Play σ UInt64).Spends (Event.isPassOf rule) (t.count rule.mark) fun _ => 0 := by
  obtain ⟨hquote, hclose, hopen⟩ : rule.mark ≠ '"' ∧ rule.mark ≠ ')' ∧ rule.mark ≠ '(' := by
    rcases rule with _ | _ | _ | _ | _ <;> decide
  refine spends_evaluate hquote (fun _ _ _ => rfl) (spends_total rule.isDigit_mark hclose ?_ (spends_reduce rule)) t
  intro text value
  rw [decide_eq_false hopen]
  rfl

/-- **The groups of an evaluation are paid by its `(`.** -/
theorem spends_groups (t : Text) :
    (evaluate t : Play σ UInt64).Spends (fun event => event.groupValue?.isSome) (t.count '(') fun _ => 0 :=
  spends_evaluate (by decide) (fun _ _ _ => rfl)
    (spends_total (by decide) (by decide) (fun _ _ => rfl) spends_reduce_groups) t

/-- **Passes are counted by characters.** No run of passes goes on for ever, and no run of groups. An evaluation makes
at most as many passes of a rule as its instruction has characters of the rule; if it comes to a total, just as many,
and it has resolved a group for each `(`. The passes of a reduction are those that its events tell of. -/
theorem evaluate_counts_passes (t : Text) (tray : Tray σ) :
    WellFounded (fun next buffer : Text =>
        ∃ (tray : Tray σ) (rule : Rule), ((onePass buffer).run tray).result = .ok (.replaced rule next)) ∧
      WellFounded (fun next buffer : Text => ∃ g value, Group.find? buffer = some g ∧ next = g.replace value) ∧
      (∀ (buffer : Text) (tray : Tray σ), rulesTold ((reduce buffer).run tray).events =
        (passes buffer tray).filterMap fun step => step.2.rule?) ∧
      (∀ rule : Rule, (rulesTold ((evaluate t).run tray).events).count rule ≤ t.count rule.mark) ∧
      (∀ total, ((evaluate t).run tray).result = .ok total →
        (∀ rule : Rule, (rulesTold ((evaluate t).run tray).events).count rule = t.count rule.mark) ∧
          (groupValues ((evaluate t).run tray).events).length = t.count '(') := by
  refine ⟨?_, ?_, rulesTold_reduce, fun rule => ?_, fun total htotal => ⟨fun rule => ?_, ?_⟩⟩
  · refine Subrelation.wf (fun {next buffer} h => ?_) (measure fun buffer => live (lexemes buffer)).wf
    obtain ⟨tray, rule, h⟩ := h
    exact live_lt_of_onePass (by rw [← h])
  · refine Subrelation.wf (fun {next buffer} h => ?_) (measure fun buffer : Text => buffer.count '(').wf
    obtain ⟨g, value, hfind, rfl⟩ := h
    exact Group.count_replace_lt hfind value
  · rw [← countP_isPassOf]
    exact (spends_passes rule t tray).1
  · rw [← countP_isPassOf]
    exact (spends_passes rule t tray).2 total htotal
  · rw [groupValues, List.length_filterMap_eq_countP]
    exact (spends_groups t tray).2 total htotal

end
end TabletopDice
