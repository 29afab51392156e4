import TabletopDice.Command
import TabletopDice.Proofs.Bookings
import TabletopDice.Proofs.DiceText
import TabletopDice.Proofs.Expression

/-!
# Repetitions on the command line

The command line evaluates its instruction a number of times in one tray, and goes on with whatever tray the last
evaluation has left.

- There are arguments for each invocation (`Invocation.read_arguments`);
- an evaluation takes back what has been booked before, and leaves the budget alone (`run_evaluate_fresh`,
  `budget_evaluate`). So each repetition is an evaluation in a fresh tray, with the roller that the repetitions before it
  leave (`Command.freshTray`);
- as long as the repetitions have totals, these are listed (`rounds_of_given`), by induction on the list. The first fault
  ends the run (`rounds_succ_of_error`);
- so a run reports what its repetitions come to, and nothing else (`reports_run`, `Reports.unique`). Of two lists of the
  first totals, the shorter one is the beginning of the other (`Given.isPrefix`).

The main statement is `repetitions_prefix_stable`.
-/

namespace TabletopDice

section

variable {σ : Type} [Roller σ]

/-! ## Budgets -/

theorem Tray.budget_of_throw (dice : Dice) (tray : Tray σ) :
    ((Play.throw dice).run tray).tray.budget = tray.budget := by
  cases hbook : tray.book dice.count with
  | none => rw [run_roll_of_no_book hbook]
  | some booked =>
    rw [run_roll_of_book hbook]
    exact (Tray.book_eq_some hbook).2.1

/-- No play of the machine changes the budget. -/
theorem parametric_budget : Play.Parametric (σ := σ) fun p (_ : Play σ _) =>
    ∀ tray, (p.run tray).tray.budget = tray.budget where
  ofExcept _ _ := rfl
  tell _ _ _ := rfl
  booked _ := rfl
  throw := Tray.budget_of_throw
  bind {α β p _ f _} hp hf tray := by
    rw [Play.run_bind]
    have hfirst := hp tray
    rcases hrun : p.run tray with ⟨_ | a, tray', events⟩
    · rw [hrun] at hfirst
      exact hfirst
    · rw [hrun] at hfirst
      exact (hf a tray').trans hfirst

/-- **An evaluation leaves the budget as it is.** -/
theorem budget_evaluate (t : Text) (tray : Tray σ) : ((evaluate t).run tray).tray.budget = tray.budget := by
  rw [run_evaluate]
  exact parametric_budget.counting t tray.reset

/-- **An evaluation begins with nothing booked**, whatever has been booked before. -/
theorem run_evaluate_fresh (t : Text) (tray : Tray σ) :
    (evaluate t).run tray = (evaluate t).run ⟨tray.roller, 0, tray.budget⟩ := by
  rw [run_evaluate, run_evaluate]
  rfl

end

namespace Command

/-! ## Arguments for an invocation -/

/-- An option with a number, as one argument. -/
def Flag.write (flag : Flag) (n : UInt64) : Text :=
  (match flag with
    | .seed => "--seed="
    | .budget => "--max-rolls=").toList ++ Numeral.write n.toNat

/-- Arguments that ask for an invocation: its options, and behind `--` its instruction and the number of times. -/
def Invocation.arguments (i : Invocation) : List Text :=
  (i.seed.map Flag.seed.write).toList ++ ((i.budget.map Flag.budget.write).toList ++
    ["--".toList, i.instruction, Numeral.write i.times])

theorem flag?_write (flag : Flag) (n : UInt64) :
    flag? (flag.write n) = some (flag, some (Numeral.write n.toNat)) := by
  cases flag <;> rfl

/-- An option that is written is read. -/
theorem Draft.read_write {draft draft' : Draft} {flag : Flag} {n : UInt64}
    (h : draft.option flag (Numeral.write n.toNat) = some draft') (rest : List Text) :
    draft.read (flag.write n :: rest) = draft'.read rest := by
  have hoption : isOption (flag.write n) = true := by cases flag <;> rfl
  have hdashes : flag.write n ≠ "--".toList := fun h => by
    have hthird : (flag.write n)[2]? = none := congrArg (·[2]?) h
    cases flag <;> cases hthird
  rw [Draft.read, if_neg hdashes, if_pos hoption, flag?_write]
  simp only [h]
  rfl

theorem numeral_read_write (n : UInt64) : Numeral.read (Numeral.write n.toNat) = .ok n :=
  Numeral.read_eq_ok_iff.mpr (spells_write n.toNat)

/-- What stands behind `--` are the instruction and the number of times. -/
theorem Draft.read_positionals {draft : Draft} (hinstruction : draft.instruction = none) (htimes : draft.times = none)
    (t : Text) (n : UInt64) : draft.read ["--".toList, t, Numeral.write n.toNat] =
      some { draft with instruction := some t, times := some n } := by
  rw [Draft.read, if_pos rfl]
  simp [Draft.positional, hinstruction, htimes, numeral_read_write, Except.toOption]

/-- **Each invocation is asked for by its arguments**, if the number of times is of 64 bits. -/
theorem Invocation.read_arguments {i : Invocation} (h : i.times < UInt64.size) : read i.arguments = some i := by
  obtain ⟨instruction, times, seed, budget⟩ := i
  obtain ⟨n, rfl⟩ : ∃ n : UInt64, n.toNat = times := ⟨.ofNat times, UInt64.toNat_ofNat_of_lt' h⟩
  have hbudget (draft : Draft) (hbudget : draft.budget = none) (rest : List Text) :
    draft.read ((budget.map Flag.budget.write).toList ++ rest) = ({ draft with budget } : Draft).read rest := by
    cases budget with
    | none => rw [Option.map_none, Option.toList_none, List.nil_append, ← hbudget]
    | some b => exact Draft.read_write (by simp [Draft.option, numeral_read_write, hbudget]) rest
  have hdraft : Draft.read {} (arguments ⟨instruction, n.toNat, seed, budget⟩) =
      some ⟨some instruction, some n, seed, budget⟩ := by
    rw [arguments]
    cases seed with
    | none =>
      rw [Option.map_none, Option.toList_none, List.nil_append, hbudget _ rfl, Draft.read_positionals rfl rfl]
    | some s =>
      have hseed : Draft.option {} .seed (Numeral.write s.toNat) = some { seed := some s } := by
        simp [Draft.option, numeral_read_write]
      rw [Option.map_some, Option.toList_some, List.singleton_append, Draft.read_write hseed, hbudget _ rfl,
        Draft.read_positionals rfl rfl]
  rw [read, hdraft]
  rfl

/-! ## Repetitions in fresh trays -/

section

variable {σ : Type} [Roller σ]

/-- The tray of a repetition by itself: nothing is booked, the budget is whole, and the roller is the one that so many
repetitions before it leave. -/
def freshTray (t : Text) (budget : Option UInt64) (s : σ) : Nat → Tray σ
  | 0 => ⟨s, 0, budget⟩
  | k + 1 => ⟨((evaluate t).run (freshTray t budget s k)).tray.roller, 0, budget⟩

/-- The result of a repetition by itself. -/
def repetition (t : Text) (budget : Option UInt64) (s : σ) (k : Nat) : Except Fault UInt64 :=
  ((evaluate t).run (freshTray t budget s k)).result

/-- The tray that a repetition leaves is as good as a fresh one. -/
theorem rounds_fresh (filter : Log.Filter) (t : Text) (n : Nat) (tray : Tray σ) (report : Report) :
    rounds filter t n tray report = rounds filter t n ⟨tray.roller, 0, tray.budget⟩ report := by
  cases n with
  | zero => rfl
  | succ n => rw [rounds, rounds, run_evaluate_fresh]

/-! ## The log -/

/-- The default filter shows no line of an evaluation or of a total. -/
theorem render_default {lines : List Log.Line} (h : ∀ line ∈ lines, Log.Level.warn.rank < line.level.rank) :
    Log.Filter.default.render lines = "" := by
  have hnone : lines.filter Log.Filter.default.shows = [] :=
    List.filter_eq_nil_iff.mpr fun line hline => by
      have hrank := h line hline
      have hmost : Log.Filter.default.rankFor line = Log.Level.warn.rank := rfl
      simp only [Log.Filter.shows, hmost, decide_eq_true_eq]
      omega
  rw [Log.Filter.render, hnone]
  rfl

theorem rank_line (event : Event) : Log.Level.warn.rank < event.line.level.rank := by
  cases event <;> exact of_decide_eq_true rfl

theorem render_events (events : List Event) : Log.Filter.default.render (events.map Event.line) = "" := by
  refine render_default fun line hline => ?_
  obtain ⟨event, -, rfl⟩ := List.mem_map.mp hline
  exact rank_line event

theorem render_rolled (events : List Event) (total rolls : UInt64) :
    Log.Filter.default.render (events.map Event.line ++ [Log.rolledLine total rolls]) = "" := by
  refine render_default fun line hline => ?_
  rcases List.mem_append.mp hline with hline | hline
  · obtain ⟨event, -, rfl⟩ := List.mem_map.mp hline
    exact rank_line event
  · rw [List.mem_singleton.mp hline]
    exact of_decide_eq_true rfl

theorem Report.log_empty (report : Report) : report.log "" = report := by
  rw [Report.log, String.append_empty]

/-! ## One repetition and all of them -/

variable {t : Text} {budget : Option UInt64} {s : σ} {k : Nat}

/-- A repetition with a total prints it, and the next one begins in its own fresh tray. -/
theorem rounds_succ_of_ok {total : UInt64} (h : repetition t budget s k = .ok total) (n : Nat) (report : Report) :
    rounds Log.Filter.default t (n + 1) (freshTray t budget s k) report =
      rounds Log.Filter.default t n (freshTray t budget s (k + 1)) (report.print (printed total)) := by
  have hbudget := budget_evaluate t (freshTray t budget s k)
  have hfresh : (freshTray t budget s k).budget = budget := by cases k <;> rfl
  rw [rounds, freshTray]
  rw [repetition] at h
  rcases hrun : (evaluate t).run (freshTray t budget s k) with ⟨fault | total', tray', events⟩
  · rw [hrun] at h
    cases h
  · rw [hrun] at h hbudget
    obtain rfl := Except.ok.inj h
    simp only [render_rolled, Report.log_empty]
    -- the tray still counts the dice of this repetition, and the next one takes them back
    rw [rounds_fresh, hbudget, hfresh]

/-- A repetition with a fault ends the run. -/
theorem rounds_succ_of_error {fault : Fault} (h : repetition t budget s k = .error fault) (n : Nat) (report : Report) :
    rounds Log.Filter.default t (n + 1) (freshTray t budget s k) report = report.fail fault := by
  rw [rounds]
  rw [repetition] at h
  rcases hrun : (evaluate t).run (freshTray t budget s k) with ⟨fault' | total, tray', events⟩
  · rw [hrun] at h
    obtain rfl := Except.error.inj h
    simp only [render_events, Report.log_empty]
  · rw [hrun] at h
    cases h

end

/-! ## What repetitions give -/

/-- These are the first totals. -/
def Given (outcome : Nat → Except Fault UInt64) (totals : List UInt64) : Prop :=
  ∀ k (hk : k < totals.length), outcome k = .ok totals[k]

/-- Totals one behind the other, each with two spaces behind it. -/
def listing (totals : List UInt64) : String := String.join (totals.map fun total => total.toNat.repr ++ "  ")

/-- The report of so many repetitions: their totals and the end of the line, or the totals in front of the first fault,
and that fault. -/
inductive Reports (outcome : Nat → Except Fault UInt64) (times : Nat) : Report → Prop
  | finished (totals : List UInt64) (hlength : totals.length = times) (hgiven : Given outcome totals) :
    Reports outcome times { code := 0, stdout := listing totals ++ "\n", stderr := "" }
  | failed (totals : List UInt64) (fault : Fault) (hlt : totals.length < times) (hgiven : Given outcome totals)
      (hfault : outcome totals.length = .error fault) :
    Reports outcome times { code := 1, stdout := listing totals, stderr := "Error: " ++ fault.message ++ "\n" }

section

variable {outcome : Nat → Except Fault UInt64}

theorem given_nil : Given outcome [] := fun k hk => absurd hk (Nat.not_lt_zero k)

/-- One more total is the next outcome. -/
theorem given_concat {totals : List UInt64} {total : UInt64} :
    Given outcome (totals ++ [total]) ↔ Given outcome totals ∧ outcome totals.length = .ok total := by
  constructor
  · intro h
    refine ⟨fun k hk => ?_, ?_⟩
    · rw [h k (by rw [List.length_append]; omega), List.getElem_append_left hk]
    · rw [h totals.length (by simp), List.getElem_concat_length rfl]
  · rintro ⟨h, hlast⟩ k hk
    rw [List.length_append, List.length_singleton] at hk
    rcases Nat.lt_succ_iff_lt_or_eq.mp hk with hk | rfl
    · rw [h k hk, List.getElem_append_left hk]
    · rw [hlast, List.getElem_concat_length rfl]

/-- **Of two lists of first totals, the shorter one is the beginning of the other.** -/
theorem Given.isPrefix {totals totals' : List UInt64} (h : Given outcome totals) (h' : Given outcome totals')
    (hle : totals.length ≤ totals'.length) : totals <+: totals' := by
  rw [List.prefix_iff_eq_take]
  refine List.ext_getElem (by rw [List.length_take, Nat.min_eq_left hle]) fun k hk hk' => ?_
  rw [List.getElem_take]
  exact Except.ok.inj ((h k hk).symm.trans (h' k (Nat.lt_of_lt_of_le hk hle)))

/-- Where there is a fault, no total is given. -/
theorem Given.length_le {totals : List UInt64} (h : Given outcome totals) {k : Nat} {fault : Fault}
    (hfault : outcome k = .error fault) : totals.length ≤ k := by
  refine Nat.not_lt.mp fun hk => ?_
  rw [h k hk] at hfault
  cases hfault

/-- All of the first outcomes are totals, or they are totals up to a first fault. -/
theorem exists_given (outcome : Nat → Except Fault UInt64) (times : Nat) :
    (∃ totals, totals.length = times ∧ Given outcome totals) ∨
      ∃ totals fault, totals.length < times ∧ Given outcome totals ∧ outcome totals.length = .error fault := by
  induction times with
  | zero => exact Or.inl ⟨[], rfl, given_nil⟩
  | succ times ih =>
    rcases ih with ⟨totals, rfl, hgiven⟩ | ⟨totals, fault, hlt, hgiven, hfault⟩
    · cases hnext : outcome totals.length with
      | error fault => exact Or.inr ⟨totals, fault, Nat.lt_succ_self _, hgiven, hnext⟩
      | ok total => exact Or.inl ⟨totals ++ [total], List.length_append, given_concat.mpr ⟨hgiven, hnext⟩⟩
    · exact Or.inr ⟨totals, fault, Nat.lt_succ_of_lt hlt, hgiven, hfault⟩

theorem listing_append (totals totals' : List UInt64) : listing (totals ++ totals') = listing totals ++ listing totals' := by
  rw [listing, List.map_append, String.join_append]
  rfl

/-- No line ends within a listing. -/
theorem newline_not_mem_listing (totals : List UInt64) : '\n' ∉ (listing totals).toList := by
  intro hm
  rw [listing, String.toList_join, List.mem_flatMap] at hm
  obtain ⟨_, htotal, hm⟩ := hm
  obtain ⟨total, -, rfl⟩ := List.mem_map.mp htotal
  rw [String.toList_append, List.mem_append] at hm
  rcases hm with hm | hm
  · have hwrite : total.toNat.repr = String.ofList (Numeral.write total.toNat) := rfl
    rw [hwrite, String.toList_ofList] at hm
    exact absurd (Numeral.isDigit_of_mem_write hm) (by decide)
  · exact absurd hm (by decide)

/-! ## Runs of the same repetitions -/

namespace Reports

variable {m n : Nat} {short long : Report}

/-- **The line ends if all repetitions have totals.** -/
theorem newline_mem_iff (h : Reports outcome m short) :
    '\n' ∈ short.stdout.toList ↔ ∀ k < m, ∃ total, outcome k = .ok total := by
  cases h with
  | finished totals hlength hgiven =>
    refine ⟨fun _ k hk => ⟨_, hgiven k (hlength ▸ hk)⟩, fun _ => ?_⟩
    rw [String.toList_append]
    exact List.mem_append_right _ (by decide)
  | failed totals fault hlt hgiven hfault =>
    refine ⟨fun hm => absurd hm (newline_not_mem_listing totals), fun hall => ?_⟩
    obtain ⟨total, htotal⟩ := hall _ hlt
    rw [hfault] at htotal
    cases htotal

/-- **What a run without a fault lists, every longer one lists first.** -/
theorem exists_stdout_eq (hle : m ≤ n) (h : Reports outcome m short) (h' : Reports outcome n long) {x : String}
    (hcode : short.code = 0) (hx : short.stdout = x ++ "\n") : ∃ rest, long.stdout = x ++ rest := by
  cases h with
  | failed => cases hcode
  | finished totals hlength hgiven =>
    obtain rfl : listing totals = x := String.append_left_inj "\n" |>.mp hx
    cases h' with
    | finished totals' hlength' hgiven' =>
      obtain ⟨rest, rfl⟩ := hgiven.isPrefix hgiven' (by omega)
      exact ⟨listing rest ++ "\n", by rw [listing_append, String.append_assoc]⟩
    | failed totals' fault hlt hgiven' hfault =>
      obtain ⟨rest, rfl⟩ := hgiven.isPrefix hgiven' (hgiven.length_le hfault)
      exact ⟨listing rest, listing_append totals rest⟩

/-- The outcomes leave no choice of the report. -/
theorem unique {report report' : Report} (h : Reports outcome m report) (h' : Reports outcome m report') :
    report = report' := by
  have hsame {totals totals' : List UInt64} (hgiven : Given outcome totals) (hgiven' : Given outcome totals')
      (hlength : totals.length = totals'.length) : totals = totals' :=
    (hgiven.isPrefix hgiven' (Nat.le_of_eq hlength)).eq_of_length hlength
  cases h with
  | finished totals hlength hgiven =>
    cases h' with
    | finished totals' hlength' hgiven' => rw [hsame hgiven hgiven' (hlength.trans hlength'.symm)]
    | failed totals' fault' hlt' hgiven' hfault' =>
      have := hgiven.length_le hfault'
      omega
  | failed totals fault hlt hgiven hfault =>
    cases h' with
    | finished totals' hlength' hgiven' =>
      have := hgiven'.length_le hfault
      omega
    | failed totals' fault' hlt' hgiven' hfault' =>
      obtain rfl := hsame hgiven hgiven' (Nat.le_antisymm (hgiven.length_le hfault') (hgiven'.length_le hfault))
      obtain rfl := Except.error.inj (hfault.symm.trans hfault')
      rfl

/-- **A run with a fault is the same however many more repetitions are asked for.** -/
theorem eq_of_failed (hle : m ≤ n) (h : Reports outcome m short) (h' : Reports outcome n long)
    (hcode : short.code = 1) : long = short := by
  cases h with
  | finished => cases hcode
  | failed totals fault hlt hgiven hfault => exact h'.unique (.failed totals fault (by omega) hgiven hfault)

end Reports

end

section

variable {σ : Type} [Roller σ] {t : Text} {budget : Option UInt64} {s : σ}

theorem listing_singleton (total : UInt64) : listing [total] = printed total := by
  rw [listing, List.map_singleton, String.join_cons, String.join_nil, String.append_empty]
  rfl

/-- **Totals are listed**, and the repetitions go on behind them. -/
theorem rounds_of_given {totals : List UInt64} (h : Given (repetition t budget s) totals) (n : Nat)
    (report : Report) : rounds Log.Filter.default t (totals.length + n) (freshTray t budget s 0) report =
      rounds Log.Filter.default t n (freshTray t budget s totals.length) (report.print (listing totals)) := by
  -- from the back: the last repetition begins in the tray that all the others leave
  induction totals using List.reverseRecOn generalizing n with
  | nil =>
    have hprint : report.print (listing []) = report := by
      rw [Report.print, listing, List.map_nil, String.join_nil, String.append_empty]
    rw [hprint, List.length_nil, Nat.zero_add]
  | append_singleton totals total ih =>
    obtain ⟨hgiven, hlast⟩ := given_concat.mp h
    have hprint : (report.print (listing totals)).print (printed total) = report.print (listing (totals ++ [total])) := by
      rw [listing_append, listing_singleton, Report.print, Report.print, Report.print, String.append_assoc]
    rw [List.length_append, List.length_singleton, Nat.add_assoc, Nat.add_comm 1, ih hgiven, rounds_succ_of_ok hlast,
      hprint]

/-- **A run reports what its repetitions come to.** -/
theorem reports_rounds (t : Text) (budget : Option UInt64) (s : σ) (times : Nat) :
    Reports (repetition t budget s) times (rounds Log.Filter.default t times ⟨s, 0, budget⟩ {}) := by
  have hstart : (⟨s, 0, budget⟩ : Tray σ) = freshTray t budget s 0 := rfl
  have hempty (totals : List UInt64) : Report.print {} (listing totals) = { stdout := listing totals } := by
    rw [Report.print, String.empty_append]
  rcases exists_given (repetition t budget s) times with ⟨totals, rfl, hgiven⟩ | ⟨totals, fault, hlt, hgiven, hfault⟩
  · have hrounds := rounds_of_given hgiven 0 {}
    rw [Nat.add_zero, hempty] at hrounds
    rw [hstart, hrounds]
    exact .finished totals rfl hgiven
  · obtain ⟨n, rfl⟩ := Nat.exists_eq_add_of_lt hlt
    rw [hstart, Nat.add_assoc, rounds_of_given hgiven, rounds_succ_of_error hfault, hempty, Report.fail, Report.log,
      String.empty_append]
    exact .failed totals fault hlt hgiven hfault

end

/-! ## The program -/

/-- With the log filter not set, a run is that of the repetitions of its invocation. -/
theorem reports_run {args : List Text} {invocation : Invocation} (h : Invocation.read args = some invocation)
    (entropy : UInt64) : Reports (repetition invocation.instruction invocation.budget
      (ChaCha.Generator.ofSeed (invocation.seed.getD entropy))) invocation.times (run args none entropy) := by
  have hrun : run args none entropy = rounds Log.Filter.default invocation.instruction invocation.times
      ⟨ChaCha.Generator.ofSeed (invocation.seed.getD entropy), 0, invocation.budget⟩ {} := by
    simp only [run, h]
    rfl
  rw [hrun]
  exact reports_rounds ..

/-- **Repetitions go on where shorter runs end.** A run, with the log filter not set, reports the results of evaluations in
fresh trays: each has the whole budget and the roller that the ones in front of it leave. The totals are listed and the
line ends if there is no fault among them; the first fault ends the run. What a run without a fault lists, every longer
run lists first. A run with a fault is the same however many more repetitions are asked for. -/
theorem repetitions_prefix_stable {args args' : List Text} {instruction : Text} {m n : Nat} {seed budget : Option UInt64}
    {entropy entropy' : UInt64} (hle : m ≤ n) (hargs : Invocation.read args = some ⟨instruction, m, seed, budget⟩)
    (hargs' : Invocation.read args' = some ⟨instruction, n, seed, budget⟩)
    (hseed : seed.getD entropy = seed.getD entropy') :
    let short := run args none entropy
    let long := run args' none entropy'
    let outcome := repetition instruction budget (ChaCha.Generator.ofSeed (seed.getD entropy))
    Reports outcome m short ∧
    ('\n' ∈ short.stdout.toList ↔ ∀ k < m, ∃ total, outcome k = .ok total) ∧
    (∀ x, short.code = 0 → short.stdout = x ++ "\n" → ∃ rest, long.stdout = x ++ rest) ∧
    (short.code = 1 → long = short) := by
  intro short long outcome
  have hshort : Reports outcome m short := reports_run hargs entropy
  have hlong : Reports outcome n long := by
    have h := reports_run hargs' entropy'
    rwa [← hseed] at h
  exact ⟨hshort, hshort.newline_mem_iff, fun _ => hshort.exists_stdout_eq hle hlong, hshort.eq_of_failed hle hlong⟩

/-- With the seed `1`, the first die of `6/(d6-2)` shows a five. -/
theorem repetitions_prefix_stable_quotient :
    let args (times : Nat) := Invocation.arguments ⟨"6/(d6-2)".toList, times, some 1, some 1⟩
    run (args 1) none 0 = { code := 0, stdout := "2  \n" } ∧ ∃ rest, (run (args 3) none 0).stdout = "2  " ++ rest := by
  let sides : Atom := .numeral (.ofNat 6)
  let inside : Expression := (Chain.single (.die sides)).snoc .subtract (.atom (.numeral (.ofNat 2)))
  let e : Expression := (Chain.single (.atom sides)).snoc .divide (.atom (.group inside))
  have htext : e.text = "6/(d6-2)".toList := by decide
  have hfirst : repetition "6/(d6-2)".toList (some 1) (ChaCha.Generator.ofSeed 1) 0 = .ok 2 := by
    rw [← htext]
    have hmute : repetition e.text (some 1) (ChaCha.Generator.ofSeed 1) 0 =
        (e.evaluate.run ⟨ChaCha.Generator.ofSeed 1, 0, some 1⟩).result := by
      rw [← mute_evaluate_text]
      rfl
    rw [hmute]
    decide +kernel
  intro args
  have hargs : Invocation.read (args 1) = some ⟨_, 1, some 1, some 1⟩ := Invocation.read_arguments (by decide)
  have hargs' : Invocation.read (args 3) = some ⟨_, 3, some 1, some 1⟩ := Invocation.read_arguments (by decide)
  have hseed : (some 1 : Option UInt64).getD 0 = (some 1 : Option UInt64).getD 0 := rfl
  obtain ⟨hreports, -, hprefix, -⟩ := repetitions_prefix_stable (by decide) hargs hargs' hseed
  have hrun := hreports.unique (.finished [2] rfl (given_concat.mpr ⟨given_nil, hfirst⟩))
  refine ⟨hrun, hprefix "2  " ?_ ?_⟩
  · exact congrArg Report.code hrun
  · exact congrArg Report.stdout hrun

end Command

end TabletopDice
