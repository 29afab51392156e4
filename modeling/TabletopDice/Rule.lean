import TabletopDice.Lexeme
import TabletopDice.Numeral

/-!
# Reduction rules

A rule replaces a short row of lexemes by a number. There are five, tried in a fixed order (`Rule.priority`):
first dice, then `*`, `/`, `+` and `-`. The first rule that occurs anywhere in a buffer applies, and it applies
to its leftmost occurrence.

- `Rule.find?` finds the leftmost occurrence: it splits the row (`row_eq_of_find?`) around at least two live
  lexemes (`two_le_live_of_find?`);
- `Match.replace` puts an integer in the place of an occurrence. The outcome has fewer live lexemes than the
  buffer (`live_replace_lt`), so reductions come to an end.
-/

namespace TabletopDice

/-- The arithmetic operators. -/
inductive Operator
  | multiply
  | divide
  | add
  | subtract
  deriving DecidableEq, Repr

/-- The character that writes an operator. -/
def Operator.mark : Operator → Char
  | .multiply => '*'
  | .divide => '/'
  | .add => '+'
  | .subtract => '-'

/-- Dice are rolled, and operators are applied to two numerals. -/
inductive Rule
  | dice
  | binary (op : Operator)
  deriving DecidableEq, Repr

/-- An occurrence of a rule in a row of lexemes. -/
structure Match where
  before : List Lexeme
  matched : List Lexeme
  after : List Lexeme
  deriving DecidableEq, Repr

namespace Match

/-- The text of the occurrence. -/
def text (m : Match) : Text := join m.matched

/-- The place of the occurrence. -/
def span (m : Match) : Span :=
  let start := (join m.before).byteSize
  ⟨start, start + m.text.byteSize⟩

/-- The text with an integer in the place of the occurrence. -/
def replace (m : Match) (value : Int) : Text := join m.before ++ Numeral.writeInt value ++ join m.after

end Match

namespace Rule

/-- The name of a rule in reports. -/
def name : Rule → String
  | dice => "dice roll"
  | binary .multiply => "multiply"
  | binary .divide => "divide"
  | binary .add => "add"
  | binary .subtract => "subtract"

/-- The rules in the order in which they are tried. -/
def priority : List Rule := [dice, binary .multiply, binary .divide, binary .add, binary .subtract]

/-- The lexemes that a rule takes from the front of a row, and the lexemes behind them: a `d` and a numeral,
after another numeral or none, for dice; an operator between two numerals otherwise. -/
def head? : Rule → List Lexeme → Option (List Lexeme × List Lexeme)
  | dice, .numeral count :: .mark c :: .numeral sides :: rest =>
    if c = 'd' then some ([.numeral count, .mark c, .numeral sides], rest) else none
  | dice, .mark c :: .numeral sides :: rest =>
    if c = 'd' then some ([.mark c, .numeral sides], rest) else none
  | binary op, .numeral left :: .mark c :: .numeral right :: rest =>
    if c = op.mark then some ([.numeral left, .mark c, .numeral right], rest) else none
  | _, _ => none

/-- The leftmost occurrence of a rule. -/
def find? (rule : Rule) : List Lexeme → Option Match
  | [] => none
  | x :: rest =>
    match rule.head? (x :: rest) with
    | some (matched, after) => some ⟨[], matched, after⟩
    | none => (rule.find? rest).map fun m => { m with before := x :: m.before }

/-- The leftmost occurrence of a rule in a text. -/
def occurrence? (rule : Rule) (t : Text) : Option Match := rule.find? (lexemes t)

/-! ## What is found -/

/-- What a rule takes stands in front. -/
theorem row_eq_of_head? {rule : Rule} {row matched after : List Lexeme}
    (h : rule.head? row = some (matched, after)) : row = matched ++ after := by
  fun_cases head? rule row <;> simp_all [head?] <;> simp [← h]

/-- A rule takes two live lexemes or more. -/
theorem two_le_live_of_head? {rule : Rule} {row matched after : List Lexeme}
    (h : rule.head? row = some (matched, after)) : 2 ≤ live matched := by
  fun_cases head? rule row <;> simp_all [head?] <;> simp [← h, live_cons, Lexeme.isLive]

/-- An occurrence splits the row. -/
theorem row_eq_of_find? {rule : Rule} : ∀ {row : List Lexeme} {m : Match}, rule.find? row = some m →
    row = m.before ++ m.matched ++ m.after
  | [], _, h => by cases h
  | x :: rest, m, h => by
    simp only [find?] at h
    split at h
    · rename_i hh
      obtain rfl := Option.some.inj h
      exact row_eq_of_head? hh
    · obtain ⟨m', hm, rfl⟩ := Option.map_eq_some_iff.mp h
      simp [row_eq_of_find? hm]

/-- An occurrence has two live lexemes or more. -/
theorem two_le_live_of_find? {rule : Rule} : ∀ {row : List Lexeme} {m : Match}, rule.find? row = some m →
    2 ≤ live m.matched
  | [], _, h => by cases h
  | x :: rest, m, h => by
    simp only [find?] at h
    split at h
    · rename_i hh
      obtain rfl := Option.some.inj h
      exact two_le_live_of_head? hh
    · obtain ⟨m', hm, rfl⟩ := Option.map_eq_some_iff.mp h
      exact two_le_live_of_find? (m := m') hm

end Rule

/-! ## Replacing an occurrence -/

/-- A written integer has one live lexeme. -/
theorem live_lexemes_writeInt (value : Int) : live (lexemes (Numeral.writeInt value)) = 1 := by
  have h : lexemes (Numeral.write value.natAbs) = [.numeral (Numeral.write value.natAbs)] :=
    lexemes_digits (Numeral.write_ne_nil _) fun _ hc => Numeral.isDigit_of_mem_write hc
  rcases Numeral.writeInt_eq value with e | e <;> rw [e]
  · rw [h]; rfl
  · rw [lexemes_cons, h]; rfl

/-- Replacing an occurrence by an integer leaves fewer live lexemes. -/
theorem live_replace_lt {rule : Rule} {t : Text} {m : Match} (h : rule.occurrence? t = some m) (value : Int) :
    live (lexemes (m.replace value)) < live (lexemes t) := by
  have hrow := Rule.row_eq_of_find? h
  have htwo := Rule.two_le_live_of_find? h
  have hproper : ∀ x ∈ m.before ++ m.matched ++ m.after, x.Proper := hrow ▸ proper_of_mem_lexemes
  have hbefore : live (lexemes (join m.before)) ≤ live m.before :=
    live_lexemes_join_le fun x hx => hproper x (by simp [hx])
  have hafter : live (lexemes (join m.after)) ≤ live m.after :=
    live_lexemes_join_le fun x hx => hproper x (by simp [hx])
  have h₁ := live_lexemes_append_le (join m.before) (Numeral.writeInt value)
  have h₂ := live_lexemes_append_le (join m.before ++ Numeral.writeInt value) (join m.after)
  have hone := live_lexemes_writeInt value
  rw [hrow]
  simp only [Match.replace, live_append]
  omega

end TabletopDice
