import TabletopDice.Numeral

/-!
# Groups

A group is a `(`, a text without parentheses, and a `)`. `Group.find?` finds the leftmost one; parentheses
that match nothing do not hide it.

- `eq_of_find?`: a group found stands in the text, and `not_paren_of_find?`: its inside has no parentheses;
- `count_replace_lt`: putting a number in the place of a group takes a `(` away, so groups come to an end.
-/

namespace TabletopDice

/-- A group and what stands around it. -/
structure Group where
  before : Text
  inside : Text
  after : Text
  deriving DecidableEq, Repr

namespace Group

/-- The group with its parentheses. -/
def text (g : Group) : Text := '(' :: (g.inside ++ [')'])

/-- The byte offset of the opening parenthesis. -/
def start (g : Group) : Nat := g.before.byteSize

/-- The byte offset behind the closing parenthesis. -/
def stop (g : Group) : Nat := g.start + g.text.byteSize

/-- The text with a number in the place of the group. -/
def replace (g : Group) (value : UInt64) : Text := g.before ++ Numeral.write value.toNat ++ g.after

/-- Both parentheses. -/
def isParen (c : Char) : Bool := c = '(' || c = ')'

/-- The inside of a group that has just been opened, and the text after it. -/
def close? (t : Text) : Option (Text × Text) :=
  match t.dropWhile fun c => !isParen c with
  | ')' :: after => some (t.takeWhile fun c => !isParen c, after)
  | _ => none

/-- The leftmost group. -/
def find? : Text → Option Group
  | [] => none
  | c :: rest =>
    match if c = '(' then close? rest else none with
    | some (inside, after) => some ⟨[], inside, after⟩
    | none => (find? rest).map fun g => { g with before := c :: g.before }

/-! ## What is found -/

/-- The inside, its closing parenthesis and the rest are the text. -/
theorem eq_of_close? {t inside after : Text} (h : close? t = some (inside, after)) :
    t = inside ++ ')' :: after := by
  unfold close? at h
  split at h
  · rename_i rest hd
    obtain ⟨rfl, rfl⟩ := Prod.mk.injEq .. ▸ Option.some.inj h
    rw [← hd, List.takeWhile_append_dropWhile]
  · cases h

/-- The inside has no parentheses. -/
theorem not_paren_of_close? {t inside after : Text} (h : close? t = some (inside, after)) :
    ∀ c ∈ inside, isParen c = false := by
  unfold close? at h
  split at h
  · obtain ⟨rfl, rfl⟩ := Prod.mk.injEq .. ▸ Option.some.inj h
    intro c hc
    simpa using List.all_eq_true.mp (List.all_takeWhile (p := fun c => !isParen c)) c hc
  · cases h

/-- A group found stands in the text. -/
theorem eq_of_find? : ∀ {t : Text} {g : Group}, find? t = some g → t = g.before ++ g.text ++ g.after
  | [], _, h => by cases h
  | c :: rest, g, h => by
    simp only [find?] at h
    split at h
    · rename_i inside after hc
      obtain rfl := Option.some.inj h
      split at hc
      · simp [text, eq_of_close? hc, *]
      · cases hc
    · obtain ⟨g', hg, rfl⟩ := Option.map_eq_some_iff.mp h
      simp [eq_of_find? hg, text]

/-- The inside of a group found has no parentheses. -/
theorem not_paren_of_find? : ∀ {t : Text} {g : Group}, find? t = some g → ∀ c ∈ g.inside, isParen c = false
  | [], _, h => by cases h
  | c :: rest, g, h => by
    simp only [find?] at h
    split at h
    · rename_i inside after hc
      obtain rfl := Option.some.inj h
      split at hc
      · exact not_paren_of_close? hc
      · cases hc
    · obtain ⟨g', hg, rfl⟩ := Option.map_eq_some_iff.mp h
      exact not_paren_of_find? (g := g') hg

/-- A written number has no parentheses. -/
theorem count_paren_write (n : Nat) : (Numeral.write n).count '(' = 0 := by
  rw [List.count_eq_zero]
  intro h
  have := Numeral.isDigit_of_mem_write h
  simp [Char.isDigit] at this

/-- A number in the place of a group takes a `(` away. -/
theorem count_replace_lt {t : Text} {g : Group} (h : find? t = some g) (value : UInt64) :
    (g.replace value).count '(' < t.count '(' := by
  rw [eq_of_find? h]
  simp only [replace, text, List.count_append, List.count_cons, count_paren_write, beq_self_eq_true, if_true]
  omega

end Group
end TabletopDice
