/-!
# Texts

A text is a list of characters, and a place in it is counted in UTF-8 bytes.

- `byteSize` measures a text and adds up over `++` (`byteSize_append`);
- `takeBytes` and `dropBytes` cut a text at a place (`takeBytes_append_dropBytes`);
- `cut?` splits a text at the first occurrence of a character: the two parts around that character give the
  text back (`eq_of_cut?`), the first part is free of it (`not_mem_of_cut?`), and only a text without the
  character has no cut (`cut?_eq_none_iff`).
-/

namespace TabletopDice

/-- Text as the list of its characters. -/
abbrev Text := List Char

namespace Text

/-- The number of bytes that a text takes in UTF-8. -/
def byteSize (t : Text) : Nat := t.foldr (fun c n => c.utf8Size + n) 0

@[simp] theorem byteSize_nil : byteSize [] = 0 := rfl

@[simp] theorem byteSize_cons (c : Char) (t : Text) : byteSize (c :: t) = c.utf8Size + byteSize t := rfl

@[simp] theorem byteSize_append (s t : Text) : byteSize (s ++ t) = byteSize s + byteSize t := by
  induction s with
  | nil => simp
  | cons c rest ih => rw [List.cons_append, byteSize_cons, byteSize_cons, ih, Nat.add_assoc]

/-- The text behind its first `n` bytes. -/
def dropBytes : Nat → Text → Text
  | 0, t => t
  | _, [] => []
  | n, c :: rest => dropBytes (n - c.utf8Size) rest

/-- The first `n` bytes of a text. -/
def takeBytes : Nat → Text → Text
  | 0, _ => []
  | _, [] => []
  | n, c :: rest => c :: takeBytes (n - c.utf8Size) rest

/-- The parts before and after the first `mark`. -/
def cut? (mark : Char) : Text → Option (Text × Text)
  | [] => none
  | c :: rest =>
    if c = mark then some ([], rest)
    else (cut? mark rest).map fun parts => (c :: parts.1, parts.2)

/-- The two sides of a place are the text. -/
theorem takeBytes_append_dropBytes : ∀ (n : Nat) (t : Text), takeBytes n t ++ dropBytes n t = t
  | 0, _ => by simp [takeBytes, dropBytes]
  | _ + 1, [] => rfl
  | n + 1, c :: rest => by
    simpa [takeBytes, dropBytes] using takeBytes_append_dropBytes (n + 1 - c.utf8Size) rest

/-- The parts of a cut and the mark between them are the text. -/
theorem eq_of_cut? {mark : Char} : ∀ {t left right : Text},
    cut? mark t = some (left, right) → t = left ++ mark :: right
  | [], _, _, h => by cases h
  | c :: rest, left, right, h => by
    simp only [cut?] at h
    split at h
    · obtain ⟨rfl, rfl⟩ := Prod.mk.injEq .. ▸ Option.some.inj h
      simp [*]
    · obtain ⟨⟨l, r⟩, hr, e⟩ := Option.map_eq_some_iff.mp h
      obtain ⟨rfl, rfl⟩ := Prod.mk.injEq .. ▸ e
      simp [eq_of_cut? hr]

/-- The part before a cut is free of the mark. -/
theorem not_mem_of_cut? {mark : Char} : ∀ {t left right : Text}, cut? mark t = some (left, right) → mark ∉ left
  | [], _, _, h => by cases h
  | c :: rest, left, right, h => by
    simp only [cut?] at h
    split at h
    · obtain ⟨rfl, rfl⟩ := Prod.mk.injEq .. ▸ Option.some.inj h
      simp
    · rename_i hc
      obtain ⟨⟨l, r⟩, hr, e⟩ := Option.map_eq_some_iff.mp h
      obtain ⟨rfl, rfl⟩ := Prod.mk.injEq .. ▸ e
      simp [not_mem_of_cut? hr, Ne.symm hc]

/-- A text can be cut unless the mark does not occur in it. -/
theorem cut?_eq_none_iff {mark : Char} {t : Text} : cut? mark t = none ↔ mark ∉ t := by
  induction t with
  | nil => simp [cut?]
  | cons c rest ih => by_cases hc : c = mark <;> simp [cut?, hc, ih, Ne.symm]

end Text
end TabletopDice
