import TabletopDice.Lexeme

/-!
# Texts as strings of bytes

A string is held in UTF-8, and a span of byte offsets cuts it only if both offsets lie between characters.

- `Span.Fits` says so. A string is cut at a span (`Span.slice?`), and another one is put there (`Span.splice?`), if the
  span fits and the outcome is UTF-8 again. A span is `Usable` if both can be done;
- the span of a part of a text is usable, whatever characters the text has (`Span.usable_behind`): it is cut there into
  that part (`Span.slice?_behind`), and another one takes its place (`Span.splice?_behind`).
-/

namespace TabletopDice

/-- A span at which a string can be cut: it does not end before it begins, and both ends lie between characters. -/
structure Span.Fits (span : Span) (s : String) : Prop where
  le : span.start ≤ span.stop
  start : (⟨span.start⟩ : String.Pos.Raw).IsValid s
  stop : (⟨span.stop⟩ : String.Pos.Raw).IsValid s

namespace Span

instance (span : Span) (s : String) : Decidable (span.Fits s) :=
  decidable_of_iff (span.start ≤ span.stop ∧ (⟨span.start⟩ : String.Pos.Raw).IsValid s ∧
    (⟨span.stop⟩ : String.Pos.Raw).IsValid s) ⟨fun h => ⟨h.1, h.2.1, h.2.2⟩, fun h => ⟨h.le, h.start, h.stop⟩⟩

/-- The string at a span, if there is one. -/
def slice? (span : Span) (s : String) : Option String :=
  if span.Fits s then String.fromUTF8? (s.toByteArray.extract span.start span.stop) else none

/-- The string with another one at a span, if it can be put there. -/
def splice? (span : Span) (s new : String) : Option String :=
  if span.Fits s then
    String.fromUTF8? (s.toByteArray.extract 0 span.start ++ new.toByteArray ++
      s.toByteArray.extract span.stop s.utf8ByteSize)
  else none

/-- A span within a string at which it can be cut and written to. -/
structure Usable (span : Span) (s : String) : Prop extends span.Fits s where
  within : span.stop ≤ s.utf8ByteSize
  slice : (span.slice? s).isSome
  splice : ∀ new, (span.splice? s new).isSome

/-- The span of a part of a text that stands behind another part. -/
def behind (front part : Text) : Span := ⟨front.byteSize, front.byteSize + part.byteSize⟩

end Span

theorem utf8ByteSize_ofList (t : Text) : (String.ofList t).utf8ByteSize = t.byteSize := by
  induction t with
  | nil => rfl
  | cons c t ih =>
    have hcons : String.ofList (c :: t) = String.ofList [c] ++ String.ofList t := by
      rw [← String.ofList_append]; rfl
    have hone : (String.ofList [c]).utf8ByteSize = c.utf8Size := by
      rw [← String.singleton_eq_ofList, String.utf8ByteSize_singleton]
    rw [hcons, String.utf8ByteSize_append, hone, ih, Text.byteSize_cons]

theorem size_toByteArray_ofList (t : Text) : (String.ofList t).toByteArray.size = t.byteSize := by
  rw [String.size_toByteArray, utf8ByteSize_ofList]

theorem fromUTF8?_toByteArray (s : String) : String.fromUTF8? s.toByteArray = some s := by
  rw [String.fromUTF8?, dif_pos s.isValidUTF8]
  rfl

/-- Between two parts of a text lies no character. -/
theorem isValid_byteSize (a b : Text) : (⟨a.byteSize⟩ : String.Pos.Raw).IsValid (String.ofList (a ++ b)) := by
  refine String.Pos.Raw.isValid_iff_exists_append.mpr ⟨String.ofList a, String.ofList b, String.ofList_append, ?_⟩
  rw [String.Pos.Raw.ext_iff, String.byteIdx_rawEndPos, utf8ByteSize_ofList]

namespace Span

/-- The span of a part fits. -/
theorem fits_behind (a b c : Text) : (behind a b).Fits (String.ofList (a ++ b ++ c)) where
  le := Nat.le_add_right _ _
  start := by
    rw [List.append_assoc]
    exact isValid_byteSize a (b ++ c)
  stop := by
    have h := isValid_byteSize (a ++ b) c
    rwa [Text.byteSize_append] at h

/-- **At the span of a part stands that part.** -/
theorem slice?_behind (a b c : Text) : (behind a b).slice? (String.ofList (a ++ b ++ c)) = some (String.ofList b) := by
  have hbytes : (String.ofList (a ++ b ++ c)).toByteArray.extract a.byteSize (a.byteSize + b.byteSize) =
      (String.ofList b).toByteArray := by
    rw [List.append_assoc, String.ofList_append, String.toByteArray_append, ← size_toByteArray_ofList a,
      ← Nat.add_zero (String.ofList a).toByteArray.size, Nat.add_assoc, ByteArray.extract_append_size_add,
      String.ofList_append, String.toByteArray_append, Nat.zero_add]
    exact ByteArray.extract_append_eq_left (size_toByteArray_ofList b).symm
  rw [slice?, if_pos (fits_behind a b c), behind, hbytes, fromUTF8?_toByteArray]

-- a cut inside of a character has no outcome
example : (⟨1, 2⟩ : Span).slice? (String.ofList ['é']) = none := by decide

/-- **In the place of a part, any text can be put.** -/
theorem splice?_behind (a b c new : Text) : (behind a b).splice? (String.ofList (a ++ b ++ c)) (String.ofList new) =
    some (String.ofList (a ++ new ++ c)) := by
  have hfront : (String.ofList (a ++ b ++ c)).toByteArray.extract 0 a.byteSize = (String.ofList a).toByteArray := by
    rw [List.append_assoc, String.ofList_append, String.toByteArray_append]
    exact ByteArray.extract_append_eq_left (size_toByteArray_ofList a).symm
  have hback : (String.ofList (a ++ b ++ c)).toByteArray.extract (a.byteSize + b.byteSize)
      (String.ofList (a ++ b ++ c)).utf8ByteSize = (String.ofList c).toByteArray := by
    have hsplit : String.ofList (a ++ b ++ c) = String.ofList (a ++ b) ++ String.ofList c := String.ofList_append
    rw [hsplit, String.toByteArray_append]
    refine ByteArray.extract_append_eq_right ?_ ?_
    · rw [size_toByteArray_ofList, Text.byteSize_append]
    · rw [String.utf8ByteSize_append, String.size_toByteArray, String.size_toByteArray]
  rw [splice?, if_pos (fits_behind a b c), behind, hfront, hback, ← String.toByteArray_append,
    ← String.toByteArray_append, fromUTF8?_toByteArray, String.ofList_append, String.ofList_append]

/-- **The span of a part is usable.** -/
theorem usable_behind (a b c : Text) : (behind a b).Usable (String.ofList (a ++ b ++ c)) where
  toFits := fits_behind a b c
  within := (fits_behind a b c).stop.le_utf8ByteSize
  slice := by rw [slice?_behind]; rfl
  splice new := by rw [← String.ofList_toList (s := new), splice?_behind]; rfl

end Span
end TabletopDice
