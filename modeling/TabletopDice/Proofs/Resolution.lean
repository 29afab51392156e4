import TabletopDice.Evaluation
import TabletopDice.Proofs.Nesting
import TabletopDice.Proofs.Pass

/-!
# The resolution of groups is a structural recursion

`resolveGroups` looks for the leftmost group again and again. Here it is compared with `Nest.resolve`, which walks the
matched parentheses of a text from the left, the inside of each group first.

- Within any context, the leftmost groups are those of the nest until all of them are resolved
  (`resolveGroups_context`);
- `Nest.fill` puts values in the places of groups in the order in which these close. The next group to be found is the
  next one to be filled (`nextGroup_fill`), so resolution stops with the groups filled up to the one that has no value
  (`resolveGroups_fill`).

Both together are the main statement, `resolveGroups_eq_resolve`. Other proofs about the loop follow the groups as they
are resolved (`group_induction`).
-/

namespace TabletopDice

/-! ## Filled nests -/

namespace Nest

/-- The number of groups. -/
def groups : Nest → Nat
  | empty => 0
  | char front _ => front.groups
  | group front inside => front.groups + inside.groups + 1

/-- The text with values in the places of groups. Groups take the values in the order in which they close; those
behind the last value stay as they are. -/
def fill : Nest → List UInt64 → Text
  | empty, _ => []
  | char front c, values => front.fill values ++ [c]
  | group front inside, values =>
    let rest := values.drop front.groups
    front.fill values ++
      match rest[inside.groups]? with
      | some value => Numeral.write value.toNat
      | none => '(' :: (inside.fill rest ++ [')'])

@[simp] theorem fill_nil (n : Nest) : n.fill [] = n.spell := by
  induction n with
  | empty => rfl
  | char n c ih => simp [fill, spell, ih]
  | group n inside ih ih' => simp [fill, spell, ih, ih']

theorem fill_group_of_lt {front inside : Nest} {values : List UInt64} {value : UInt64}
    (h : (values.drop front.groups)[inside.groups]? = some value) :
    (front.group inside).fill values = front.fill values ++ Numeral.write value.toNat := by
  simp [fill, h]

/-- A group without a value stays, with its inside filled. -/
theorem fill_group_of_le {front inside : Nest} {values : List UInt64}
    (h : (values.drop front.groups).length ≤ inside.groups) :
    (front.group inside).fill values =
      front.fill values ++ '(' :: (inside.fill (values.drop front.groups) ++ [')']) := by
  simp [fill, List.getElem?_eq_none h]

/-- While a group in front of it is without a value, a group stays as it is. -/
theorem fill_group_of_front {front inside : Nest} {values : List UInt64} (h : values.length ≤ front.groups) :
    (front.group inside).fill values = front.fill values ++ '(' :: (inside.spell ++ [')']) := by
  have hdrop : values.drop front.groups = [] := List.drop_eq_nil_of_le h
  rw [fill_group_of_le (by rw [hdrop]; exact Nat.zero_le _), hdrop, fill_nil]

/-- Values behind those for all groups are not used. -/
theorem fill_append {n : Nest} {values : List UInt64} (h : n.groups ≤ values.length) (more : List UInt64) :
    n.fill (values ++ more) = n.fill values := by
  induction n generalizing values with
  | empty => rfl
  | char n c ih => rw [fill, fill, ih h]
  | group front inside ih ih' =>
    simp only [groups] at h
    have hdrop : (values ++ more).drop front.groups = values.drop front.groups ++ more :=
      List.drop_append_of_le_length (by omega)
    have hlt : inside.groups < (values.drop front.groups).length := by rw [List.length_drop]; omega
    simp only [fill, hdrop, ih (by omega : front.groups ≤ values.length), List.getElem?_append_left hlt]
    rw [List.getElem?_eq_getElem hlt]

theorem filter_write (n : Nat) : (Numeral.write n).filter Group.isParen = [] := by
  rw [List.filter_eq_nil_iff]
  intro c hc
  simp [Group.isParen_of_isDigit (Numeral.isDigit_of_mem_write hc)]

/-- With all groups filled, the parentheses outside of groups are left. -/
theorem filter_fill {n : Nest} {values : List UInt64} (h : n.groups ≤ values.length) :
    (n.fill values).filter Group.isParen = n.outside.filter Group.isParen := by
  induction n with
  | empty => rfl
  | char n c ih => rw [fill, outside, List.filter_append, List.filter_append, ih h]
  | group front inside ih _ =>
    simp only [groups] at h
    have hlt : inside.groups < (values.drop front.groups).length := by rw [List.length_drop]; omega
    rw [fill_group_of_lt (List.getElem?_eq_getElem hlt), List.filter_append, ih (by omega), outside]
    simp [filter_write]

theorem loose_fill {n : Nest} {u : Text} (hu : Loose (u ++ n.outside)) {values : List UInt64}
    (h : n.groups ≤ values.length) : Loose (u ++ n.fill values) := by
  rw [← loose_filter, List.filter_append, filter_fill h, ← List.filter_append, loose_filter]
  exact hu

/-- A text with the parentheses of a nest outside of its groups has none, if all of them match. -/
theorem Closed.not_isParen {n : Nest} (hn : n.Closed) {t : Text}
    (h : t.filter Group.isParen = n.outside.filter Group.isParen) : ∀ c ∈ t, Group.isParen c = false := by
  have houtside : n.outside.filter Group.isParen = [] :=
    List.filter_eq_nil_iff.mpr fun c hc => by simp [hn.outside c hc]
  rw [houtside] at h
  intro c hc
  simpa using List.filter_eq_nil_iff.mp h c hc

/-- A `(` behind a loose text, and an inside whose parentheses match, are loose. -/
theorem loose_opened {front : Text} (hfront : Loose front) {inside : Nest} (hinside : inside.Closed) :
    Loose (front ++ ['('] ++ inside.outside) := by
  have hright : ')' ∉ inside.outside := fun hm => absurd (hinside.outside _ hm) (by decide)
  rw [loose_append, loose_append]
  exact ⟨⟨hfront, loose_of_not_mem_right (by simp), fun _ => by simp⟩, loose_of_not_mem_right hright, fun _ => hright⟩

/-- In a context, the next group of a text is found, and a value in its place leaves the next text. -/
def NextGroup (u t w : Text) (next : UInt64 → Text) : Prop :=
  ∃ g : Group, Group.find? (u ++ t ++ w) = some ⟨u ++ g.before, g.inside, g.after ++ w⟩ ∧
    ∀ value, g.replace value = next value

theorem NextGroup.append_right {u t x w : Text} {next : UInt64 → Text} (h : NextGroup u t (x ++ w) next) :
    NextGroup u (t ++ x) w fun value => next value ++ x := by
  obtain ⟨g, hfind, hnext⟩ := h
  refine ⟨⟨g.before, g.inside, g.after ++ x⟩, by simpa using hfind, fun value => ?_⟩
  simp [← hnext, Group.replace]

theorem NextGroup.append_left {u t x w : Text} {next : UInt64 → Text} (h : NextGroup (u ++ x) t w next) :
    NextGroup u (x ++ t) w fun value => x ++ next value := by
  obtain ⟨g, hfind, hnext⟩ := h
  refine ⟨⟨x ++ g.before, g.inside, g.after⟩, by simpa using hfind, fun value => ?_⟩
  simp [← hnext, Group.replace]

/-- **The next group to be found is the next one to be filled**, in any context that is loose on the left. -/
theorem nextGroup_fill {n : Nest} (hn : n.Tidy) {u : Text} (hu : Loose (u ++ n.outside)) {values : List UInt64}
    (hlt : values.length < n.groups) (w : Text) :
    NextGroup u (n.fill values) w fun value => n.fill (values ++ [value]) := by
  induction n generalizing u values w with
  | empty => exact absurd hlt (Nat.not_lt_zero _)
  | char n c ih =>
    rw [outside, ← List.append_assoc, loose_append] at hu
    exact (ih hn hu.1 hlt ([c] ++ w)).append_right
  | group front inside ih ih' =>
    rw [groups] at hlt
    rcases Nat.lt_or_ge values.length front.groups with hfront | hfront
    · -- the next group is one of those in front
      have hnext : ∀ value, (front.group inside).fill (values ++ [value]) =
          front.fill (values ++ [value]) ++ '(' :: (inside.spell ++ [')']) := fun value =>
        fill_group_of_front (by rw [List.length_append]; exact hfront)
      rw [fill_group_of_front (Nat.le_of_lt hfront)]
      simp only [hnext]
      exact (ih hn.1 hu hfront _).append_right
    · rw [outside] at hu
      have hloose := loose_fill hu hfront
      have hrest : (values.drop front.groups).length ≤ inside.groups := by rw [List.length_drop]; omega
      have hmore : ∀ value, (values ++ [value]).drop front.groups = values.drop front.groups ++ [value] := fun value =>
        List.drop_append_of_le_length hfront
      rw [fill_group_of_le hrest]
      rcases Nat.lt_or_eq_of_le hrest with hinside | hinside
      · -- the next group is one of those inside
        have hnext : ∀ value, (front.group inside).fill (values ++ [value]) =
            front.fill values ++ '(' :: (inside.fill (values.drop front.groups ++ [value]) ++ [')']) := by
          intro value
          rw [fill_group_of_le (by rw [hmore, List.length_append]; exact hinside), fill_append hfront, hmore]
        have hopened := loose_opened hloose hn.2
        rw [List.append_assoc u] at hopened
        have hfound := (ih' hn.2.tidy hopened hinside ([')'] ++ w)).append_right.append_left
        simpa only [hnext, List.append_assoc, List.singleton_append] using hfound
      · -- the next group is this one
        have hnext : ∀ value, (front.group inside).fill (values ++ [value]) =
            front.fill values ++ Numeral.write value.toNat := by
          intro value
          have hvalue : ((values ++ [value]).drop front.groups)[inside.groups]? = some value := by
            rw [hmore, ← hinside]; simp
          rw [fill_group_of_lt hvalue, fill_append hfront]
        have hfind := Group.find?_of_loose hloose (hn.2.not_isParen (filter_fill (Nat.le_of_eq hinside.symm))) w
        refine ⟨⟨front.fill values, inside.fill (values.drop front.groups), []⟩, by simpa using hfind, fun value => ?_⟩
        simp [hnext, Group.replace]

end Nest

/-! ## The structural procedure -/

section

variable {σ : Type} [Roller σ]

/-- Replaces the groups of a nest by their values, from the left, the inside of each group first. What stands behind a
group without a value stays as it is. -/
def Nest.resolve : Nest → Play σ Resolution
  | empty => pure ⟨[], none⟩
  | char front c => do
    let before ← front.resolve
    return ⟨before.buffer ++ [c], before.fault⟩
  | group front inside => do
    let before ← front.resolve
    match before.fault with
    | some fault => return ⟨before.buffer ++ '(' :: (inside.spell ++ [')']), some fault⟩
    | none =>
      let within ← inside.resolve
      let text := '(' :: (within.buffer ++ [')'])
      match within.fault with
      | some fault => return ⟨before.buffer ++ text, some fault⟩
      | none =>
        match ← (reduce within.buffer).attempt with
        | .error fault => return ⟨before.buffer ++ text, some fault⟩
        | .ok value =>
          Play.tell (.resolvedGroup text value)
          return ⟨before.buffer ++ Numeral.write value.toNat, none⟩

/-- Without faults, the parentheses outside of groups are left. -/
theorem Nest.yields_resolve (n : Nest) : (n.resolve : Play σ Resolution).Yields fun r =>
    r.fault = none → r.buffer.filter Group.isParen = n.outside.filter Group.isParen := by
  induction n with
  | empty => exact Play.yields_pure fun _ => rfl
  | char front c ih =>
    refine ih.bind fun before hbefore => Play.yields_pure fun hnone => ?_
    rw [List.filter_append, hbefore hnone, Nest.outside, List.filter_append]
  | group front inside ih _ =>
    refine ih.bind fun before hbefore => ?_
    split
    · exact Play.yields_pure fun h => by cases h
    · rename_i hnone
      refine (Play.yields_true _).bind fun within _ => ?_
      split
      · exact Play.yields_pure fun h => by cases h
      · refine (Play.yields_true _).bind fun result _ => ?_
        split
        · exact Play.yields_pure fun h => by cases h
        · refine (Play.yields_true _).bind fun _ _ => Play.yields_pure fun _ => ?_
          rw [List.filter_append, hbefore hnone, Nest.filter_write, List.append_nil]
          rfl

/-! ## The loop -/

theorem resolveGroups_of_loose {t : Text} (h : Loose t) : (resolveGroups t : Play σ Resolution) = pure ⟨t, none⟩ := by
  rw [resolveGroups]
  split
  · rfl
  · rename_i hsome
    rw [Group.find?_eq_none_iff.mpr h] at hsome
    cases hsome

/-- The leftmost group is resolved first. -/
theorem resolveGroups_of_group {t : Text} {g : Group} (h : Group.find? t = some g) :
    (resolveGroups t : Play σ Resolution) = (reduce g.inside).attempt >>= fun result =>
      match result with
      | .error fault => pure ⟨t, some fault⟩
      | .ok value => Play.tell (.resolvedGroup g.text value) >>= fun _ => resolveGroups (g.replace value) := by
  rw [resolveGroups]
  split
  · rename_i hnone
    rw [h] at hnone
    cases hnone
  · rename_i hsome
    rw [h] at hsome
    obtain rfl := Option.some.inj hsome
    rfl

/-- Whatever follows a resolution and fails with it, follows the value of the leftmost group first. -/
theorem resolveGroups_bind_of_group {α : Type} {t : Text} {g : Group} (h : Group.find? t = some g)
    {finish : Resolution → Play σ α} (hfail : ∀ fault, finish ⟨t, some fault⟩ = Play.fail fault) :
    resolveGroups t >>= finish = reduce g.inside >>= fun value =>
      Play.tell (.resolvedGroup g.text value) >>= fun _ => resolveGroups (g.replace value) >>= finish := by
  rw [resolveGroups_of_group h, bind_assoc, Play.attempt_bind _ fun fault => by rw [pure_bind, hfail]]
  simp only [bind_assoc]

/-- **Induction along groups**: a text without groups, and a text with a group, whatever has been put in its place. -/
theorem group_induction {motive : Text → Prop} (loose : ∀ t, Loose t → motive t)
    (group : ∀ t g, Group.find? t = some g → (∀ value, motive (g.replace value)) → motive t) (t : Text) : motive t := by
  induction hn : t.count '(' using Nat.strongRecOn generalizing t with
  | ind n ih =>
    cases h : Group.find? t with
    | none => exact loose t (Group.find?_eq_none_iff.mp h)
    | some g =>
      refine group t g h fun value => ?_
      exact ih _ (hn ▸ Group.count_replace_lt h value) _ rfl

/-- Goes on with the resolution of a text from the resolution of a part of it. -/
def Resolution.continue (u w : Text) (r : Resolution) : Play σ Resolution :=
  match r.fault with
  | some fault => pure ⟨u ++ r.buffer ++ w, some fault⟩
  | none => resolveGroups (u ++ r.buffer ++ w)

/-- **In a context that is loose on the left, the groups of a nest are resolved first**, and in the order in which its
structure gives them. -/
theorem resolveGroups_context {n : Nest} (hn : n.Tidy) {u : Text} (hu : Loose (u ++ n.outside)) (w : Text) :
    (resolveGroups (u ++ n.spell ++ w) : Play σ Resolution) = n.resolve >>= Resolution.continue u w := by
  induction n generalizing u w with
  | empty => simp [Nest.spell, Nest.resolve, Resolution.continue]
  | char front c ih =>
    rw [Nest.outside, ← List.append_assoc, loose_append] at hu
    have htext : u ++ (front.char c).spell ++ w = u ++ front.spell ++ c :: w := by simp [Nest.spell]
    rw [htext, ih hn hu.1, Nest.resolve, bind_assoc]
    congr 1
    funext before
    rw [pure_bind, Resolution.continue, Resolution.continue]
    cases before.fault <;> simp
  | group front inside ih ih' =>
    have htext : u ++ (front.group inside).spell ++ w = u ++ front.spell ++ '(' :: (inside.spell ++ ')' :: w) := by
      simp [Nest.spell]
    rw [htext, ih hn.1 hu, Nest.resolve, bind_assoc]
    refine Play.bind_congr_of_yields front.yields_resolve fun before hbefore => ?_
    rw [Resolution.continue]
    cases hfault : before.fault with
    | some fault => simp [Resolution.continue]
    | none =>
      have hloose : Loose (u ++ before.buffer) := by
        rw [← loose_filter, List.filter_append, hbefore hfault, ← List.filter_append, loose_filter]
        exact hu
      have htext' : u ++ before.buffer ++ '(' :: (inside.spell ++ ')' :: w) =
          u ++ before.buffer ++ ['('] ++ inside.spell ++ ')' :: w := by simp
      simp only [htext', ih' hn.2.tidy (Nest.loose_opened hloose hn.2), bind_assoc]
      refine Play.bind_congr_of_yields inside.yields_resolve fun within hwithin => ?_
      rw [Resolution.continue]
      cases hfault' : within.fault with
      | some fault => simp [Resolution.continue]
      | none =>
        -- the group is closed and its inside has no parentheses: it is the leftmost one
        have hfind := Group.find?_of_loose hloose (hn.2.not_isParen (hwithin hfault')) w
        have htext'' : u ++ before.buffer ++ ['('] ++ within.buffer ++ ')' :: w =
            u ++ before.buffer ++ '(' :: (within.buffer ++ ')' :: w) := by simp
        simp only [htext'', resolveGroups_of_group hfind, bind_assoc]
        congr 1
        funext result
        cases result with
        | error fault => simp [Resolution.continue]
        | ok value => simp [Resolution.continue, Group.text, Group.replace]

/-- The groups of a text are resolved as the structure of its nest gives them. -/
theorem resolveGroups_spell {n : Nest} (htidy : n.Tidy) (hloose : Loose n.outside) :
    (resolveGroups n.spell : Play σ Resolution) = n.resolve := by
  have h : (resolveGroups ([] ++ n.spell ++ []) : Play σ Resolution) = _ := resolveGroups_context htidy hloose []
  rw [List.nil_append, List.append_nil] at h
  rw [h]
  conv => rhs; rw [← bind_pure n.resolve]
  refine Play.bind_congr_of_yields n.yields_resolve fun r hr => ?_
  obtain ⟨buffer, _ | fault⟩ := r
  · have hbuffer : Loose buffer := by rw [← loose_filter, hr rfl, loose_filter]; exact hloose
    simp [Resolution.continue, resolveGroups_of_loose hbuffer]
  · simp [Resolution.continue]

/-- An evaluation counts its dice from zero, and tells the total of the text without quotes. -/
theorem evaluate_eq_bind (t : Text) : (evaluate t : Play σ UInt64) =
    Play.reset >>= fun _ => resolveGroups (unquote t) >>= Resolution.total >>= fun total =>
      Play.booked >>= fun rolls => Play.tell (.evaluated t total rolls) >>= fun _ => pure total := by
  rw [evaluate]
  simp only [bind_assoc]

/-- An instruction has the total, or the fault, of its text without quotes. -/
theorem mute_evaluate (t : Text) : (evaluate t : Play σ UInt64).mute =
    Play.reset >>= fun _ => (resolveGroups (unquote t) >>= Resolution.total).mute := by
  rw [evaluate_eq_bind]
  simp only [Play.mute_bind, Play.mute_reset, Play.mute_tell, Play.mute_booked, Play.mute_pure, Play.booked_bind,
    pure_bind, bind_pure]

/-! ## Where the loop stops -/

/-- The value of a group, in the event that tells of it. -/
def Event.groupValue? : Event → Option UInt64
  | resolvedGroup _ value => some value
  | _ => none

/-- The values of groups, in the order in which the events tell of them. -/
def groupValues (events : List Event) : List UInt64 := events.filterMap Event.groupValue?

/-- A pass tells of no group. -/
theorem tells_contract (rule : Rule) (m : Match) :
    (contract rule m : Play σ Int).Tells fun event => event.groupValue? = none := by
  have hvalue : (rule.valueOf m.text : Play σ Int).Tells fun event => event.groupValue? = none := by
    refine (tells_valueOf rule m.text).mono ?_
    rintro event ⟨dice, total, rfl⟩
    rfl
  refine hvalue.bind fun value => ?_
  refine Play.Tells.bind (Play.tells_tell ?_) fun _ => Play.Tells.bind (Play.tells_tell ?_) fun _ => Play.tells_pure _
  · rfl
  · rfl

theorem tells_reduceRow (row : List Lexeme) :
    (reduceRow row : Play σ UInt64).Tells fun event => event.groupValue? = none := by
  induction row using row_induction with
  | normal row hr =>
    rw [reduceRow_of_no_redex hr]
    split
    · exact Play.tells_ofExcept _
    · exact Play.tells_fail _
  | redex row rule m hr ih =>
    rw [reduceRow_of_redex hr]
    exact (tells_contract rule m).bind ih

/-- The events of a reduction give no values of groups. -/
theorem groupValues_reduce (t : Text) (tray : Tray σ) : groupValues ((reduce t).run tray).events = [] := by
  rw [reduce_eq_reduceRow, groupValues, List.filterMap_eq_nil_iff]
  exact tells_reduceRow (lexemes t) tray

/-- **Resolution fills groups in the order in which they close**, until all are filled or the next one has no value. -/
theorem resolveGroups_fill {n : Nest} (hn : n.Tidy) (ho : Loose n.outside) (front : List UInt64)
    (hfront : front.length ≤ n.groups) (tray : Tray σ) :
    ∃ fault,
      let outcome := (resolveGroups (n.fill front)).run tray
      let values := front ++ groupValues outcome.events
      outcome.result = .ok ⟨n.fill values, fault⟩ ∧
        match fault with
        | none => values.length = n.groups ∧ Group.find? (n.fill values) = none
        | some fault => values.length < n.groups ∧ ∃ g before, Group.find? (n.fill values) = some g ∧
            ((reduce g.inside).run before).result = .error fault ∧
            ((reduce g.inside).run before).tray = outcome.tray ∧
            ∀ value, g.replace value = n.fill (values ++ [value]) := by
  induction hk : n.groups - front.length generalizing front tray with
  | zero =>
    have hloose : Loose (n.fill front) := Nest.loose_fill (u := []) ho (by omega)
    refine ⟨none, ?_⟩
    rw [resolveGroups_of_loose hloose, Play.run_pure]
    simp only [groupValues, List.filterMap_nil, List.append_nil]
    exact ⟨trivial, by omega, Group.find?_eq_none_iff.mpr hloose⟩
  | succ k ih =>
    obtain ⟨g, hfind, hfill⟩ := Nest.nextGroup_fill hn (u := []) ho (by omega : front.length < n.groups) []
    simp only [List.nil_append, List.append_nil] at hfind
    have hquiet := groupValues_reduce g.inside tray
    rw [resolveGroups_of_group hfind, Play.run_bind, Play.run_attempt]
    rcases hrun : (reduce g.inside).run tray with ⟨fault | value, tray', events⟩
    · rw [hrun] at hquiet
      refine ⟨some fault, ?_⟩
      simp only [Outcome.after, Play.run_pure, List.append_nil, hquiet]
      exact ⟨trivial, by omega, g, tray, hfind, by rw [hrun], by rw [hrun], hfill⟩
    · rw [hrun] at hquiet
      have hnext := ih (front ++ [value]) (by rw [List.length_append]; exact (by omega : front.length < n.groups))
        tray' (by rw [List.length_append]; exact (by omega : n.groups - (front.length + 1) = k))
      simp only [Outcome.after, Play.run_bind, Play.run_tell, hfill] at hnext ⊢
      have hvalues : ∀ later, front ++ groupValues (events ++ ([.resolvedGroup g.text value] ++ later)) =
          front ++ [value] ++ groupValues later := by
        intro later
        rw [groupValues, List.filterMap_append, List.filterMap_append, ← groupValues, hquiet]
        simp [groupValues, Event.groupValue?]
      simpa only [hvalues] using hnext

/-- **Resolution is a structural recursion**, on success and on failure. -/
theorem resolveGroups_eq_resolve (t : Text) :
    (resolveGroups t : Play σ Resolution) = (nesting t).resolve ∧ (nesting t).spell = t ∧ ∀ tray : Tray σ, ∃ fault,
      let outcome := (resolveGroups t).run tray
      let values := groupValues outcome.events
      outcome.result = .ok ⟨(nesting t).fill values, fault⟩ ∧
        match fault with
        | none => values.length = (nesting t).groups ∧ Group.find? ((nesting t).fill values) = none
        | some fault => values.length < (nesting t).groups ∧ ∃ g before,
            Group.find? ((nesting t).fill values) = some g ∧
            ((reduce g.inside).run before).result = .error fault ∧
            ((reduce g.inside).run before).tray = outcome.tray ∧
            ∀ value, g.replace value = (nesting t).fill (values ++ [value]) := by
  obtain ⟨htidy, hloose⟩ := tidy_and_loose_nesting t
  refine ⟨?_, spell_nesting t, fun tray => ?_⟩
  · rw [← resolveGroups_spell htidy hloose, spell_nesting]
  · have h := resolveGroups_fill htidy hloose [] (Nat.zero_le _) tray
    simpa only [List.nil_append, Nest.fill_nil, spell_nesting] using h

end
end TabletopDice
