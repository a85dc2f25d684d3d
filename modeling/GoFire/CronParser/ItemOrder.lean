import GoFire.CronParser.Int64Fields

/-! The order of the items of a comma-separated list. Each item is read on its own, but a
list that begins with `*/` is not read as a list at all.
-/

namespace GoFire.CronParser

/-- strings.Join with a comma. -/
def join (items : List Text) : Text := [','].intercalate items

/-- Both parses fail, or both succeed with the same list. A loop that does not end counts as
a failure.
-/
def SameOutcome (first second : Except Failure (List Int)) : Prop :=
  (∃ failure failure', first = .error failure ∧ second = .error failure')
  ∨ ∃ list, first = .ok list ∧ second = .ok list

theorem SameOutcome.refl (outcome : Except Failure (List Int))
    : SameOutcome outcome outcome := by
  cases outcome with
  | error failure => exact Or.inl ⟨failure, failure, rfl, rfl⟩
  | ok list => exact Or.inr ⟨list, rfl, rfl⟩

theorem SameOutcome.symm {first second : Except Failure (List Int)}
    (h : SameOutcome first second)
    : SameOutcome second first := by
  rcases h with ⟨failure, failure', h, h'⟩ | ⟨list, h, h'⟩
  · exact Or.inl ⟨failure', failure, h', h⟩
  · exact Or.inr ⟨list, h', h⟩

/-- The written list begins with `*/`. -/
def BeginsStepped (items : List Text) : Prop :=
  ∃ first rest, items = first :: rest ∧ ['*', '/'] <+: first

instance : (items : List Text) → Decidable (BeginsStepped items)
  | [] => isFalse (by simp [BeginsStepped])
  | first :: rest => decidable_of_iff (['*', '/'] <+: first) (by simp [BeginsStepped])

/-- The parser's loop for an item comes to an end. -/
def Item.Ends (arith : IntArith) (min max : Int) (item : Item) : Prop :=
  ∃ grown, item.run arith min max [] = .ok grown

/-- A well-formed item within the bounds, with numbers that fit and a loop that ends. -/
def Accepted (arith : IntArith) (fits : Int → Prop) (min max : Int) (token : Text) : Prop :=
  ∃ item : Item, item.Spells token ∧ item.Within min max ∧ (∀ n ∈ item.numbers, fits n)
    ∧ item.Ends arith min max

-----------------------------------------------------------------------------------------
-- Steps that do the same to every set
-----------------------------------------------------------------------------------------

/-- A step that adds the same values to every set. -/
def Adds (step : List Int → Except Failure (List Int)) (added : Int → Prop) : Prop :=
  ∀ set, ∃ grown, step set = .ok grown ∧ Extends set grown added

/-- A step that fails on every set. -/
def Fails (step : List Int → Except Failure (List Int)) : Prop :=
  ∀ set, ∃ failure, step set = .error failure

theorem Adds.congr {step : List Int → Except Failure (List Int)} {added added' : Int → Prop}
    (h : Adds step added) (same : ∀ v, added v ↔ added' v)
    : Adds step added' := by
  intro set
  obtain ⟨grown, run, grows⟩ := h set
  exact ⟨grown, run, grows.congr same⟩

/-- A counting loop either does not end or adds the same values to every set, by induction
on the passes.
-/
theorem addSteps_uniform (arith : IntArith) (last step : Int) (passes : Nat) (i : Int)
    : (∃ added, Adds (addSteps arith last step passes i) added)
      ∨ Fails (addSteps arith last step passes i) := by
  induction passes generalizing i with
  | zero =>
      by_cases done : last < i
      · refine Or.inl ⟨fun _ => False, fun set => ⟨set, addSteps_done done 0 set, ?_, id⟩⟩
        simp
      · exact Or.inr fun set => ⟨.divergence, by simp [addSteps, done]⟩
  | succ passes ih =>
      by_cases done : last < i
      · refine Or.inl ⟨fun _ => False, fun set => ⟨set, addSteps_done done _ set, ?_, id⟩⟩
        simp
      · have pass (set : List Int)
            : addSteps arith last step (passes + 1) i set
                = addSteps arith last step passes (arith.add i step) (set.insert i) :=
          addSteps_pass (not_lt.mp done) passes set
        rcases ih (arith.add i step) with ⟨added, adds⟩ | fails
        · refine Or.inl ⟨fun v => v = i ∨ added v, fun set => ?_⟩
          obtain ⟨grown, run, grows⟩ := adds (set.insert i)
          exact ⟨grown, (pass set).trans run, (Extends.insert set i).trans grows⟩
        · apply Or.inr
          intro set
          obtain ⟨failure, rejected⟩ := fails (set.insert i)
          exact ⟨failure, (pass set).trans rejected⟩

section Items

variable {arith : IntArith} {fits : Int → Prop} {min max : Int}

theorem Item.run_uniform (arith : IntArith) (min max : Int) (item : Item)
    : (∃ added, Adds (fun set => item.run arith min max set) added)
      ∨ Fails (fun set => item.run arith min max set) := by
  cases item with
  | value a => exact Or.inl ⟨_, fun set => ⟨set.insert a, rfl, Extends.insert set a⟩⟩
  | range | valueStep | rangeStep | starStep => exact addSteps_uniform arith _ _ _ _

/-- The values an item adds to the empty set. -/
def AddedBy (arith : IntArith) (min max : Int) (token : Text) (v : Int) : Prop :=
  ∃ grown, addToken arith min max [] token = .ok grown ∧ v ∈ grown

theorem Adds.addedBy {token : Text} {added : Int → Prop}
    (h : Adds (fun set => addToken arith min max set token) added)
    : Adds (fun set => addToken arith min max set token) (AddedBy arith min max token) := by
  apply h.congr
  intro v
  obtain ⟨grown, run, grows⟩ := h []
  constructor
  · exact fun selected => ⟨grown, run, (grows.mem v).mpr (Or.inr selected)⟩
  · intro h
    obtain ⟨grown', run', member⟩ := h
    obtain rfl : grown = grown' := Except.ok.inj (run.symm.trans run')
    exact ((grows.mem v).mp member).resolve_left (by simp)

/-- An accepted item adds its values to every set. -/
theorem addToken_of_accepted (reads : arith.Reads fits) {token : Text}
    (accepted : Accepted arith fits min max token)
    : Adds (fun set => addToken arith min max set token) (AddedBy arith min max token) := by
  obtain ⟨item, spelled, within, fit, grown, ends⟩ := accepted
  have same : (fun set => addToken arith min max set token)
      = fun set => item.run arith min max set :=
    funext fun set => addToken_of_spelled reads spelled within fit set
  rcases item.run_uniform arith min max with ⟨added, adds⟩ | fails
  · exact Adds.addedBy (same ▸ adds)
  · obtain ⟨failure, rejected⟩ := fails []
    exact absurd (ends.symm.trans rejected) (by simp)

/-- An item that is not accepted fails on every set. -/
theorem addToken_of_not_accepted (reads : arith.Reads fits) {token : Text}
    (rejected : ¬ Accepted arith fits min max token)
    : Fails (fun set => addToken arith min max set token) := by
  intro set
  rcases addToken_message_or_readable reads min max token set
    with ⟨text, message⟩ | ⟨item, spelled, within, fit⟩
  · exact ⟨.message text, message⟩
  · rcases item.run_uniform arith min max with ⟨added, adds⟩ | fails
    · obtain ⟨grown, run, -⟩ := adds []
      exact absurd ⟨item, spelled, within, fit, grown, run⟩ rejected
    · obtain ⟨failure, stuck⟩ := fails set
      exact ⟨failure, (addToken_of_spelled reads spelled within fit set).trans stuck⟩

-----------------------------------------------------------------------------------------
-- Lists of items
-----------------------------------------------------------------------------------------

theorem foldlM_cons_ok {token : Text} {items : List Text} {set middle : List Int}
    {outcome : Except Failure (List Int)} (head : addToken arith min max set token = .ok middle)
    (rest : items.foldlM (addToken arith min max) middle = outcome)
    : (token :: items).foldlM (addToken arith min max) set = outcome := by
  rw [List.foldlM_cons, head]
  exact rest

theorem foldlM_cons_error {token : Text} {set : List Int} {failure : Failure}
    (head : addToken arith min max set token = .error failure) (items : List Text)
    : (token :: items).foldlM (addToken arith min max) set = .error failure := by
  rw [List.foldlM_cons, head]
  rfl

theorem foldlM_adds (reads : arith.Reads fits) {items : List Text}
    (accepted : ∀ token ∈ items, Accepted arith fits min max token)
    : Adds (fun set => items.foldlM (addToken arith min max) set)
        (fun v => ∃ token ∈ items, AddedBy arith min max token v) := by
  induction items with
  | nil => exact fun set => ⟨set, rfl, by simp, id⟩
  | cons token items ih =>
      intro set
      obtain ⟨middle, run, first⟩ := addToken_of_accepted reads (accepted token (by simp)) set
      obtain ⟨grown, rest, others⟩ :=
        ih (fun later member => accepted later (List.mem_cons_of_mem _ member)) middle
      exact ⟨grown, foldlM_cons_ok run rest, (first.trans others).congr fun v => by simp⟩

theorem foldlM_fails (reads : arith.Reads fits) {items : List Text}
    (rejected : ∃ token ∈ items, ¬ Accepted arith fits min max token)
    : Fails (fun set => items.foldlM (addToken arith min max) set) := by
  induction items with
  | nil => simp at rejected
  | cons token items ih =>
      intro set
      cases run : addToken arith min max set token with
      | error failure =>
          exact ⟨failure, foldlM_cons_error run items⟩
      | ok middle =>
          obtain ⟨stuck, member, refused⟩ := rejected
          rcases List.mem_cons.mp member with rfl | later
          · obtain ⟨failure, fails⟩ := addToken_of_not_accepted reads refused set
            exact absurd (run.symm.trans fails) (by simp)
          · obtain ⟨failure, fails⟩ := ih ⟨stuck, later, refused⟩ middle
            exact ⟨failure, foldlM_cons_ok run fails⟩

/-- What the items of a list add, sorted, does not depend on their order. -/
theorem foldlM_permuted (reads : arith.Reads fits) {items other : List Text}
    (permuted : items.Perm other)
    (accepted : ∀ token ∈ items, Accepted arith fits min max token)
    : ∃ set set', items.foldlM (addToken arith min max) [] = .ok set
        ∧ other.foldlM (addToken arith min max) [] = .ok set'
        ∧ sortInts set = sortInts set' := by
  obtain ⟨set, run, grows⟩ := foldlM_adds reads accepted []
  obtain ⟨set', run', grows'⟩ :=
    foldlM_adds reads (fun token member => accepted token (permuted.mem_iff.mpr member)) []
  refine ⟨set, set', run, run', ?_⟩
  have lists := sortInts_lists grows
  have lists' := sortInts_lists grows'
  apply List.Pairwise.eq_of_mem_iff lists.ascending lists'.ascending
  intro v
  rw [lists.mem, lists'.mem]
  exact exists_congr fun token => and_congr_left fun _ => permuted.mem_iff

end Items

-----------------------------------------------------------------------------------------
-- Joined items
-----------------------------------------------------------------------------------------

section Joined

variable {arith : IntArith} {fits : Int → Prop} {min max : Int} {items : List Text}

theorem atoi_comma {text : Text} (comma : ',' ∈ text) : atoi text = none := by
  have digits : ',' ∈ (unsign text).2 := by
    unfold unsign
    split <;> simp_all
  have rejected : (unsign text).2.all Char.isDigit = false := by
    rw [List.all_eq_false]
    exact ⟨',', digits, by decide⟩
  simp [atoi, rejected]

theorem join_pair (first second : Text) (rest : List Text)
    : join (first :: second :: rest) = first ++ ',' :: join (second :: rest) := by
  simp [join, List.intercalate]

theorem stepped_prefix_append (first rest : Text)
    : ['*', '/'] <+: first ++ ',' :: rest ↔ ['*', '/'] <+: first := by
  match first with
  | [] => simp [List.prefix_iff_eq_take]
  | [c] => simp [List.prefix_iff_eq_take]
  | c :: d :: others => simp [List.prefix_iff_eq_take]

/-- Joining does not change whether the text begins with `*/`. -/
theorem hasPrefix_join (items : List Text)
    : hasPrefix (join items) ['*', '/'] = true ↔ BeginsStepped items := by
  rw [hasPrefix_iff]
  match items with
  | [] => simp [join, List.intercalate, BeginsStepped]
  | [first] => simp [join, List.intercalate, BeginsStepped]
  | first :: second :: rest =>
      rw [join_pair, stepped_prefix_append]
      simp [BeginsStepped]

/-- A longer list that begins with `*/` fails: the commas are part of its step. -/
theorem parsePart_beginsStepped (reads : arith.Reads fits) (min max : Int)
    (several : 2 ≤ items.length) (stepped : BeginsStepped items)
    : ∃ failure, parsePart arith (join items) min max = .error failure := by
  have starts := (hasPrefix_join items).mpr stepped
  obtain ⟨rest, same⟩ := hasPrefix_iff.mp starts
  have comma : ',' ∈ (join items).drop 2 := by
    obtain ⟨first, others, rfl, prefixed⟩ := stepped
    obtain ⟨tail, rfl⟩ := prefixed
    obtain ⟨second, more, rfl⟩ : ∃ second more, others = second :: more := by
      cases others with
      | nil => simp at several
      | cons second more => exact ⟨second, more, rfl⟩
    rw [join_pair]
    simp
  have unread : arith.atoi ((join items).drop 2) = none := by
    apply Option.eq_none_iff_forall_not_mem.mpr
    intro n read
    have known := ((reads _ n).mp read).1
    simp [atoi_comma comma] at known
  have step : starStep arith (join items)
      = .error (.message ("invalid step: " ++ String.ofList (join items))) := by
    simp only [starStep, starts, if_true, unread, invalid]
  exact ⟨_, by rw [parsePart, parseSet, if_pos (by simp [starts]), step]; rfl⟩

/-- A longer list that does not begin with `*/` is read item by item. -/
theorem parsePart_items (arith : IntArith) (min max : Int) (several : 2 ≤ items.length)
    (noComma : ∀ token ∈ items, ',' ∉ token) (plain : ¬ BeginsStepped items)
    : parsePart arith (join items) min max
        = (items.foldlM (addToken arith min max) []).map sortInts := by
  have nonempty : items ≠ [] := by
    intro h
    subst h
    simp at several
  have notStar : join items ≠ ['*'] := by
    match items with
    | first :: second :: rest =>
        rw [join_pair]
        intro same
        have member : ',' ∈ ['*'] := same ▸ by simp
        simp at member
  have noPrefix : hasPrefix (join items) ['*', '/'] = false :=
    Bool.eq_false_iff.mpr fun starts => plain ((hasPrefix_join items).mp starts)
  have parts : split (join items) ',' = items := List.splitOn_intercalate ',' noComma nonempty
  rw [parsePart, parseSet, if_neg (by simp [notStar, noPrefix]), parts]

/-- Read item by item, the two orders have the same outcome. -/
theorem sameOutcome_items (reads : arith.Reads fits) {other : List Text}
    (permuted : items.Perm other)
    : SameOutcome ((items.foldlM (addToken arith min max) []).map sortInts)
        ((other.foldlM (addToken arith min max) []).map sortInts) := by
  by_cases accepted : ∀ token ∈ items, Accepted arith fits min max token
  · obtain ⟨set, set', run, run', same⟩ := foldlM_permuted reads permuted accepted
    exact Or.inr ⟨sortInts set, by rw [run]; rfl, by rw [run', same]; rfl⟩
  · obtain ⟨token, member, rejected⟩ : ∃ token ∈ items, ¬ Accepted arith fits min max token := by
      simpa using accepted
    obtain ⟨failure, fails⟩ := foldlM_fails reads ⟨token, member, rejected⟩ []
    obtain ⟨failure', fails'⟩ :=
      foldlM_fails reads ⟨token, permuted.mem_iff.mp member, rejected⟩ []
    exact Or.inl ⟨failure, failure', congrArg (Except.map sortInts) fails,
      congrArg (Except.map sortInts) fails'⟩

/-- An order that begins with `*/` has the outcome of one that does not exactly when some
item is rejected anyway.
-/
theorem sameOutcome_stepped_iff (reads : arith.Reads fits) {other : List Text}
    (several : 2 ≤ items.length) (noComma : ∀ token ∈ items, ',' ∉ token)
    (permuted : items.Perm other) (stepped : BeginsStepped items)
    (plain : ¬ BeginsStepped other)
    : SameOutcome (parsePart arith (join items) min max) (parsePart arith (join other) min max)
      ↔ ∃ token ∈ items, ¬ Accepted arith fits min max token := by
  obtain ⟨failure, fails⟩ := parsePart_beginsStepped reads min max several stepped
  have read := parsePart_items arith min max
    (permuted.length_eq ▸ several)
    (fun token member => noComma token (permuted.mem_iff.mpr member)) plain
  rw [fails, read]
  constructor
  · intro same
    by_contra none
    have accepted : ∀ token ∈ items, Accepted arith fits min max token := by
      simpa using none
    obtain ⟨-, set', -, run', -⟩ := foldlM_permuted reads permuted accepted
    rw [run'] at same
    rcases same with ⟨-, failure', -, fails'⟩ | ⟨list, success, -⟩
    · exact absurd fails' (by simp [Except.map])
    · exact absurd success (by simp)
  · intro h
    obtain ⟨token, member, rejected⟩ := h
    obtain ⟨failure', fails'⟩ :=
      foldlM_fails reads ⟨token, permuted.mem_iff.mp member, rejected⟩ []
    exact Or.inl ⟨failure, failure', rfl, congrArg (Except.map sortInts) fails'⟩

theorem sameOutcome_iff (reads : arith.Reads fits) {other : List Text} (nonempty : items ≠ [])
    (noComma : ∀ token ∈ items, ',' ∉ token) (permuted : items.Perm other)
    : SameOutcome (parsePart arith (join items) min max) (parsePart arith (join other) min max)
      ↔ (BeginsStepped items ↔ BeginsStepped other)
        ∨ ∃ token ∈ items, ¬ Accepted arith fits min max token := by
  by_cases several : 2 ≤ items.length
  · by_cases stepped : BeginsStepped items <;> by_cases stepped' : BeginsStepped other
    · refine iff_of_true ?_ (Or.inl (iff_of_true stepped stepped'))
      obtain ⟨failure, fails⟩ := parsePart_beginsStepped reads min max several stepped
      obtain ⟨failure', fails'⟩ :=
        parsePart_beginsStepped reads min max (permuted.length_eq ▸ several) stepped'
      exact Or.inl ⟨failure, failure', fails, fails'⟩
    · rw [sameOutcome_stepped_iff reads several noComma permuted stepped stepped']
      simp [stepped, stepped']
    · have flipped : SameOutcome (parsePart arith (join items) min max)
            (parsePart arith (join other) min max)
          ↔ SameOutcome (parsePart arith (join other) min max)
            (parsePart arith (join items) min max) :=
        ⟨SameOutcome.symm, SameOutcome.symm⟩
      rw [flipped, sameOutcome_stepped_iff reads (permuted.length_eq ▸ several)
        (fun token member => noComma token (permuted.mem_iff.mpr member)) permuted.symm
        stepped' stepped]
      simp [stepped, stepped', permuted.mem_iff]
    · refine iff_of_true ?_ (Or.inl (iff_of_false stepped stepped'))
      rw [parsePart_items arith min max several noComma stepped, parsePart_items arith min max
        (permuted.length_eq ▸ several)
        (fun token member => noComma token (permuted.mem_iff.mpr member)) stepped']
      exact sameOutcome_items reads permuted
  · obtain ⟨token, rfl⟩ : ∃ token, items = [token] := by
      match items with
      | [] => exact absurd rfl nonempty
      | [token] => exact ⟨token, rfl⟩
      | first :: second :: rest => simp at several
    obtain rfl : other = [token] := List.perm_singleton.mp permuted.symm
    exact iff_of_true (SameOutcome.refl _) (Or.inl Iff.rfl)

end Joined

/-- Within the bounds of a cron field every loop ends, so an accepted item is a well-formed
one.
-/
theorem CronField.accepted_iff (field : CronField) (token : Text)
    : Accepted int64 FitsInt64 field.min field.max token
      ↔ Readable FitsInt64 field.min field.max token := by
  obtain ⟨floor, ordered, low⟩ := field.bounds
  constructor
  · intro h
    obtain ⟨item, spelled, within, fit, -⟩ := h
    exact ⟨item, spelled, within, fit⟩
  · intro h
    obtain ⟨item, spelled, within, fit⟩ := h
    obtain ⟨grown, run, -⟩ := Item.run_int64 floor ordered low within fit []
    exact ⟨item, spelled, within, fit, grown, run⟩

/-- Two orders of the items have the same outcome exactly when both or neither begin with
`*/`, or some item is not accepted.
-/
theorem parsePart_permuted_iff (min max : Int) {items other : List Text}
    (nonempty : items ≠ []) (noComma : ∀ token ∈ items, ',' ∉ token)
    (permuted : items.Perm other)
    : SameOutcome (parsePart int64 (join items) min max) (parsePart int64 (join other) min max)
      ↔ (BeginsStepped items ↔ BeginsStepped other)
        ∨ ∃ token ∈ items, ¬ Accepted int64 FitsInt64 min max token :=
  sameOutcome_iff int64_reads nonempty noComma permuted

/-- Two plain values may be listed in either order. -/
theorem parsePart_permuted_iff_values
    : SameOutcome (parsePart int64 (join ["7".toList, "3".toList]) 0 59)
        (parsePart int64 (join ["3".toList, "7".toList]) 0 59) :=
  (parsePart_permuted_iff 0 59 (by decide) (by decide) (.swap _ _ _)).mpr
    (Or.inl (iff_of_false (by decide) (by decide)))

/-- `*/5,3` fails where `3,*/5` succeeds. -/
theorem parsePart_order_matters
    : ¬ SameOutcome (parsePart int64 (join ["*/5".toList, "3".toList]) 0 59)
        (parsePart int64 (join ["3".toList, "*/5".toList]) 0 59) := by
  have five : Numeral 5 "5".toList := ⟨"5".toList, Or.inl rfl, by decide, by simp, rfl⟩
  have three : Numeral 3 "3".toList := ⟨"3".toList, Or.inl rfl, by decide, by simp, rfl⟩
  rw [sameOutcome_stepped_iff int64_reads (by decide) (by decide) (.swap _ _ _) (by decide)
    (by decide)]
  intro h
  obtain ⟨token, member, rejected⟩ := h
  refine rejected ((CronField.minute.accepted_iff token).mpr ?_)
  rcases List.mem_pair.mp member with rfl | rfl
  · exact ⟨.starStep 5, .starStep five, show (1 : Int) ≤ 5 by decide, by decide⟩
  · exact ⟨.value 3, .value three, show (0 : Int) ≤ 3 ∧ (3 : Int) ≤ 59 by decide, by decide⟩

end GoFire.CronParser
