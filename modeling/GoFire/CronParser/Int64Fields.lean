import GoFire.CronParser.GrammarConformance

/-! Parsing of cron fields on Go's 64-bit integers. A counting loop whose first addition
wraps goes on through negative values before it ends, and they are all listed.
-/

namespace GoFire.CronParser

def FitsInt64 (n : Int) : Prop := -2 ^ 63 ≤ n ∧ n ≤ 2 ^ 63 - 1

instance (n : Int) : Decidable (FitsInt64 n) := inferInstanceAs (Decidable (_ ∧ _))

/-- Go's int: Atoi fails out of range, and addition wraps. A loop that has passed 2^64 values
has come back to one of them, so it does not end.
-/
def int64 : IntArith where
  atoi := fun text => (atoi text).filter (fun n => decide (FitsInt64 n))
  add := fun m n => (m + n).bmod (2 ^ 64)
  passes := fun _ _ _ => 2 ^ 64

theorem int64_reads : int64.Reads FitsInt64 := by
  intro text n
  simp only [int64, Option.filter_eq_some_iff, decide_eq_true_eq]

theorem int64_add {m n : Int} (fits : FitsInt64 (m + n)) : int64.add m n = m + n := by
  obtain ⟨lower, upper⟩ := fits
  exact Int.bmod_eq_of_le (by omega) (by omega)

theorem int64_add_wraps {m n : Int} (wrapping : 2 ^ 63 ≤ m + n) (once : m + n < 2 ^ 64)
    : int64.add m n = m + n - 2 ^ 64 := by
  have whole : (m + n) % 2 ^ 64 = m + n := Int.emod_eq_of_lt (by omega) once
  simp only [int64, Int.bmod, Nat.cast_pow, Nat.cast_ofNat, whole]
  rw [if_neg (by omega)]

/-- The fields of a cron expression. -/
inductive CronField where
  | minute | hour | dayOfMonth | month | dayOfWeek
deriving DecidableEq

/-- The bounds ParseCron passes for each field. -/
def CronField.min : CronField → Int
  | .minute | .hour | .dayOfWeek => 0
  | .dayOfMonth | .month => 1

def CronField.max : CronField → Int
  | .minute => 59
  | .hour => 23
  | .dayOfMonth => 31
  | .month => 12
  | .dayOfWeek => 6

/-- Parsing a field comes to an end, and every value it lists lies between the bounds. -/
def CronField.StaysInRange (field : CronField) (part : Text) : Prop :=
  parsePart int64 part field.min field.max ≠ .error .divergence
  ∧ ∀ list, parsePart int64 part field.min field.max = .ok list →
      ∀ v ∈ list, field.min ≤ v ∧ v ≤ field.max

/-- The first addition of an item's loop leaves the 64-bit integers. -/
def Item.Wraps (min : Int) : Item → Prop
  | .valueStep a s => 2 ^ 63 ≤ a + s
  | .starStep s => 2 ^ 63 ≤ min + s
  | _ => False

def Field.Wraps (min : Int) : Field → Prop
  | .star => False
  | .starStep s => 2 ^ 63 ≤ min + s
  | .items list => ∃ item ∈ list, item.Wraps min

-----------------------------------------------------------------------------------------
-- Loops
-----------------------------------------------------------------------------------------

section Loops

variable {start last step : Int}

theorem addSteps_done {arith : IntArith} {i : Int} (done : last < i) (passes : Nat)
    (set : List Int)
    : addSteps arith last step passes i set = .ok set := by
  cases passes <;> simp [addSteps, done]

theorem addSteps_pass {arith : IntArith} {i : Int} (more : i ≤ last) (passes : Nat)
    (set : List Int)
    : addSteps arith last step (passes + 1) i set
        = addSteps arith last step passes (arith.add i step) (set.insert i) := by
  simp [addSteps, not_lt.mpr more]

theorem int64_exact (floor : 0 ≤ start) (low : last ≤ 59) (fits : start + step ≤ 2 ^ 63 - 1)
    (positive : 1 ≤ step)
    : int64.Exact start last step where
  add v steps := by
    obtain ⟨lower, upper, divides⟩ := steps
    refine int64_add ⟨by omega, ?_⟩
    by_cases first : v = start
    · omega
    · have distance := Int.le_of_dvd (by omega) divides
      omega
  passes := by
    show (last + 1 - start).toNat ≤ 2 ^ 64
    omega

/-- A loop by a step so large that additions wrap comes to an end, by induction on the
passes: two of them take a value past the end of the integers and back below itself.
-/
theorem addSteps_wraps (low : last ≤ 59) (nonneg : 0 ≤ last) (below : step ≤ 2 ^ 63 - 1)
    (huge : 2 ^ 63 - 59 ≤ step) (passes : Nat) (i : Int) (set : List Int) (lower : -59 ≤ i)
    (enough : 2 * i.toNat + 1 ≤ passes)
    : ∃ grown, addSteps int64 last step passes i set = .ok grown ∧ set ⊆ grown
        ∧ (i ≤ last → 2 ^ 63 ≤ i + step → ∃ v ∈ grown, v < 0) := by
  induction passes using Nat.strong_induction_on generalizing i set with
  | _ passes ih =>
      by_cases done : last < i
      · exact ⟨set, addSteps_done done passes set, List.Subset.refl set,
          fun more _ => absurd done (not_lt.mpr more)⟩
      · have more : i ≤ last := not_lt.mp done
        obtain ⟨rest, rfl⟩ : ∃ rest, passes = rest + 1 := ⟨passes - 1, by omega⟩
        rw [addSteps_pass more]
        by_cases wrapping : 2 ^ 63 ≤ i + step
        · -- the value wraps, and the next addition brings it back
          obtain ⟨again, rfl⟩ : ∃ again, rest = again + 1 := ⟨rest - 1, by omega⟩
          have wrapped : int64.add i step = i + step - 2 ^ 64 :=
            int64_add_wraps wrapping (by omega)
          have back : int64.add (i + step - 2 ^ 64) step = i + step - 2 ^ 64 + step :=
            int64_add ⟨by omega, by omega⟩
          rw [wrapped, addSteps_pass (by omega), back]
          obtain ⟨grown, run, kept, -⟩ :=
            ih again (by omega) (i + step - 2 ^ 64 + step)
              ((set.insert i).insert (i + step - 2 ^ 64)) (by omega) (by omega)
          refine ⟨grown, run, fun v member => kept ?_, fun _ _ => ?_⟩
          · simp [member]
          · exact ⟨i + step - 2 ^ 64, kept (by simp), by omega⟩
        · have next : int64.add i step = i + step := int64_add ⟨by omega, by omega⟩
          refine ⟨set.insert i, ?_, fun v member => by simp [member],
            fun _ wraps => absurd wraps wrapping⟩
          rw [next]
          exact addSteps_done (by omega) rest _

/-- Every loop of the parser ends; where its first addition wraps, a negative value is among
those it adds.
-/
theorem addLoop_int64 (floor : 0 ≤ start) (low : last ≤ 59) (positive : 1 ≤ step)
    (below : step ≤ 2 ^ 63 - 1) (set : List Int)
    : ∃ grown, addLoop int64 start last step set = .ok grown ∧ set ⊆ grown
        ∧ (start ≤ last → 2 ^ 63 ≤ start + step → ∃ v ∈ grown, v < 0) := by
  by_cases inside : start ≤ last
  · by_cases wrapping : 2 ^ 63 ≤ start + step
    · exact addSteps_wraps low (by omega) below (by omega) (2 ^ 64) start set (by omega)
        (by omega)
    · obtain ⟨grown, run, grows⟩ :=
        addLoop_exact positive (int64_exact floor low (by omega) positive) set
      exact ⟨grown, run, fun v member => (grows.mem v).mpr (Or.inl member),
        fun _ wraps => absurd wraps wrapping⟩
  · exact ⟨set, addSteps_done (by omega) _ set, List.Subset.refl set,
      fun more _ => absurd more inside⟩

end Loops

-----------------------------------------------------------------------------------------
-- Fields
-----------------------------------------------------------------------------------------

section Fields

variable {min max : Int}

theorem Item.run_int64 (floor : 0 ≤ min) (ordered : min ≤ max) (low : max ≤ 59) {item : Item}
    (within : item.Within min max) (fit : ∀ n ∈ item.numbers, FitsInt64 n) (set : List Int)
    : ∃ grown, item.run int64 min max set = .ok grown ∧ set ⊆ grown
        ∧ (item.Wraps min → ∃ v ∈ grown, v < 0) := by
  cases item with
  | value a => exact ⟨set.insert a, rfl, fun v member => by simp [member], False.elim⟩
  | range a b =>
      obtain ⟨lower, -, upper⟩ := within
      obtain ⟨grown, run, kept, -⟩ :=
        addLoop_int64 (by omega : 0 ≤ a) (by omega : b ≤ 59) (by omega : (1 : Int) ≤ 1)
          (by omega) set
      exact ⟨grown, run, kept, False.elim⟩
  | valueStep a s =>
      obtain ⟨lower, upper, positive⟩ := within
      obtain ⟨grown, run, kept, negative⟩ :=
        addLoop_int64 (by omega : 0 ≤ a) low positive (fit s (by simp [Item.numbers])).2 set
      exact ⟨grown, run, kept, negative upper⟩
  | rangeStep a b s =>
      obtain ⟨lower, -, -, positive⟩ := within
      obtain ⟨grown, run, kept, -⟩ :=
        addLoop_int64 (by omega : 0 ≤ a) (by omega : (0 : Int) ≤ 59) positive
          (fit s (by simp [Item.numbers])).2 set
      exact ⟨grown, run, kept, False.elim⟩
  | starStep s =>
      obtain ⟨grown, run, kept, negative⟩ :=
        addLoop_int64 floor low within (fit s (by simp [Item.numbers])).2 set
      exact ⟨grown, run, kept, negative ordered⟩

theorem foldlM_run_int64 (floor : 0 ≤ min) (ordered : min ≤ max) (low : max ≤ 59)
    {list : List Item} (within : ∀ item ∈ list, item.Within min max)
    (fit : ∀ item ∈ list, ∀ n ∈ item.numbers, FitsInt64 n) (set : List Int)
    : ∃ grown, list.foldlM (Item.run int64 min max) set = .ok grown ∧ set ⊆ grown
        ∧ ((∃ item ∈ list, item.Wraps min) → ∃ v ∈ grown, v < 0) := by
  induction list generalizing set with
  | nil => exact ⟨set, rfl, List.Subset.refl set, by simp⟩
  | cons item list ih =>
      obtain ⟨middle, run, kept, negative⟩ :=
        Item.run_int64 floor ordered low (within item (by simp)) (fit item (by simp)) set
      obtain ⟨grown, rest, later, others⟩ :=
        ih (fun item member => within item (List.mem_cons_of_mem _ member))
          (fun item member => fit item (List.mem_cons_of_mem _ member)) middle
      refine ⟨grown, ?_, fun v member => later (kept member), ?_⟩
      · rw [List.foldlM_cons, run]
        exact rest
      · intro h
        obtain ⟨wrapping, member, wraps⟩ := h
        rcases List.mem_cons.mp member with rfl | tail
        · obtain ⟨v, found, below⟩ := negative wraps
          exact ⟨v, later found, below⟩
        · exact others ⟨wrapping, tail, wraps⟩

theorem Field.Spells.run_int64 (floor : 0 ≤ min) (ordered : min ≤ max) (low : max ≤ 59)
    {field : Field} {part : Text} (h : field.Spells min max part)
    (fit : ∀ n ∈ field.numbers, FitsInt64 n)
    : ∃ set, field.run int64 min max = .ok set ∧ (field.Wraps min → ∃ v ∈ set, v < 0) := by
  cases h with
  | star =>
      obtain ⟨set, run, -, -⟩ :=
        addLoop_int64 floor low (by omega : (1 : Int) ≤ 1) (by omega) []
      exact ⟨set, run, False.elim⟩
  | @starStep s _ _ positive =>
      obtain ⟨set, run, -, negative⟩ :=
        addLoop_int64 floor low positive (fit s (by simp [Field.numbers])).2 []
      exact ⟨set, run, negative ordered⟩
  | items _ _ within _ =>
      obtain ⟨set, run, -, negative⟩ :=
        foldlM_run_int64 floor ordered low within
          (fun item member n number => fit n (List.mem_flatMap.mpr ⟨item, member, number⟩)) []
      exact ⟨set, run, negative⟩

theorem Item.exact_int64 (floor : 0 ≤ min) (low : max ≤ 59) {item : Item}
    (within : item.Within min max) (fit : ∀ n ∈ item.numbers, FitsInt64 n)
    (straight : ¬ item.Wraps min)
    : item.Exact int64 min max := by
  cases item with
  | value a => trivial
  | range a b =>
      obtain ⟨lower, inside, upper⟩ := within
      exact int64_exact (by omega) (by omega) (by omega) (by omega)
  | valueStep a s =>
      obtain ⟨lower, -, positive⟩ := within
      have inside : ¬ 2 ^ 63 ≤ a + s := straight
      exact int64_exact (by omega) low (by omega) positive
  | rangeStep a b s =>
      obtain ⟨lower, ordered, upper, positive⟩ := within
      have below := (fit s (by simp [Item.numbers])).2
      refine ⟨fun v steps => int64_add ?_, ?_⟩
      · obtain ⟨above, zero, -⟩ := steps
        exact ⟨by omega, by omega⟩
      · show (0 + 1 - a).toNat ≤ 2 ^ 64
        omega
  | starStep s =>
      have inside : ¬ 2 ^ 63 ≤ min + s := straight
      exact int64_exact floor low (by omega) within

theorem Field.exact_int64 (floor : 0 ≤ min) (ordered : min ≤ max) (low : max ≤ 59) {field : Field} {part : Text}
    (h : field.Spells min max part) (fit : ∀ n ∈ field.numbers, FitsInt64 n)
    (straight : ¬ field.Wraps min)
    : field.Exact int64 min max := by
  cases h with
  | star => exact int64_exact floor low (by omega) (by omega)
  | @starStep s _ _ positive =>
      have inside : ¬ 2 ^ 63 ≤ min + s := straight
      exact int64_exact floor low (by omega) positive
  | items _ _ within _ =>
      exact fun item member => Item.exact_int64 floor low (within item member)
        (fun n number => fit n (List.mem_flatMap.mpr ⟨item, member, number⟩))
        (fun wraps => straight ⟨item, member, wraps⟩)

theorem Item.covers_between {item : Item} (within : item.Within min max) {v : Int}
    (covered : item.Covers min max v)
    : min ≤ v ∧ v ≤ max := by
  cases item with
  | value a =>
      obtain rfl : v = a := covered
      exact within
  | range a b => exact ⟨within.1.trans covered.1, covered.2.trans within.2.2⟩
  | valueStep a s => exact ⟨within.1.trans covered.1, covered.2.1⟩
  | rangeStep a b s => exact ⟨within.1.trans covered.1, covered.2.1.trans within.2.2.1⟩
  | starStep s => exact ⟨covered.1, covered.2.1⟩

theorem Field.Spells.added_between (floor : 0 ≤ min) {field : Field} {part : Text}
    (h : field.Spells min max part) {v : Int} (added : field.Added min max v)
    : min ≤ v ∧ v ≤ max := by
  cases h with
  | star | starStep => exact ⟨added.1, added.2.1⟩
  | items _ _ within _ =>
      obtain ⟨item, member, added⟩ := added
      exact item.covers_between (within item member)
        (item.covers_of_added floor (within item member) added)

/-- A token is rejected with a message or run to its end. -/
theorem addToken_int64_ends (floor : 0 ≤ min) (ordered : min ≤ max) (low : max ≤ 59)
    (token : Text) (set : List Int)
    : addToken int64 min max set token ≠ .error .divergence := by
  rcases addToken_message_or_readable int64_reads min max token set
    with ⟨text, rejected⟩ | ⟨item, spelled, within, fit⟩
  · simp [rejected]
  · obtain ⟨grown, run, -⟩ := Item.run_int64 floor ordered low within fit set
    simp [addToken_of_spelled int64_reads spelled within fit, run]

theorem foldlM_int64_ends (floor : 0 ≤ min) (ordered : min ≤ max) (low : max ≤ 59)
    (tokens : List Text) (set : List Int)
    : tokens.foldlM (addToken int64 min max) set ≠ .error .divergence := by
  induction tokens generalizing set with
  | nil => simp [pure, Except.pure]
  | cons token rest ih =>
      rw [List.foldlM_cons]
      cases run : addToken int64 min max set token with
      | ok middle => exact ih middle
      | error failure =>
          intro diverges
          have same : failure = .divergence := Except.error.inj diverges
          exact addToken_int64_ends floor ordered low token set (same ▸ run)

theorem starStep_int64 (part : Text)
    : (∃ text, starStep int64 part = .error (.message text))
      ∨ ∃ s, starStep int64 part = .ok s ∧ 1 ≤ s ∧ s ≤ 2 ^ 63 - 1 := by
  unfold starStep
  split
  · split
    · rename_i s read
      split
      · exact Or.inl ⟨_, rfl⟩
      · exact Or.inr ⟨s, rfl, by omega, ((int64_reads _ s).mp read).2.2⟩
    · exact Or.inl ⟨_, rfl⟩
  · exact Or.inr ⟨1, rfl, by omega, by omega⟩

theorem parseSet_int64_ends (floor : 0 ≤ min) (ordered : min ≤ max) (low : max ≤ 59)
    (part : Text)
    : parseSet int64 part min max ≠ .error .divergence := by
  by_cases starred : (part = ['*'] || hasPrefix part ['*', '/']) = true
  · rw [parseSet, if_pos starred]
    rcases starStep_int64 part with ⟨text, rejected⟩ | ⟨s, step, positive, below⟩
    · simp [rejected]
    · obtain ⟨grown, run, -⟩ := addLoop_int64 floor low positive below []
      simp [step, run]
  · rw [parseSet, if_neg starred]
    exact foldlM_int64_ends floor ordered low _ []

end Fields

-----------------------------------------------------------------------------------------
-- The fields of an expression
-----------------------------------------------------------------------------------------

theorem CronField.bounds (field : CronField)
    : 0 ≤ field.min ∧ field.min ≤ field.max ∧ field.max ≤ 59 := by
  cases field <;> decide

/-- A field is parsed within its bounds exactly when the text is not that of a well-formed
field of 64-bit numbers with a step whose first addition wraps.
-/
theorem CronField.staysInRange_iff (field : CronField) (part : Text)
    : field.StaysInRange part
      ↔ ∀ spec : Field, spec.Spells field.min field.max part →
          (∀ n ∈ spec.numbers, FitsInt64 n) → ¬ spec.Wraps field.min := by
  obtain ⟨floor, ordered, low⟩ := field.bounds
  constructor
  · intro h spec spelled fit wraps
    obtain ⟨-, inRange⟩ := h
    obtain ⟨set, run, negative⟩ := spelled.run_int64 floor ordered low fit
    obtain ⟨v, member, below⟩ := negative wraps
    have parsed : parsePart int64 part field.min field.max = .ok (sortInts set) := by
      rw [parsePart, parseSet_of_spells int64_reads spelled fit, run]
      rfl
    have listed : v ∈ sortInts set := by simpa [sortInts] using member
    have atLeast := (inRange _ parsed v listed).1
    omega
  · intro straight
    refine ⟨fun diverges => ?_, fun list parsed v member => ?_⟩
    · have ends := parseSet_int64_ends floor ordered low part
      cases run : parseSet int64 part field.min field.max with
      | ok set => simp [parsePart, run, Except.map] at diverges
      | error failure =>
          simp only [parsePart, run, Except.map, Except.error.injEq] at diverges
          exact ends (diverges ▸ run)
    · obtain ⟨spec, spelled, fit⟩ := spells_of_parsePart int64_reads parsed
      obtain ⟨listed, parsed', lists⟩ := parsePart_exact int64_reads spelled fit
        (Field.exact_int64 floor ordered low spelled fit (straight spec spelled fit))
      obtain rfl : listed = list := Except.ok.inj (parsed'.symm.trans parsed)
      exact spelled.added_between floor ((lists.mem v).mp member)

/-- The largest step takes the days of the month from 1 to -2^63, on to -1 and then past 31. -/
theorem parseSet_largest_step
    : parseSet int64 "*/9223372036854775807".toList 1 31
        = .ok [-1, -9223372036854775808, 1] := by
  have step : starStep int64 "*/9223372036854775807".toList = .ok 9223372036854775807 := by
    decide
  have first : int64.add 1 9223372036854775807 = -9223372036854775808 := by decide
  have second : int64.add (-9223372036854775808) 9223372036854775807 = -1 := by decide
  have third : int64.add (-1) 9223372036854775807 = 9223372036854775806 := by decide
  have loop (rest : Nat)
      : addSteps int64 31 9223372036854775807 (rest + 1 + 1 + 1) 1 []
          = .ok [-1, -9223372036854775808, 1] := by
    rw [addSteps_pass (by decide), first, addSteps_pass (by decide), second,
      addSteps_pass (by decide), third, addSteps_done (by decide)]
    decide
  rw [parseSet, if_pos (by decide), step]
  exact loop (2 ^ 64 - 3)

/-- It lists two negative days. -/
theorem CronField.largest_step_escapes
    : ¬ CronField.dayOfMonth.StaysInRange "*/9223372036854775807".toList := by
  intro h
  obtain ⟨-, inRange⟩ := h
  have parsed
      : parsePart int64 "*/9223372036854775807".toList 1 31
          = .ok [-9223372036854775808, -1, 1] := by
    rw [parsePart, parseSet_largest_step]
    decide
  exact absurd (inRange _ parsed (-1) (by simp)).1 (by decide)

end GoFire.CronParser
