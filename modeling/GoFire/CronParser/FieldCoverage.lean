import GoFire.CronParser.FieldGrammar

/-! What the parser accepts and which values it puts into each field.
Acceptance follows the grammar; the values agree with it except for stepped ranges.
-/

namespace GoFire.CronParser

/-- The values the parser's loop adds for an item. For a stepped range the loop ends at the
zero value of the outer `rEnd`, not at the end of the range.
-/
def Item.Added (min max : Int) : Item → Int → Prop
  | .rangeStep a _ s, v => Steps a 0 s v
  | item, v => item.Covers min max v

def Field.Added (min max : Int) : Field → Int → Prop
  | .items list, v => ∃ item ∈ list, item.Added min max v
  | field, v => field.Covers min max v

/-- A set grown by the selected values and free of repetitions where it was before. -/
structure Extends (set grown : List Int) (added : Int → Prop) : Prop where
  mem : ∀ v, v ∈ grown ↔ v ∈ set ∨ added v
  nodup : set.Nodup → grown.Nodup

theorem Extends.insert (set : List Int) (n : Int)
    : Extends set (set.insert n) (fun v => v = n) where
  mem v := by rw [List.mem_insert_iff, or_comm]
  nodup h := h.insert

theorem Extends.congr {set grown : List Int} {added added' : Int → Prop}
    (h : Extends set grown added) (same : ∀ v, added v ↔ added' v)
    : Extends set grown added' where
  mem v := by rw [h.mem, same]
  nodup := h.nodup

theorem Extends.trans {set middle grown : List Int} {first second : Int → Prop}
    (h₁ : Extends set middle first) (h₂ : Extends middle grown second)
    : Extends set grown (fun v => first v ∨ second v) where
  mem v := by rw [h₂.mem, h₁.mem, or_assoc]
  nodup h := h₂.nodup (h₁.nodup h)

-----------------------------------------------------------------------------------------
-- Loops
-----------------------------------------------------------------------------------------

theorem steps_unroll {start last s : Int} (positive : 1 ≤ s) (inside : start ≤ last) (v : Int)
    : v = start ∨ Steps (start + s) last s v ↔ Steps start last s v := by
  constructor
  · intro h
    rcases h with rfl | ⟨lower, upper, divides⟩
    · exact ⟨le_refl v, inside, by simp⟩
    · refine ⟨by omega, upper, ?_⟩
      have split : v - start = v - (start + s) + s := by omega
      exact split ▸ dvd_add divides (dvd_refl s)
  · intro h
    obtain ⟨lower, upper, divides⟩ := h
    by_cases first : v = start
    · exact Or.inl first
    · have distance := Int.le_of_dvd (by omega) divides
      refine Or.inr ⟨by omega, upper, ?_⟩
      have split : v - (start + s) = v - start - s := by omega
      exact split ▸ dvd_sub divides (dvd_refl s)

/-- The arithmetic counts from `start` to `last` by `step` without leaving the integers it
can hold, and does not give up on the way.
-/
structure IntArith.Exact (arith : IntArith) (start last step : Int) : Prop where
  add : ∀ v, Steps start last step v → arith.add v step = v + step
  passes : (last + 1 - start).toNat ≤ arith.passes start last step

theorem unbounded_exact (start last step : Int) : unbounded.Exact start last step where
  add _ _ := rfl
  passes := le_refl _

/-- With enough passes a loop by a positive step adds exactly its values, by induction on
the passes: each one adds the current value and moves on by the step.
-/
theorem addSteps_exact {arith : IntArith} {last step : Int} (positive : 1 ≤ step)
    (passes : Nat) (start : Int) (set : List Int)
    (exact : ∀ v, Steps start last step v → arith.add v step = v + step)
    (enough : (last + 1 - start).toNat ≤ passes)
    : ∃ grown, addSteps arith last step passes start set = .ok grown
        ∧ Extends set grown (Steps start last step) := by
  induction passes generalizing start set with
  | zero =>
      have done : last < start := by omega
      refine ⟨set, by simp [addSteps, done], ⟨fun v => ?_, id⟩⟩
      simp only [Steps, iff_self_or]
      omega
  | succ passes ih =>
      by_cases done : last < start
      · refine ⟨set, by simp [addSteps, done], ⟨fun v => ?_, id⟩⟩
        simp only [Steps, iff_self_or]
        omega
      · have inside : start ≤ last := by omega
        have next : arith.add start step = start + step :=
          exact start ⟨le_refl start, inside, by simp⟩
        obtain ⟨grown, run, grows⟩ := ih (start + step) (set.insert start)
          (fun v later => exact v ((steps_unroll positive inside v).mp (Or.inr later)))
          (by omega)
        refine ⟨grown, ?_, ((Extends.insert set start).trans grows).congr
          (steps_unroll positive inside)⟩
        simpa [addSteps, done, next] using run

theorem addLoop_exact {arith : IntArith} {start last step : Int} (positive : 1 ≤ step)
    (exact : arith.Exact start last step) (set : List Int)
    : ∃ grown, addLoop arith start last step set = .ok grown
        ∧ Extends set grown (Steps start last step) :=
  addSteps_exact positive _ start set exact.add exact.passes

-----------------------------------------------------------------------------------------
-- Splitting texts
-----------------------------------------------------------------------------------------

theorem not_mem_of_mem_split {text piece : Text} {c : Char} (h : piece ∈ split text c)
    : c ∉ piece := by
  unfold split at h
  induction text generalizing piece with
  | nil =>
      have same : piece = [] := by simpa [List.splitOn_eq_splitOnP] using h
      simp [same]
  | cons head rest ih =>
      rw [List.splitOn_cons_eq_if_modifyHead] at h
      split at h
      · rcases List.mem_cons.mp h with rfl | later
        · simp
        · exact ih later
      · rename_i different
        cases pieces : rest.splitOn c with
        | nil => simp at pieces
        | cons first others =>
            rw [pieces, List.modifyHead_cons] at h
            rcases List.mem_cons.mp h with rfl | later
            · have absent := ih (pieces ▸ List.mem_cons_self : first ∈ rest.splitOn c)
              simp only [List.mem_cons, not_or]
              exact ⟨fun same => different (by simp [same]), absent⟩
            · exact ih (pieces ▸ List.mem_cons_of_mem _ later)

theorem split_pair {a b : Text} {c : Char} (ha : c ∉ a) (hb : c ∉ b)
    : split (a ++ c :: b) c = [a, b] := by
  rw [split, List.splitOn_append_cons_self_of_not_mem ha, List.splitOn_eq_singleton hb]

theorem eq_of_split_pair {text a b : Text} {c : Char} (h : split text c = [a, b])
    : text = a ++ c :: b ∧ c ∉ a ∧ c ∉ b := by
  have absent (piece : Text) (member : piece ∈ [a, b]) : c ∉ piece :=
    not_mem_of_mem_split (h ▸ member)
  refine ⟨?_, absent a (by simp), absent b (by simp)⟩
  have joined : [c].intercalate (split text c) = text := List.intercalate_splitOn c
  simpa [h, List.intercalate] using joined.symm

theorem containsChar_eq_true {text : Text} {c : Char} : containsChar text c = true ↔ c ∈ text := by
  simp [containsChar]

theorem containsChar_eq_false {text : Text} {c : Char}
    : containsChar text c = false ↔ c ∉ text := by
  simp [containsChar]

-----------------------------------------------------------------------------------------
-- Items
-----------------------------------------------------------------------------------------

section Items

variable {arith : IntArith} {fits : Int → Prop} {min max : Int}

/-- The arithmetic reads the numbers that fit as `atoi` does, and no others. -/
def IntArith.Reads (arith : IntArith) (fits : Int → Prop) : Prop :=
  ∀ text n, arith.atoi text = some n ↔ CronParser.atoi text = some n ∧ fits n

theorem unbounded_reads : unbounded.Reads (fun _ => True) :=
  fun _ _ => (and_iff_left trivial).symm

theorem IntArith.Reads.atoi_of_numeral (reads : arith.Reads fits) {n : Int} {text : Text}
    (numeral : Numeral n text) (fit : fits n)
    : arith.atoi text = some n :=
  (reads text n).mpr ⟨numeral.atoi, fit⟩

theorem IntArith.Reads.numeral (reads : arith.Reads fits) {n : Int} {text : Text}
    (unsigned : '-' ∉ text) (read : arith.atoi text = some n)
    : Numeral n text ∧ fits n :=
  ((reads text n).mp read).imp (numeral_of_atoi unsigned) id

theorem IntArith.Reads.numeral_pos (reads : arith.Reads fits) {n : Int} {text : Text}
    (positive : 0 < n) (read : arith.atoi text = some n)
    : Numeral n text ∧ fits n :=
  ((reads text n).mp read).imp (numeral_of_atoi_pos positive) id

/-- The numbers an item is written with. -/
def Item.numbers : Item → List Int
  | .value a => [a]
  | .range a b => [a, b]
  | .valueStep a s => [a, s]
  | .rangeStep a b s => [a, b, s]
  | .starStep s => [s]

/-- What the parser does with a well-formed item. -/
def Item.run (arith : IntArith) (min max : Int) (set : List Int)
    : Item → Except Failure (List Int)
  | .value a => .ok (set.insert a)
  | .range a b => addLoop arith a b 1 set
  | .valueStep a s => addLoop arith a max s set
  | .rangeStep a _ s => addLoop arith a 0 s set
  | .starStep s => addLoop arith min max s set

/-- The loop of an item counts exactly. -/
def Item.Exact (arith : IntArith) (min max : Int) : Item → Prop
  | .value _ => True
  | .range a b => arith.Exact a b 1
  | .valueStep a s => arith.Exact a max s
  | .rangeStep a _ s => arith.Exact a 0 s
  | .starStep s => arith.Exact min max s

/-- A well-formed item whose numbers can be read is run, by the forms of an item. -/
theorem addToken_of_spelled (reads : arith.Reads fits) {item : Item} {token : Text}
    (spelled : item.Spells token) (within : item.Within min max)
    (fit : ∀ n ∈ item.numbers, fits n) (set : List Int)
    : addToken arith min max set token = item.run arith min max set := by
  cases spelled with
  | @value a _ ha =>
      obtain ⟨lower, upper⟩ := within
      have noSlash := containsChar_eq_false.mpr ha.plain.2.1
      have noDash := containsChar_eq_false.mpr ha.plain.2.2.1
      have readA := reads.atoi_of_numeral ha (fit a (by simp [Item.numbers]))
      simp [addToken, noSlash, noDash, readA, not_lt.mpr lower, not_lt.mpr upper, Item.run]
  | @range a b t u ha hb =>
      obtain ⟨lower, ordered, upper⟩ := within
      have noSlash : containsChar (t ++ '-' :: u) '/' = false := by
        simp [containsChar_eq_false, ha.plain.2.1, hb.plain.2.1]
      have dash : containsChar (t ++ '-' :: u) '-' = true := by simp [containsChar_eq_true]
      have readA := reads.atoi_of_numeral ha (fit a (by simp [Item.numbers]))
      have readB := reads.atoi_of_numeral hb (fit b (by simp [Item.numbers]))
      simp only [addToken, noSlash, dash, split_pair ha.plain.2.2.1 hb.plain.2.2.1, readA, readB]
      simp [not_lt.mpr lower, not_lt.mpr upper, not_lt.mpr ordered, Item.run]
  | @valueStep a s t u ha hs =>
      obtain ⟨lower, upper, positive⟩ := within
      have slash : containsChar (t ++ '/' :: u) '/' = true := by simp [containsChar_eq_true]
      have noDash := containsChar_eq_false.mpr ha.plain.2.2.1
      have noStar : t ≠ ['*'] := fun same => ha.plain.2.2.2 (by simp [same])
      have readA := reads.atoi_of_numeral ha (fit a (by simp [Item.numbers]))
      have readS := reads.atoi_of_numeral hs (fit s (by simp [Item.numbers]))
      simp only [addToken, slash, split_pair ha.plain.2.1 hs.plain.2.1, readS, stepBounds, noStar,
        noDash, readA]
      simp [not_lt.mpr lower, not_lt.mpr upper, not_le.mpr (by omega : 0 < s), Item.run]
  | @rangeStep a b s t u v ha hb hs =>
      obtain ⟨lower, ordered, upper, positive⟩ := within
      have slash : containsChar ((t ++ '-' :: u) ++ '/' :: v) '/' = true := by
        simp [containsChar_eq_true]
      have noSlash : '/' ∉ t ++ '-' :: u := by simp [ha.plain.2.1, hb.plain.2.1]
      have dash : containsChar (t ++ '-' :: u) '-' = true := by simp [containsChar_eq_true]
      have noStar : t ++ '-' :: u ≠ ['*'] := by
        intro same
        cases t <;> simp at same
      have readA := reads.atoi_of_numeral ha (fit a (by simp [Item.numbers]))
      have readB := reads.atoi_of_numeral hb (fit b (by simp [Item.numbers]))
      have readS := reads.atoi_of_numeral hs (fit s (by simp [Item.numbers]))
      simp only [addToken, slash, split_pair noSlash hs.plain.2.1, readS, stepBounds, noStar, dash,
        split_pair ha.plain.2.2.1 hb.plain.2.2.1, readA, readB]
      simp [not_lt.mpr lower, not_lt.mpr upper, not_lt.mpr ordered,
        not_le.mpr (by omega : 0 < s), Item.run]
  | @starStep s t hs =>
      have positive : 1 ≤ s := within
      have slash : containsChar ('*' :: '/' :: t) '/' = true := by simp [containsChar_eq_true]
      have parts : split ('*' :: '/' :: t) '/' = [['*'], t] :=
        split_pair (a := ['*']) (by decide) hs.plain.2.1
      have readS := reads.atoi_of_numeral hs (fit s (by simp [Item.numbers]))
      simp only [addToken, slash, parts, readS, stepBounds]
      simp [not_le.mpr (by omega : 0 < s), Item.run]

/-- The loop of an item that counts exactly runs to the end and adds its values. -/
theorem Item.run_exact {item : Item} (within : item.Within min max)
    (exact : item.Exact arith min max) (set : List Int)
    : ∃ grown, item.run arith min max set = .ok grown
        ∧ Extends set grown (item.Added min max) := by
  cases item with
  | value a => exact ⟨set.insert a, rfl, Extends.insert set a⟩
  | range a b =>
      obtain ⟨grown, run, grows⟩ := addLoop_exact (le_refl 1) exact set
      exact ⟨grown, run, grows.congr fun v => by simp [Steps, Item.Added, Item.Covers]⟩
  | valueStep a s => exact addLoop_exact within.2.2 exact set
  | rangeStep a b s => exact addLoop_exact within.2.2.2 exact set
  | starStep s => exact addLoop_exact within exact set

theorem stepBounds_message {base : Text} {failure : Failure}
    (h : stepBounds arith base min max = .error failure)
    : ∃ text, failure = .message text := by
  unfold stepBounds invalid at h
  split at h
  · exact absurd h (by simp)
  · split at h
    · split at h
      · split at h
        · split at h
          · exact ⟨_, (Except.error.inj h).symm⟩
          · exact absurd h (by simp)
        · exact ⟨_, (Except.error.inj h).symm⟩
      · exact ⟨_, (Except.error.inj h).symm⟩
    · split at h
      · split at h
        · exact ⟨_, (Except.error.inj h).symm⟩
        · exact absurd h (by simp)
      · exact ⟨_, (Except.error.inj h).symm⟩

/-- An accepted base gives the loop's bounds and is `*`, a range or a value in bounds. -/
theorem stepBounds_ok (reads : arith.Reads fits) {base : Text} {bounds : Int × Int}
    (h : stepBounds arith base min max = .ok bounds)
    : base = ['*']
      ∨ (∃ a b t u, base = t ++ '-' :: u ∧ (Numeral a t ∧ fits a) ∧ (Numeral b u ∧ fits b)
          ∧ min ≤ a ∧ a ≤ b ∧ b ≤ max)
      ∨ ∃ a, (Numeral a base ∧ fits a) ∧ min ≤ a ∧ a ≤ max := by
  unfold stepBounds at h
  split at h
  · exact Or.inl ‹_›
  · split at h
    · split at h
      · rename_i first second parts
        obtain ⟨shape, noDash, noDash'⟩ := eq_of_split_pair parts
        split at h
        · rename_i a b readA readB
          split at h
          · exact absurd h (by simp [invalid])
          · rename_i inside
            simp only [Bool.or_eq_true, decide_eq_true_eq, not_or, gt_iff_lt, not_lt] at inside
            exact Or.inr (Or.inl ⟨a, b, first, second, shape,
              reads.numeral noDash readA, reads.numeral noDash' readB,
              inside.1.2, inside.1.1, inside.2⟩)
        · exact absurd h (by simp [invalid])
      · exact absurd h (by simp [invalid])
    · rename_i noDash
      split at h
      · rename_i a readA
        split at h
        · exact absurd h (by simp [invalid])
        · rename_i inside
          simp only [Bool.or_eq_true, decide_eq_true_eq, not_or, gt_iff_lt, not_lt] at inside
          have unsigned := containsChar_eq_false.mp (Bool.not_eq_true _ ▸ noDash)
          exact Or.inr (Or.inr ⟨a, reads.numeral unsigned readA, inside⟩)
      · exact absurd h (by simp [invalid])

/-- A token is a well-formed item whose numbers fit. -/
def Readable (fits : Int → Prop) (min max : Int) (token : Text) : Prop :=
  ∃ item : Item, item.Spells token ∧ item.Within min max ∧ ∀ n ∈ item.numbers, fits n

/-- A token the parser does not reject is a well-formed item, following the parser's tests
for a slash and a dash.
-/
theorem addToken_message_or_readable (reads : arith.Reads fits) (min max : Int)
    (token : Text) (set : List Int)
    : (∃ text, addToken arith min max set token = .error (.message text))
      ∨ Readable fits min max token := by
  unfold addToken
  split
  · split
    · rename_i base stepText parts
      obtain ⟨rfl, -, -⟩ := eq_of_split_pair parts
      split
      · rename_i s readS
        split
        · exact Or.inl ⟨_, rfl⟩
        · rename_i positive
          obtain ⟨hs, fitS⟩ := reads.numeral_pos (by omega) readS
          split
          · rename_i failure rejected
            obtain ⟨text, rfl⟩ := stepBounds_message rejected
            exact Or.inl ⟨text, rfl⟩
          · rename_i bounds
            rcases stepBounds_ok reads bounds
              with rfl | ⟨a, b, t, u, rfl, ⟨ha, fitA⟩, ⟨hb, fitB⟩, inside⟩ | ⟨a, ⟨ha, fitA⟩, inside⟩
            · exact Or.inr ⟨.starStep s, .starStep hs, show 1 ≤ s by omega,
                by simpa [Item.numbers] using fitS⟩
            · exact Or.inr ⟨.rangeStep a b s, .rangeStep ha hb hs,
                ⟨inside.1, inside.2.1, inside.2.2, by omega⟩,
                by simpa [Item.numbers] using ⟨fitA, fitB, fitS⟩⟩
            · exact Or.inr ⟨.valueStep a s, .valueStep ha hs, ⟨inside.1, inside.2, by omega⟩,
                by simpa [Item.numbers] using ⟨fitA, fitS⟩⟩
      · exact Or.inl ⟨_, rfl⟩
    · exact Or.inl ⟨_, rfl⟩
  · split
    · split
      · rename_i first second parts
        obtain ⟨rfl, noDash, noDash'⟩ := eq_of_split_pair parts
        split
        · rename_i a b readA readB
          split
          · exact Or.inl ⟨_, rfl⟩
          · rename_i inside
            simp only [Bool.or_eq_true, decide_eq_true_eq, not_or, gt_iff_lt, not_lt] at inside
            obtain ⟨ha, fitA⟩ := reads.numeral noDash readA
            obtain ⟨hb, fitB⟩ := reads.numeral noDash' readB
            exact Or.inr ⟨.range a b, .range ha hb, ⟨inside.1.2, inside.1.1, inside.2⟩,
              by simpa [Item.numbers] using ⟨fitA, fitB⟩⟩
        · exact Or.inl ⟨_, rfl⟩
      · exact Or.inl ⟨_, rfl⟩
    · rename_i noDash
      split
      · rename_i a readA
        split
        · exact Or.inl ⟨_, rfl⟩
        · rename_i inside
          simp only [Bool.or_eq_true, decide_eq_true_eq, not_or, gt_iff_lt, not_lt] at inside
          have unsigned := containsChar_eq_false.mp (Bool.not_eq_true _ ▸ noDash)
          obtain ⟨ha, fitA⟩ := reads.numeral unsigned readA
          exact Or.inr ⟨.value a, .value ha, inside, by simpa [Item.numbers] using fitA⟩
      · exact Or.inl ⟨_, rfl⟩

theorem readable_of_addToken (reads : arith.Reads fits) {token : Text} {set grown : List Int}
    (h : addToken arith min max set token = .ok grown)
    : Readable fits min max token := by
  rcases addToken_message_or_readable reads min max token set
    with ⟨text, rejected⟩ | readable
  · exact absurd (h.symm.trans rejected) (by simp)
  · exact readable

/-- A list of well-formed items is run item by item. -/
theorem foldlM_addToken (reads : arith.Reads fits) {list : List Item} {tokens : List Text}
    (spelled : List.Forall₂ Item.Spells list tokens)
    (within : ∀ item ∈ list, item.Within min max)
    (fit : ∀ item ∈ list, ∀ n ∈ item.numbers, fits n) (set : List Int)
    : tokens.foldlM (addToken arith min max) set = list.foldlM (Item.run arith min max) set := by
  induction spelled generalizing set with
  | nil => rfl
  | @cons item token list tokens head _ ih =>
      rw [List.foldlM_cons, List.foldlM_cons,
        addToken_of_spelled reads head (within item (by simp)) (fit item (by simp)) set]
      exact congrArg _ (funext fun middle =>
        ih (fun item member => within item (List.mem_cons_of_mem _ member))
          (fun item member => fit item (List.mem_cons_of_mem _ member)) middle)

/-- Items that count exactly add the values of all of them, by induction on the list. -/
theorem foldlM_run_exact {list : List Item} (within : ∀ item ∈ list, item.Within min max)
    (exact : ∀ item ∈ list, item.Exact arith min max) (set : List Int)
    : ∃ grown, list.foldlM (Item.run arith min max) set = .ok grown
        ∧ Extends set grown (fun v => ∃ item ∈ list, item.Added min max v) := by
  induction list generalizing set with
  | nil => exact ⟨set, rfl, fun v => by simp, id⟩
  | cons item list ih =>
      obtain ⟨middle, run, first⟩ :=
        Item.run_exact (within item (by simp)) (exact item (by simp)) set
      obtain ⟨grown, rest, others⟩ :=
        ih (fun item member => within item (List.mem_cons_of_mem _ member))
          (fun item member => exact item (List.mem_cons_of_mem _ member)) middle
      refine ⟨grown, ?_, (first.trans others).congr fun v => by simp⟩
      rw [List.foldlM_cons, run]
      exact rest

theorem spells_of_foldlM (reads : arith.Reads fits) {tokens : List Text}
    {set grown : List Int} (h : tokens.foldlM (addToken arith min max) set = .ok grown)
    : ∃ list, List.Forall₂ Item.Spells list tokens ∧ (∀ item ∈ list, item.Within min max)
        ∧ ∀ item ∈ list, ∀ n ∈ item.numbers, fits n := by
  induction tokens generalizing set with
  | nil => exact ⟨[], .nil, by simp, by simp⟩
  | cons token rest ih =>
      rw [List.foldlM_cons] at h
      obtain ⟨middle, run, h⟩ := bind_ok h
      obtain ⟨item, spelled, inside, fit⟩ := readable_of_addToken reads run
      obtain ⟨list, others, within, fits⟩ := ih h
      exact ⟨item :: list, .cons spelled others, List.forall_mem_cons.mpr ⟨inside, within⟩,
        List.forall_mem_cons.mpr ⟨fit, fits⟩⟩

end Items

-----------------------------------------------------------------------------------------
-- Fields
-----------------------------------------------------------------------------------------

section Fields

variable {arith : IntArith} {fits : Int → Prop} {min max : Int}

theorem Item.Spells.no_comma {item : Item} {token : Text} (h : item.Spells token)
    : ',' ∉ token := by
  cases h with
  | value ha => exact ha.plain.1
  | range ha hb => simp [ha.plain.1, hb.plain.1]
  | valueStep ha hs => simp [ha.plain.1, hs.plain.1]
  | rangeStep ha hb hs => simp [ha.plain.1, hb.plain.1, hs.plain.1]
  | starStep hs => simp [hs.plain.1]

theorem Item.Spells.ne_star {item : Item} {token : Text} (h : item.Spells token)
    : token ≠ ['*'] := by
  cases h with
  | value ha => exact fun same => ha.plain.2.2.2 (by simp [same])
  | range | rangeStep =>
      intro same
      have member : '-' ∈ ['*'] := by rw [← same]; simp
      simp at member
  | valueStep =>
      intro same
      have member : '/' ∈ ['*'] := by rw [← same]; simp
      simp at member
  | starStep => simp

theorem no_comma_of_spelled {list : List Item} {tokens : List Text}
    (spelled : List.Forall₂ Item.Spells list tokens)
    : ∀ token ∈ tokens, ',' ∉ token := by
  induction spelled with
  | nil => simp
  | cons head _ ih => simpa using ⟨head.no_comma, ih⟩

/-- The tokens of a written list are recovered by splitting at the commas. -/
theorem split_intercalate {list : List Item} {tokens : List Text} (nonempty : tokens ≠ [])
    (spelled : List.Forall₂ Item.Spells list tokens)
    : split ([','].intercalate tokens) ',' = tokens :=
  List.splitOn_intercalate ',' (no_comma_of_spelled spelled) nonempty

theorem intercalate_ne_star {list : List Item} {tokens : List Text} (nonempty : tokens ≠ [])
    (spelled : List.Forall₂ Item.Spells list tokens)
    : [','].intercalate tokens ≠ ['*'] := by
  intro same
  have tokensEq : tokens = [['*']] := by
    rw [← split_intercalate nonempty spelled, same]
    rfl
  subst tokensEq
  cases spelled with
  | cons head _ => exact head.ne_star rfl

theorem hasPrefix_iff {text start : Text} : hasPrefix text start = true ↔ start <+: text := by
  simp [hasPrefix]

/-- The numbers a field is written with. -/
def Field.numbers : Field → List Int
  | .star => []
  | .starStep s => [s]
  | .items list => list.flatMap Item.numbers

/-- What the parser does with a well-formed field. -/
def Field.run (arith : IntArith) (min max : Int) : Field → Except Failure (List Int)
  | .star => addLoop arith min max 1 []
  | .starStep s => addLoop arith min max s []
  | .items list => list.foldlM (Item.run arith min max) []

/-- Every loop of a field counts exactly. -/
def Field.Exact (arith : IntArith) (min max : Int) : Field → Prop
  | .star => arith.Exact min max 1
  | .starStep s => arith.Exact min max s
  | .items list => ∀ item ∈ list, item.Exact arith min max

theorem parseSet_of_spells (reads : arith.Reads fits) {field : Field} {part : Text}
    (h : field.Spells min max part) (fit : ∀ n ∈ field.numbers, fits n)
    : parseSet arith part min max = field.run arith min max := by
  cases h with
  | star =>
      have step : starStep arith ['*'] = .ok 1 := by simp [starStep, hasPrefix]
      simp [parseSet, step, Field.run]
  | @starStep s t hs positive =>
      have starts : hasPrefix ('*' :: '/' :: t) ['*', '/'] = true := by simp [hasPrefix]
      have read := reads.atoi_of_numeral hs (fit s (by simp [Field.numbers]))
      have step : starStep arith ('*' :: '/' :: t) = .ok s := by
        simp [starStep, starts, read, not_le.mpr (by omega : 0 < s)]
      simp [parseSet, step, starts, Field.run]
  | @items list tokens nonempty spelled within plain =>
      have noPrefix : hasPrefix ([','].intercalate tokens) ['*', '/'] = false :=
        Bool.eq_false_iff.mpr fun starts => plain (hasPrefix_iff.mp starts)
      have fitItems (item : Item) (member : item ∈ list) : ∀ n ∈ item.numbers, fits n :=
        fun n number => fit n (List.mem_flatMap.mpr ⟨item, member, number⟩)
      simp only [parseSet, noPrefix, intercalate_ne_star nonempty spelled,
        split_intercalate nonempty spelled, foldlM_addToken reads spelled within fitItems]
      rfl

theorem Field.Spells.run_exact {field : Field} {part : Text} (h : field.Spells min max part)
    (exact : field.Exact arith min max)
    : ∃ set, field.run arith min max = .ok set ∧ Extends [] set (field.Added min max) := by
  cases h with
  | star => exact addLoop_exact (le_refl 1) exact []
  | starStep _ positive => exact addLoop_exact positive exact []
  | items _ _ within _ => exact foldlM_run_exact within exact []

theorem spells_of_parseSet (reads : arith.Reads fits) {part : Text} {set : List Int}
    (h : parseSet arith part min max = .ok set)
    : ∃ field : Field, field.Spells min max part ∧ ∀ n ∈ field.numbers, fits n := by
  unfold parseSet at h
  split at h
  · rename_i starred
    by_cases single : part = ['*']
    · exact ⟨.star, single ▸ .star, by simp [Field.numbers]⟩
    · have starts : hasPrefix part ['*', '/'] = true := by simpa [single] using starred
      obtain ⟨rest, rfl⟩ := hasPrefix_iff.mp starts
      simp only [starStep, starts, if_true] at h
      cases read : arith.atoi rest with
      | none => simp [read, invalid] at h
      | some s =>
          by_cases positive : s ≤ 0
          · simp [read, invalid, positive] at h
          · obtain ⟨hs, fit⟩ := reads.numeral_pos (by omega) read
            exact ⟨.starStep s, .starStep hs (by omega), by simpa [Field.numbers] using fit⟩
  · rename_i plain
    obtain ⟨list, spelled, within, fit⟩ := spells_of_foldlM reads h
    have joined : [','].intercalate (split part ',') = part := List.intercalate_splitOn ','
    have noPrefix : ¬ ['*', '/'] <+: [','].intercalate (split part ',') := by
      rw [joined, ← hasPrefix_iff]
      exact fun starts => plain (by simp [starts])
    refine ⟨.items list,
      joined ▸ .items (List.splitOn_ne_nil ',' part) spelled within noPrefix, ?_⟩
    intro n number
    obtain ⟨item, member, written⟩ := List.mem_flatMap.mp number
    exact fit item member n written

theorem sortInts_lists {set : List Int} {added : Int → Prop} (grows : Extends [] set added)
    : Lists (sortInts set) added where
  ascending := by
    have sorted : (sortInts set).Pairwise (· ≤ ·) := List.pairwise_insertionSort _ _
    have distinct : (sortInts set).Nodup :=
      (List.perm_insertionSort _ _).nodup_iff.mpr (grows.nodup List.nodup_nil)
    exact (sorted.and distinct).imp fun both => lt_of_le_of_ne both.1 both.2
  mem v := by simp [sortInts, grows.mem]

/-- A well-formed field whose loops count exactly is accepted, and its list holds the added
values.
-/
theorem parsePart_exact (reads : arith.Reads fits) {field : Field} {part : Text}
    (h : field.Spells min max part) (fit : ∀ n ∈ field.numbers, fits n)
    (exact : field.Exact arith min max)
    : ∃ list, parsePart arith part min max = .ok list
        ∧ Lists list (field.Added min max) := by
  obtain ⟨set, run, grows⟩ := h.run_exact exact
  refine ⟨sortInts set, ?_, sortInts_lists grows⟩
  rw [parsePart, parseSet_of_spells reads h fit, run]
  rfl

theorem spells_of_parsePart (reads : arith.Reads fits) {part : Text} {list : List Int}
    (h : parsePart arith part min max = .ok list)
    : ∃ field : Field, field.Spells min max part ∧ ∀ n ∈ field.numbers, fits n := by
  cases run : parseSet arith part min max with
  | error failure => simp [parsePart, run, Except.map] at h
  | ok set => exact spells_of_parseSet reads run

theorem Item.exact_unbounded (item : Item) : item.Exact unbounded min max := by
  cases item with
  | value => trivial
  | range | valueStep | rangeStep | starStep => exact unbounded_exact _ _ _

theorem Field.exact_unbounded (field : Field) : field.Exact unbounded min max := by
  cases field with
  | star | starStep => exact unbounded_exact _ _ _
  | items list => exact fun item _ => item.exact_unbounded

theorem parsePart_of_spells {field : Field} {part : Text} (h : field.Spells min max part)
    : ∃ list, parsePart unbounded part min max = .ok list
        ∧ Lists list (field.Added min max) :=
  parsePart_exact unbounded_reads h (fun _ _ => trivial) field.exact_unbounded

end Fields

end GoFire.CronParser
