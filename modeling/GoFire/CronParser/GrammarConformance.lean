import GoFire.CronParser.FieldCoverage

/-! Conformance of ParseCron to the grammar of cron expressions.
Acceptance conforms on every text; the parsed lists conform exactly where the values of
stepped ranges are also covered by other items.
-/

namespace GoFire.CronParser

/-- No field accepts nothing. -/
def CronExpr.NoEmptyField (c : CronExpr) : Prop :=
  c.minute ≠ [] ∧ c.hour ≠ [] ∧ c.dayOfMonth ≠ [] ∧ c.month ≠ [] ∧ c.dayOfWeek ≠ []

/-- ParseCron accepts an expression exactly when it is in the grammar, and then every parsed
list is the nonempty ascending list of the values its field covers.
-/
def MeetsGrammar (expr : String) : Prop :=
  ((∃ c, parseCron unbounded expr = .ok c) ↔ ∃ spec : CronSpec, spec.Spells expr)
  ∧ ∀ c (spec : CronSpec), parseCron unbounded expr = .ok c → spec.Spells expr
      → c.Covers spec ∧ c.NoEmptyField

/-- Every value other than 0 that an item `a-b/s` covers is covered by an item of the same
field in another form.
-/
def Field.RangeStepsRedundant (min max : Int) : Field → Prop
  | .items list =>
      ∀ item ∈ list, item.isRangeStep →
        ∀ v, v ≠ 0 → item.Covers min max v →
          ∃ other ∈ list, other.isRangeStep = false ∧ other.Covers min max v
  | _ => True

structure CronSpec.RangeStepsRedundant (spec : CronSpec) : Prop where
  minute : spec.minute.RangeStepsRedundant 0 59
  hour : spec.hour.RangeStepsRedundant 0 23
  dayOfMonth : spec.dayOfMonth.RangeStepsRedundant 1 31
  month : spec.month.RangeStepsRedundant 1 12
  dayOfWeek : spec.dayOfWeek.RangeStepsRedundant 0 6

section Fields

variable {min max : Int}

theorem Item.added_iff_covers {item : Item} (plain : item.isRangeStep = false) (v : Int)
    : item.Added min max v ↔ item.Covers min max v := by
  cases item with
  | rangeStep => simp [Item.isRangeStep] at plain
  | _ => rfl

/-- The parser adds no value an item does not cover: the loop of a stepped range only
reaches 0, and only from a range that starts there.
-/
theorem Item.covers_of_added {item : Item} (floor : 0 ≤ min) (within : item.Within min max)
    {v : Int} (h : item.Added min max v)
    : item.Covers min max v := by
  cases item with
  | rangeStep a b s =>
      obtain ⟨lower, upper, divides⟩ := h
      obtain ⟨bound, ordered, -, -⟩ := within
      exact ⟨lower, by omega, divides⟩
  | _ => exact h

theorem Item.added_rangeStep_eq_zero {item : Item} (floor : 0 ≤ min)
    (within : item.Within min max) (stepped : item.isRangeStep) {v : Int}
    (h : item.Added min max v)
    : v = 0 := by
  cases item with
  | rangeStep a b s =>
      obtain ⟨lower, upper, -⟩ := h
      obtain ⟨bound, -, -, -⟩ := within
      omega
  | _ => simp [Item.isRangeStep] at stepped

theorem Item.added_zero_of_covers {item : Item} (h : item.Covers min max 0)
    : item.Added min max 0 := by
  cases item with
  | rangeStep a b s =>
      obtain ⟨lower, -, divides⟩ := h
      exact ⟨lower, le_refl 0, divides⟩
  | _ => exact h

/-- A field's parsed values are the covered ones exactly when its stepped ranges are
redundant: the loop of a stepped range contributes no value but 0.
-/
theorem Field.added_iff_covers_iff {field : Field} {part : Text} (floor : 0 ≤ min)
    (h : field.Spells min max part)
    : (∀ v, field.Added min max v ↔ field.Covers min max v)
      ↔ field.RangeStepsRedundant min max := by
  cases h with
  | star => exact iff_of_true (fun _ => Iff.rfl) trivial
  | starStep => exact iff_of_true (fun _ => Iff.rfl) trivial
  | @items list tokens nonempty spelled within plain =>
      constructor
      · intro same item member stepped v nonzero covered
        obtain ⟨other, found, added⟩ := (same v).mpr ⟨item, member, covered⟩
        cases form : other.isRangeStep with
        | true =>
            exact absurd
              (other.added_rangeStep_eq_zero floor (within other found) form added) nonzero
        | false => exact ⟨other, found, form, (other.added_iff_covers form v).mp added⟩
      · intro redundant v
        constructor
        · intro h
          obtain ⟨item, member, added⟩ := h
          exact ⟨item, member, item.covers_of_added floor (within item member) added⟩
        · intro h
          obtain ⟨item, member, covered⟩ := h
          by_cases zero : v = 0
          · subst zero
            exact ⟨item, member, item.added_zero_of_covers covered⟩
          · cases form : item.isRangeStep with
            | false => exact ⟨item, member, (item.added_iff_covers form v).mpr covered⟩
            | true =>
                obtain ⟨other, found, plainForm, elsewhere⟩ :=
                  redundant item member form v zero covered
                exact ⟨other, found, (other.added_iff_covers plainForm v).mpr elsewhere⟩

theorem Lists.congr_iff {list : List Int} {selected selected' : Int → Prop}
    (h : Lists list selected)
    : Lists list selected' ↔ ∀ v, selected v ↔ selected' v := by
  constructor
  · intro h' v
    rw [← h.mem, h'.mem]
  · exact fun same => ⟨h.ascending, fun v => (h.mem v).trans (same v)⟩

/-- Parsing a well-formed field conforms exactly when its stepped ranges are redundant. -/
theorem parsePart_conforms_iff {field : Field} {part : Text} {list : List Int}
    (floor : 0 ≤ min) (h : field.Spells min max part)
    (run : parsePart unbounded part min max = .ok list)
    : Lists list (field.Covers min max) ↔ field.RangeStepsRedundant min max := by
  obtain ⟨parsed, run', lists⟩ := parsePart_of_spells h
  obtain rfl : parsed = list := Except.ok.inj (run'.symm.trans run)
  exact lists.congr_iff.trans (Field.added_iff_covers_iff floor h)

/-- A well-formed field covers the first value of its first item. -/
theorem Field.Spells.exists_covers {field : Field} {part : Text} (ordered : min ≤ max)
    (h : field.Spells min max part)
    : ∃ v, field.Covers min max v := by
  cases h with
  | star => exact ⟨min, le_refl min, ordered, by simp⟩
  | starStep => exact ⟨min, le_refl min, ordered, by simp⟩
  | @items list tokens nonempty spelled within plain =>
      cases spelled with
      | nil => exact absurd rfl nonempty
      | @cons item token rest tokens _ _ =>
          have inside := within item (by simp)
          suffices ∃ v, item.Covers min max v by
            obtain ⟨v, covered⟩ := this
            exact ⟨v, item, by simp, covered⟩
          cases item with
          | value a => exact ⟨a, rfl⟩
          | range a b => exact ⟨a, le_refl a, inside.2.1⟩
          | valueStep a s => exact ⟨a, le_refl a, inside.2.1, by simp⟩
          | rangeStep a b s => exact ⟨a, le_refl a, inside.2.1, by simp⟩
          | starStep s => exact ⟨min, le_refl min, ordered, by simp⟩

theorem Lists.ne_nil {field : Field} {part : Text} {list : List Int} (ordered : min ≤ max)
    (h : field.Spells min max part) (lists : Lists list (field.Covers min max))
    : list ≠ [] := by
  obtain ⟨v, covered⟩ := h.exists_covers ordered
  exact List.ne_nil_of_mem ((lists.mem v).mpr covered)

end Fields

/-- Acceptance is membership in the grammar, field by field. -/
theorem parseCron_accepts_iff (expr : String)
    : (∃ c, parseCron unbounded expr = .ok c) ↔ ∃ spec : CronSpec, spec.Spells expr := by
  constructor
  · intro h
    obtain ⟨c, h⟩ := h
    obtain ⟨_, _, _, _, _, five, hm, hh, hd, hmo, hw⟩ := parseCron_ok.mp h
    obtain ⟨minute, sm, -⟩ := spells_of_parsePart unbounded_reads hm
    obtain ⟨hour, sh, -⟩ := spells_of_parsePart unbounded_reads hh
    obtain ⟨dayOfMonth, sd, -⟩ := spells_of_parsePart unbounded_reads hd
    obtain ⟨month, smo, -⟩ := spells_of_parsePart unbounded_reads hmo
    obtain ⟨dayOfWeek, sw, -⟩ := spells_of_parsePart unbounded_reads hw
    exact ⟨⟨minute, hour, dayOfMonth, month, dayOfWeek⟩, _, _, _, _, _, five,
      sm, sh, sd, smo, sw⟩
  · intro h
    obtain ⟨spec, _, _, _, _, _, five, sm, sh, sd, smo, sw⟩ := h
    obtain ⟨minute, hm, -⟩ := parsePart_of_spells sm
    obtain ⟨hour, hh, -⟩ := parsePart_of_spells sh
    obtain ⟨dayOfMonth, hd, -⟩ := parsePart_of_spells sd
    obtain ⟨month, hmo, -⟩ := parsePart_of_spells smo
    obtain ⟨dayOfWeek, hw, -⟩ := parsePart_of_spells sw
    exact ⟨⟨minute, hour, dayOfMonth, month, dayOfWeek⟩,
      parseCron_ok.mpr ⟨_, _, _, _, _, five, hm, hh, hd, hmo, hw⟩⟩

theorem covers_iff_rangeStepsRedundant {expr : String} {c : CronExpr} {spec : CronSpec}
    (run : parseCron unbounded expr = .ok c) (spelled : spec.Spells expr)
    : c.Covers spec ↔ spec.RangeStepsRedundant := by
  obtain ⟨_, _, _, _, _, five, hm, hh, hd, hmo, hw⟩ := parseCron_ok.mp run
  obtain ⟨_, _, _, _, _, five', sm, sh, sd, smo, sw⟩ := spelled
  obtain ⟨rfl, rfl, rfl, rfl, rfl⟩ : _ ∧ _ ∧ _ ∧ _ ∧ _ := by
    simpa using five.symm.trans five'
  have minute := parsePart_conforms_iff (by decide) sm hm
  have hour := parsePart_conforms_iff (by decide) sh hh
  have dayOfMonth := parsePart_conforms_iff (by decide) sd hd
  have month := parsePart_conforms_iff (by decide) smo hmo
  have dayOfWeek := parsePart_conforms_iff (by decide) sw hw
  constructor
  · intro h
    obtain ⟨cm, ch, cd, cmo, cw⟩ := h
    exact ⟨minute.mp cm, hour.mp ch, dayOfMonth.mp cd, month.mp cmo, dayOfWeek.mp cw⟩
  · intro h
    obtain ⟨rm, rh, rd, rmo, rw'⟩ := h
    exact ⟨minute.mpr rm, hour.mpr rh, dayOfMonth.mpr rd, month.mpr rmo, dayOfWeek.mpr rw'⟩

theorem CronExpr.Covers.noEmptyField {expr : String} {c : CronExpr} {spec : CronSpec}
    (covers : c.Covers spec) (spelled : spec.Spells expr)
    : c.NoEmptyField := by
  obtain ⟨_, _, _, _, _, -, sm, sh, sd, smo, sw⟩ := spelled
  exact ⟨covers.minute.ne_nil (by decide) sm, covers.hour.ne_nil (by decide) sh,
    covers.dayOfMonth.ne_nil (by decide) sd, covers.month.ne_nil (by decide) smo,
    covers.dayOfWeek.ne_nil (by decide) sw⟩

/-- ParseCron conforms to the grammar on exactly the texts whose stepped ranges are
redundant in every field, texts outside the grammar included.
-/
theorem meetsGrammar_iff (expr : String)
    : MeetsGrammar expr ↔ ∀ spec : CronSpec, spec.Spells expr → spec.RangeStepsRedundant := by
  constructor
  · intro h spec spelled
    obtain ⟨-, conforms⟩ := h
    obtain ⟨c, run⟩ := (parseCron_accepts_iff expr).mpr ⟨spec, spelled⟩
    exact (covers_iff_rangeStepsRedundant run spelled).mp (conforms c spec run spelled).1
  · intro redundant
    refine ⟨parseCron_accepts_iff expr, fun c spec run spelled => ?_⟩
    have covers := (covers_iff_rangeStepsRedundant run spelled).mpr (redundant spec spelled)
    exact ⟨covers, covers.noEmptyField spelled⟩

/-- The stepped range of `10-20/5` leaves the minute field empty. -/
theorem rangeStep_not_meetsGrammar : ¬ MeetsGrammar "10-20/5 * * * *" := by
  intro h
  obtain ⟨accepts, conforms⟩ := h
  have minute : (parseCron unbounded "10-20/5 * * * *").map CronExpr.minute = .ok [] := by
    rfl
  cases run : parseCron unbounded "10-20/5 * * * *" with
  | error failure => simp [run, Except.map] at minute
  | ok c =>
      obtain ⟨spec, spelled⟩ := accepts.mp ⟨c, run⟩
      refine (conforms c spec run spelled).2.1 ?_
      simpa [run, Except.map] using minute

end GoFire.CronParser
