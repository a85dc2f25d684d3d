import GoFire.CronParser.FieldParsing

/-! The language of cron fields and the values each of its items stands for.
This is the intended reading of an expression, stated without the parser.
-/

namespace GoFire.CronParser

/-- An unsigned or `+`-signed decimal numeral and its value. -/
def Numeral (n : Int) (text : Text) : Prop :=
  ∃ digits : Text,
    (text = digits ∨ text = '+' :: digits)
    ∧ digits ≠ []
    ∧ (∀ c ∈ digits, c.isDigit)
    ∧ n = digitsValue digits

/-- The items of a comma-separated list: `a`, `a-b`, `a/s`, `a-b/s` and `*/s`. -/
inductive Item where
  | value (a : Int)
  | range (a b : Int)
  | valueStep (a s : Int)
  | rangeStep (a b s : Int)
  | starStep (s : Int)
deriving DecidableEq

/-- How an item is written. -/
inductive Item.Spells : Item → Text → Prop
  | value {a t} (ha : Numeral a t) : Spells (.value a) t
  | range {a b t u} (ha : Numeral a t) (hb : Numeral b u) : Spells (.range a b) (t ++ '-' :: u)
  | valueStep {a s t u} (ha : Numeral a t) (hs : Numeral s u)
    : Spells (.valueStep a s) (t ++ '/' :: u)
  | rangeStep {a b s t u v} (ha : Numeral a t) (hb : Numeral b u) (hs : Numeral s v)
    : Spells (.rangeStep a b s) ((t ++ '-' :: u) ++ '/' :: v)
  | starStep {s t} (hs : Numeral s t) : Spells (.starStep s) ('*' :: '/' :: t)

/-- The numbers of an item respect the bounds of its field, and steps are positive. -/
def Item.Within (min max : Int) : Item → Prop
  | .value a => min ≤ a ∧ a ≤ max
  | .range a b => min ≤ a ∧ a ≤ b ∧ b ≤ max
  | .valueStep a s => min ≤ a ∧ a ≤ max ∧ 1 ≤ s
  | .rangeStep a b s => min ≤ a ∧ a ≤ b ∧ b ≤ max ∧ 1 ≤ s
  | .starStep s => 1 ≤ s

/-- The values from `start` to `last` in steps of `s`. -/
def Steps (start last s v : Int) : Prop := start ≤ v ∧ v ≤ last ∧ s ∣ v - start

instance (start last s v : Int) : Decidable (Steps start last s v) :=
  inferInstanceAs (Decidable (_ ∧ _ ∧ _))

/-- The values an item covers. -/
def Item.Covers (min max : Int) : Item → Int → Prop
  | .value a, v => v = a
  | .range a b, v => a ≤ v ∧ v ≤ b
  | .valueStep a s, v => Steps a max s v
  | .rangeStep a b s, v => Steps a b s v
  | .starStep s, v => Steps min max s v

instance (min max : Int) (item : Item) (v : Int) : Decidable (item.Covers min max v) := by
  cases item <;> unfold Item.Covers <;> infer_instance

def Item.isRangeStep : Item → Bool
  | .rangeStep _ _ _ => true
  | _ => false

/-- A field is `*`, `*/s` or a list of items. -/
inductive Field where
  | star
  | starStep (s : Int)
  | items (list : List Item)
deriving DecidableEq

/-- How a field is written within its bounds. A list does not itself start with `*/`. -/
inductive Field.Spells (min max : Int) : Field → Text → Prop
  | star : Spells min max .star ['*']
  | starStep {s t} (hs : Numeral s t) (positive : 1 ≤ s)
    : Spells min max (.starStep s) ('*' :: '/' :: t)
  | items {list : List Item} {tokens : List Text} (nonempty : tokens ≠ [])
    (spelled : List.Forall₂ Item.Spells list tokens)
    (within : ∀ item ∈ list, item.Within min max)
    (plain : ¬ ['*', '/'] <+: [','].intercalate tokens)
    : Spells min max (.items list) ([','].intercalate tokens)

def Field.Covers (min max : Int) : Field → Int → Prop
  | .star, v => Steps min max 1 v
  | .starStep s, v => Steps min max s v
  | .items list, v => ∃ item ∈ list, item.Covers min max v

/-- The five fields of an expression. -/
structure CronSpec where
  minute : Field
  hour : Field
  dayOfMonth : Field
  month : Field
  dayOfWeek : Field

/-- An expression is five fields separated by white space, each within its bounds. -/
def CronSpec.Spells (spec : CronSpec) (expr : String) : Prop :=
  ∃ minutes hours daysOfMonth months daysOfWeek,
    fields expr.toList = [minutes, hours, daysOfMonth, months, daysOfWeek]
    ∧ spec.minute.Spells 0 59 minutes
    ∧ spec.hour.Spells 0 23 hours
    ∧ spec.dayOfMonth.Spells 1 31 daysOfMonth
    ∧ spec.month.Spells 1 12 months
    ∧ spec.dayOfWeek.Spells 0 6 daysOfWeek

/-- A list holds exactly the values a property selects, in strictly ascending order. -/
structure Lists (list : List Int) (selected : Int → Prop) : Prop where
  ascending : list.Pairwise (· < ·)
  mem : ∀ v, v ∈ list ↔ selected v

/-- Each parsed list holds exactly the values its field covers. -/
structure CronExpr.Covers (c : CronExpr) (spec : CronSpec) : Prop where
  minute : Lists c.minute (spec.minute.Covers 0 59)
  hour : Lists c.hour (spec.hour.Covers 0 23)
  dayOfMonth : Lists c.dayOfMonth (spec.dayOfMonth.Covers 1 31)
  month : Lists c.month (spec.month.Covers 1 12)
  dayOfWeek : Lists c.dayOfWeek (spec.dayOfWeek.Covers 0 6)

-----------------------------------------------------------------------------------------
-- Numerals and Atoi
-----------------------------------------------------------------------------------------

theorem digitsValue_nonneg (digits : Text) : 0 ≤ digitsValue digits := by
  unfold digitsValue
  have grows (text : Text) : ∀ start : Int, 0 ≤ start →
      0 ≤ text.foldl
        (fun value digit => 10 * value + ((digit.toNat - '0'.toNat : Nat) : Int)) start := by
    induction text with
    | nil => exact fun _ h => h
    | cons c rest ih =>
        intro start h
        exact ih _ (by dsimp only; omega)
  exact grows digits 0 (le_refl 0)

theorem unsign_digits {digits : Text} (all : ∀ c ∈ digits, c.isDigit)
    : unsign digits = (false, digits) := by
  match digits with
  | [] => rfl
  | c :: rest =>
      have digit := all c (by simp)
      unfold unsign
      split
      · rename_i h
        obtain ⟨rfl, -⟩ := List.cons.inj h
        simp at digit
      · rename_i h
        obtain ⟨rfl, -⟩ := List.cons.inj h
        simp at digit
      · rfl

theorem Numeral.nonneg {n text} (h : Numeral n text) : 0 ≤ n := by
  obtain ⟨digits, -, -, -, rfl⟩ := h
  exact digitsValue_nonneg digits

/-- A numeral has no separator and no star in it. -/
theorem Numeral.plain {n text} (h : Numeral n text)
    : ',' ∉ text ∧ '/' ∉ text ∧ '-' ∉ text ∧ '*' ∉ text := by
  obtain ⟨digits, rfl | rfl, -, all, -⟩ := h
  · refine ⟨?_, ?_, ?_, ?_⟩ <;> exact fun member => absurd (all _ member) (by decide)
  · refine ⟨?_, ?_, ?_, ?_⟩ <;>
      exact fun member => by
        rcases List.mem_cons.mp member with same | later
        · exact absurd same (by decide)
        · exact absurd (all _ later) (by decide)

theorem Numeral.ne_nil {n text} (h : Numeral n text) : text ≠ [] := by
  obtain ⟨digits, rfl | rfl, nonempty, -, -⟩ := h
  · exact nonempty
  · simp

/-- Atoi reads every numeral as its value. -/
theorem Numeral.atoi {n text} (h : Numeral n text) : atoi text = some n := by
  obtain ⟨digits, spelling, nonempty, all, rfl⟩ := h
  have sign : unsign text = (false, digits) := by
    rcases spelling with rfl | rfl
    · exact unsign_digits all
    · rfl
  have accepted : (digits.isEmpty || !digits.all Char.isDigit) = false := by
    simpa [nonempty] using all
  simp [CronParser.atoi, sign, accepted]

theorem unsign_cases (text : Text)
    : (∃ digits, text = '-' :: digits)
      ∨ ∃ digits, unsign text = (false, digits) ∧ (text = digits ∨ text = '+' :: digits) := by
  unfold unsign
  split
  · exact Or.inr ⟨_, rfl, Or.inr rfl⟩
  · exact Or.inl ⟨_, rfl⟩
  · exact Or.inr ⟨_, rfl, Or.inl rfl⟩

/-- What Atoi reads is a numeral, or has a minus sign and no positive value. -/
theorem numeral_or_minus_of_atoi {n text} (h : atoi text = some n)
    : Numeral n text ∨ (∃ digits, text = '-' :: digits) ∧ n ≤ 0 := by
  rcases unsign_cases text with ⟨digits, rfl⟩ | ⟨digits, sign, spelling⟩
  · have value := digitsValue_nonneg digits
    refine Or.inr ⟨⟨digits, rfl⟩, ?_⟩
    simp only [atoi, unsign] at h
    split at h
    · simp at h
    · simp only [if_true, Option.some.injEq] at h
      omega
  · simp only [atoi, sign, Bool.false_eq_true, if_false] at h
    split at h
    · simp at h
    · rename_i accepted
      simp only [Bool.or_eq_true, List.isEmpty_iff, Bool.not_eq_true', not_or,
        Bool.not_eq_false, List.all_eq_true] at accepted
      exact Or.inl ⟨digits, spelling, accepted.1, accepted.2, (Option.some.inj h).symm⟩

theorem numeral_of_atoi {n text} (unsigned : '-' ∉ text) (h : atoi text = some n)
    : Numeral n text := by
  rcases numeral_or_minus_of_atoi h with numeral | ⟨⟨digits, rfl⟩, -⟩
  · exact numeral
  · simp at unsigned

theorem numeral_of_atoi_pos {n text} (positive : 0 < n) (h : atoi text = some n)
    : Numeral n text := by
  rcases numeral_or_minus_of_atoi h with numeral | ⟨-, le⟩
  · exact numeral
  · omega

end GoFire.CronParser
