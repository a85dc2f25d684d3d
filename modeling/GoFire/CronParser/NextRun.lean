import GoFire.CronParser.FieldParsing
import GoFire.Foundations.BoundedSearch
import GoFire.GoTime.Instants

/-! The search for the next run of a cron expression, following CalculateNextRun. -/

namespace GoFire.CronParser

open GoFire.GoTime (Time)
open BoundedSearch

def contains (values : List Int) (v : Int) : Bool :=
  values[searchInts values v]? == some v

/-- One pass of the search loop. A month, day or hour that does not match is skipped at
once, a minute that does not match by one minute.
-/
def CronExpr.pass (c : CronExpr) (t : Time) : Pass Time :=
  if !contains c.month t.month then
    .skip ((t.addDate 0 1 (-t.day + 1)).truncate (24 * GoTime.hour))
  else if !contains c.dayOfMonth t.day || !contains c.dayOfWeek t.weekday then
    .skip ((t.addDate 0 0 1).truncate (24 * GoTime.hour))
  else if !contains c.hour t.hour then
    .skip (t.add (GoTime.hour - t.minute * GoTime.minute))
  else if contains c.minute t.minute then .found
  else .skip (t.add GoTime.minute)

/-- The next run after `start`: the search begins at the next whole minute, and an hour
later is the fallback for a bad expression or a search without result.
-/
def calculateNextRun (arith : IntArith) (expr : String) (start : Time) : Time :=
  match parseCron arith expr with
  | .error _ => start.add GoTime.hour
  | .ok c =>
      let t := (start.add GoTime.minute).truncate GoTime.minute
      (search c.pass 525600 t).getD (start.add GoTime.hour)

/-- The local calendar fields of an instant are all accepted by the expression. -/
def CronExpr.Matches (c : CronExpr) (t : Time) : Prop :=
  t.month ∈ c.month ∧ t.day ∈ c.dayOfMonth ∧ t.weekday ∈ c.dayOfWeek
    ∧ t.hour ∈ c.hour ∧ t.minute ∈ c.minute

instance (c : CronExpr) (t : Time) : Decidable (c.Matches t) :=
  inferInstanceAs (Decidable (_ ∧ _ ∧ _ ∧ _ ∧ _))

/-- The parsed lists are sorted, as the binary search in `contains` needs. -/
structure CronExpr.Sorted (c : CronExpr) : Prop where
  minute : c.minute.Pairwise (· ≤ ·)
  hour : c.hour.Pairwise (· ≤ ·)
  dayOfMonth : c.dayOfMonth.Pairwise (· ≤ ·)
  month : c.month.Pairwise (· ≤ ·)
  dayOfWeek : c.dayOfWeek.Pairwise (· ≤ ·)

/-- In a sorted list the binary search finds exactly the members. -/
theorem contains_iff {values : List Int} (sorted : values.Pairwise (· ≤ ·)) (v : Int)
    : contains values v = true ↔ v ∈ values := by
  unfold contains searchInts
  induction values with
  | nil => simp
  | cons head rest ih =>
      obtain ⟨least, restSorted⟩ := List.pairwise_cons.mp sorted
      rw [List.findIdx_cons]
      by_cases reached : v ≤ head
      · simp only [reached, decide_true, cond_true, List.getElem?_cons_zero, List.mem_cons,
          beq_iff_eq, Option.some.injEq]
        constructor
        · exact fun same => Or.inl same.symm
        · intro h
          rcases h with same | later
          · exact same.symm
          · exact le_antisymm (least v later) reached
      · have different : v ≠ head := fun same => reached (le_of_eq same)
        simp only [reached, decide_false, cond_false, List.getElem?_cons_succ, List.mem_cons,
          different, false_or]
        exact ih restSorted

theorem parsePart_sorted {arith : IntArith} {part : Text} {min max : Int} {list : List Int}
    (h : parsePart arith part min max = .ok list)
    : list.Pairwise (· ≤ ·) := by
  unfold parsePart at h
  cases run : parseSet arith part min max with
  | error failure => simp [run, Except.map] at h
  | ok set =>
      obtain rfl : sortInts set = list := by simpa [run, Except.map] using h
      exact List.pairwise_insertionSort _ _

theorem parseCron_sorted {arith : IntArith} {expr : String} {c : CronExpr}
    (h : parseCron arith expr = .ok c)
    : c.Sorted := by
  obtain ⟨_, _, _, _, _, -, hm, hh, hd, hmo, hw⟩ := parseCron_ok.mp h
  exact ⟨parsePart_sorted hm, parsePart_sorted hh, parsePart_sorted hd, parsePart_sorted hmo,
    parsePart_sorted hw⟩

end GoFire.CronParser
