import GoFire.CronParser.Text

/-! Parsing of cron expressions, following parsePart and ParseCron. -/

namespace GoFire.CronParser

/-- The integer operations the parser uses. `passes` bounds how many passes a counting loop
from one value to another by a step is followed before it counts as divergent.
-/
structure IntArith where
  atoi : Text → Option Int
  add : Int → Int → Int
  passes : Int → Int → Int → Nat

/-- Integers without overflow; a counting loop passes each value at most once. -/
def unbounded : IntArith where
  atoi := atoi
  add := (· + ·)
  passes := fun start last _ => (last + 1 - start).toNat

/-- Why no list comes back: the parser's error text, or a loop that does not end. -/
inductive Failure where
  | message (text : String)
  | divergence
deriving DecidableEq

def invalid {α : Type} (what : String) (text : Text) : Except Failure α :=
  .error (.message (what ++ String.ofList text))

/-- `for i := start; i <= last; i += step { set[i] = struct{}{} }` -/
def addSteps (arith : IntArith) (last step : Int)
    : Nat → Int → List Int → Except Failure (List Int)
  | passes, i, set =>
      if last < i then .ok set
      else
        match passes with
        | 0 => .error .divergence
        | passes + 1 => addSteps arith last step passes (arith.add i step) (set.insert i)

def addLoop (arith : IntArith) (start last step : Int) (set : List Int)
    : Except Failure (List Int) :=
  addSteps arith last step (arith.passes start last step) start set

/-- The bounds of the loop for a stepped item. A range base declares a new `rEnd` that goes
out of scope with its branch, so the loop still sees the zero value of the outer one.
-/
def stepBounds (arith : IntArith) (base : Text) (min max : Int)
    : Except Failure (Int × Int) :=
  if base = ['*'] then .ok (min, max)
  else if containsChar base '-' then
    match split base '-' with
    | [first, second] =>
        match arith.atoi first, arith.atoi second with
        | some rStart, some rEnd =>
            if rStart > rEnd || rStart < min || rEnd > max then invalid "invalid range: " base
            else .ok (rStart, 0)
        | _, _ => invalid "invalid range: " base
    | _ => invalid "invalid range: " base
  else
    match arith.atoi base with
    | some num =>
        if num < min || num > max then invalid "invalid value: " base else .ok (num, max)
    | none => invalid "invalid value: " base

/-- The values one item of a comma-separated list adds to the set. -/
def addToken (arith : IntArith) (min max : Int) (set : List Int) (token : Text)
    : Except Failure (List Int) :=
  if containsChar token '/' then
    match split token '/' with
    | [base, stepText] =>
        match arith.atoi stepText with
        | some step =>
            if step ≤ 0 then invalid "invalid step value: " token
            else
              match stepBounds arith base min max with
              | .error failure => .error failure
              | .ok (rStart, rEnd) => addLoop arith rStart rEnd step set
        | none => invalid "invalid step value: " token
    | _ => invalid "invalid step expression: " token
  else if containsChar token '-' then
    match split token '-' with
    | [first, second] =>
        match arith.atoi first, arith.atoi second with
        | some start, some last =>
            if start > last || start < min || last > max then invalid "invalid range: " token
            else addLoop arith start last 1 set
        | _, _ => invalid "invalid range: " token
    | _ => invalid "invalid range: " token
  else
    match arith.atoi token with
    | some num =>
        if num < min || num > max then invalid "invalid value: " token
        else .ok (set.insert num)
    | none => invalid "invalid value: " token

/-- The step of a field that is `*` or starts with `*/`. -/
def starStep (arith : IntArith) (part : Text) : Except Failure Int :=
  if hasPrefix part ['*', '/'] then
    match arith.atoi (part.drop 2) with
    | some s => if s ≤ 0 then invalid "invalid step: " part else .ok s
    | none => invalid "invalid step: " part
  else .ok 1

/-- The set of values of one field before it is sorted. -/
def parseSet (arith : IntArith) (part : Text) (min max : Int) : Except Failure (List Int) :=
  if part = ['*'] || hasPrefix part ['*', '/'] then
    match starStep arith part with
    | .error failure => .error failure
    | .ok step => addLoop arith min max step []
  else (split part ',').foldlM (addToken arith min max) []

def parsePart (arith : IntArith) (part : Text) (min max : Int) : Except Failure (List Int) :=
  (parseSet arith part min max).map sortInts

/-- The accepted values of each field, in ascending order. -/
structure CronExpr where
  minute : List Int
  hour : List Int
  dayOfMonth : List Int
  month : List Int
  dayOfWeek : List Int
deriving DecidableEq

/-- A field of the expression with the name its errors carry. -/
def parseField (arith : IntArith) (name : String) (part : Text) (min max : Int)
    : Except Failure (List Int) :=
  match parsePart arith part min max with
  | .error (.message text) => .error (.message (name ++ " error: " ++ text))
  | result => result

def parseCron (arith : IntArith) (expr : String) : Except Failure CronExpr :=
  match fields expr.toList with
  | [minutes, hours, daysOfMonth, months, daysOfWeek] => do
      let minute ← parseField arith "minute" minutes 0 59
      let hour ← parseField arith "hour" hours 0 23
      let dayOfMonth ← parseField arith "dayOfMonth" daysOfMonth 1 31
      let month ← parseField arith "month" months 1 12
      let dayOfWeek ← parseField arith "dayOfWeek" daysOfWeek 0 6
      return { minute, hour, dayOfMonth, month, dayOfWeek }
  | _ => .error (.message ("invalid cron expression: " ++ expr))

-----------------------------------------------------------------------------------------
-- What a successful parse says
-----------------------------------------------------------------------------------------

theorem bind_ok {ε α β : Type} {first : Except ε α} {rest : α → Except ε β} {result : β}
    (h : first >>= rest = .ok result)
    : ∃ value, first = .ok value ∧ rest value = .ok result := by
  cases first with
  | error failure => cases h
  | ok value => exact ⟨value, rfl, h⟩

theorem parseField_ok {arith : IntArith} {name : String} {part : Text} {min max : Int}
    {list : List Int}
    : parseField arith name part min max = .ok list ↔ parsePart arith part min max = .ok list := by
  unfold parseField
  cases parsePart arith part min max with
  | ok list => rfl
  | error failure => cases failure <;> simp

/-- ParseCron succeeds exactly when there are five fields and each of them parses. -/
theorem parseCron_ok {arith : IntArith} {expr : String} {c : CronExpr}
    : parseCron arith expr = .ok c
      ↔ ∃ minutes hours daysOfMonth months daysOfWeek,
          fields expr.toList = [minutes, hours, daysOfMonth, months, daysOfWeek]
          ∧ parsePart arith minutes 0 59 = .ok c.minute
          ∧ parsePart arith hours 0 23 = .ok c.hour
          ∧ parsePart arith daysOfMonth 1 31 = .ok c.dayOfMonth
          ∧ parsePart arith months 1 12 = .ok c.month
          ∧ parsePart arith daysOfWeek 0 6 = .ok c.dayOfWeek := by
  constructor
  · intro h
    unfold parseCron at h
    split at h
    · rename_i minutes hours daysOfMonth months daysOfWeek five
      obtain ⟨minute, hm, h⟩ := bind_ok h
      obtain ⟨hour, hh, h⟩ := bind_ok h
      obtain ⟨dayOfMonth, hd, h⟩ := bind_ok h
      obtain ⟨month, hmo, h⟩ := bind_ok h
      obtain ⟨dayOfWeek, hw, h⟩ := bind_ok h
      obtain rfl := Except.ok.inj h
      exact ⟨minutes, hours, daysOfMonth, months, daysOfWeek, five, parseField_ok.mp hm,
        parseField_ok.mp hh, parseField_ok.mp hd, parseField_ok.mp hmo, parseField_ok.mp hw⟩
    · simp at h
  · intro h
    obtain ⟨minutes, hours, daysOfMonth, months, daysOfWeek, five, hm, hh, hd, hmo, hw⟩ := h
    simp only [parseCron, five, parseField_ok.mpr hm, parseField_ok.mpr hh,
      parseField_ok.mpr hd, parseField_ok.mpr hmo, parseField_ok.mpr hw]
    rfl

example : parsePart unbounded "1,3-4,5".toList 0 5 = .ok [1, 3, 4, 5] := by decide

end GoFire.CronParser
