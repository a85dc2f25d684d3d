import GoFire.GoTime.Instants

/-! Times in JSON, the fields of their RFC 3339 text. The text has a zone in whole minutes, while
an instant in a location may be any number of seconds ahead of UTC.
-/

namespace GoFire.GoTime

open GregorianCalendar

/-- The fields of an RFC 3339 text; the zone is counted in minutes. -/
structure Rfc3339 where
  year : Int
  month : Int
  day : Int
  hour : Int
  minute : Int
  second : Int
  nanosecond : Int
  zone : Int

/-- How many seconds the local clock is ahead of UTC. -/
def Time.offset (t : Time) : Int := (t.loc.lookup (t.ns / second)).offset

/-- The local clock with the zone cut to whole minutes. -/
def Time.rfc3339 (t : Time) : Rfc3339 :=
  { year := t.year, month := t.month, day := t.day, hour := t.hour, minute := t.minute,
    second := t.wall % GoTime.minute / GoTime.second, nanosecond := t.wall % GoTime.second,
    zone := t.offset.tdiv 60 }

/-- The year must have four digits and the zone less than 24 hours. -/
def Time.marshalJSON (t : Time) : Option Rfc3339 :=
  let text := t.rfc3339
  if (0 ≤ text.year ∧ text.year ≤ 9999) ∧ text.zone.natAbs / 60 < 24 then some text else none

namespace Rfc3339

def daysIn (year month : Int) : Int :=
  daysBeforeMonth (leapDay year) (month + 1) - daysBeforeMonth (leapDay year) month

/-- The ranges of the fields that are accepted. -/
def inRange (text : Rfc3339) : Bool :=
  (0 ≤ text.year && text.year ≤ 9999) && (1 ≤ text.month && text.month ≤ 12)
    && (1 ≤ text.day && text.day ≤ daysIn text.year text.month)
    && (0 ≤ text.hour && text.hour < 24) && (0 ≤ text.minute && text.minute < 60)
    && (0 ≤ text.second && text.second < 60)
    && (0 ≤ text.nanosecond && text.nanosecond < GoTime.second) && text.zone.natAbs / 60 < 24

/-- The instant the text names. -/
def instant (text : Rfc3339) : Int :=
  dayNumber text.year text.month text.day * GoTime.day + text.hour * GoTime.hour
    + text.minute * GoTime.minute + text.second * GoTime.second + text.nanosecond
    - text.zone * 60 * GoTime.second

def unmarshalJSON (text : Rfc3339) : Option Int :=
  if text.inRange then some text.instant else none

end Rfc3339

namespace Time

theorem inRange_rfc3339 {t : Time} (years : 0 ≤ t.year ∧ t.year ≤ 9999)
    (hours : t.rfc3339.zone.natAbs / 60 < 24)
    : t.rfc3339.inRange = true := by
  have month := monthOf_range t.localDay
  have inMonth := monthOf_spec t.localDay
  have day : 1 ≤ t.day ∧ t.day ≤ Rfc3339.daysIn t.year t.month := by
    simp only [Time.day, Time.year, Time.month, dayOf, Rfc3339.daysIn]
    omega
  simp only [Rfc3339.inRange, Bool.and_eq_true, decide_eq_true_eq]
  refine ⟨⟨⟨⟨⟨⟨⟨years, month⟩, day⟩, ?_⟩, ?_⟩, ?_⟩, ?_⟩, hours⟩
  · simp only [rfc3339, Time.hour, GoTime.day, GoTime.hour, GoTime.minute, GoTime.second]
    omega
  · simp only [rfc3339, Time.minute, GoTime.hour, GoTime.minute, GoTime.second]
    omega
  · simp only [rfc3339, GoTime.minute, GoTime.second]
    omega
  · simp only [rfc3339, GoTime.second]
    omega

/-- The text names the instant, shifted by the seconds that its zone lacks. -/
theorem instant_rfc3339 (t : Time)
    : t.rfc3339.instant = t.ns + t.offset.tmod 60 * GoTime.second := by
  have date : dayNumber t.year t.month t.day = t.localDay := by
    have encoded := dayNumber_add t.localDay 0
    rwa [Int.add_zero, Int.add_zero] at encoded
  have cut := Int.mul_tdiv_add_tmod t.offset 60
  have wall : t.wall = t.ns + t.offset * GoTime.second := rfl
  simp only [Rfc3339.instant, rfc3339, date, localDay, Time.hour, Time.minute]
  simp only [GoTime.day, GoTime.hour, GoTime.minute, GoTime.second] at wall ⊢
  omega

/-- A time is read as the instant it was exactly when its text has four digits for the year, less
than 24 hours for the zone and no seconds missing.
-/
theorem json_round_trip_iff (t : Time)
    : t.marshalJSON.bind Rfc3339.unmarshalJSON = some t.ns
      ↔ (0 ≤ t.year ∧ t.year ≤ 9999) ∧ t.offset.natAbs < 24 * 3600 ∧ t.offset % 60 = 0 := by
  have hours : t.rfc3339.zone.natAbs / 60 < 24 ↔ t.offset.natAbs < 24 * 3600 := by
    have minutes : t.rfc3339.zone.natAbs = t.offset.natAbs / 60 := Int.natAbs_tdiv t.offset 60
    omega
  have seconds : t.offset.tmod 60 = 0 ↔ t.offset % 60 = 0 := by
    rw [← Int.dvd_iff_tmod_eq_zero, ← Int.dvd_iff_emod_eq_zero]
  have same : t.rfc3339.instant = t.ns ↔ t.offset % 60 = 0 := by
    rw [instant_rfc3339, ← seconds]
    simp only [GoTime.second]
    omega
  by_cases marshals : (0 ≤ t.year ∧ t.year ≤ 9999) ∧ t.rfc3339.zone.natAbs / 60 < 24
  · have read : t.rfc3339.unmarshalJSON = some t.rfc3339.instant :=
      if_pos (inRange_rfc3339 marshals.1 marshals.2)
    have text : t.marshalJSON = some t.rfc3339 := if_pos marshals
    rw [text, Option.bind_some, read, Option.some.injEq, same, ← hours]
    exact ⟨fun whole => ⟨marshals.1, marshals.2, whole⟩, fun all => all.2.2⟩
  · have text : t.marshalJSON = none := if_neg marshals
    rw [text, Option.bind_none]
    exact iff_of_false nofun fun all => marshals ⟨all.1, hours.mpr all.2.1⟩

end Time

end GoFire.GoTime
