import GoFire.Foundations.GregorianCalendar

/-! The part of Go's package time the scheduler computes with: instants in a location,
calendar fields of the local wall clock, Add, Truncate, Date and AddDate.
-/

namespace GoFire.GoTime

/-- Durations are counted in nanoseconds. -/
def second : Int := 1000000000
def minute : Int := 60 * second
def hour : Int := 60 * minute
def day : Int := 24 * hour

/-- A stretch of time with one UTC offset, in seconds since the zero time. An absent bound
is the beginning or the end of time.
-/
structure Zone where
  offset : Int
  start : Option Int := none
  stop : Option Int := none

/-- A location tells the zone in effect at every second since the zero time. -/
structure Location where
  lookup : Int → Zone

/-- A location whose clocks are always the given number of seconds ahead of UTC. -/
def fixedZone (offset : Int) : Location := ⟨fun _ => { offset }⟩

def utc : Location := fixedZone 0

/-- An instant in nanoseconds since the zero time, 0001-01-01 00:00:00 UTC, and the location
its calendar fields are read in.
-/
structure Time where
  ns : Int
  loc : Location

namespace Time

/-- Nanoseconds the local clock shows since 0001-01-01 00:00:00 local time. -/
def wall (t : Time) : Int := t.ns + (t.loc.lookup (t.ns / second)).offset * second

/-- The local calendar day, counted from 1 January of year 1. -/
def localDay (t : Time) : Int := t.wall / GoTime.day

def year (t : Time) : Int := GregorianCalendar.yearOf t.localDay
def month (t : Time) : Int := GregorianCalendar.monthOf t.localDay
def day (t : Time) : Int := GregorianCalendar.dayOf t.localDay
def weekday (t : Time) : Int := GregorianCalendar.weekdayOf t.localDay
def hour (t : Time) : Int := t.wall % GoTime.day / GoTime.hour
def minute (t : Time) : Int := t.wall % GoTime.hour / GoTime.minute

/-- The nanoseconds of the local clock past its midnight. -/
def clock (t : Time) : Int := t.wall % GoTime.day

def add (t : Time) (d : Int) : Time := { t with ns := t.ns + d }

/-- Truncate rounds down to a multiple of `d` since the zero time, whatever the location. -/
def truncate (t : Time) (d : Int) : Time := { t with ns := t.ns - t.ns % d }

/-- The instant whose local clock reads `wall`. Go first takes the reading for UTC to find
an offset, and looks the offset up again when the result leaves the zone it came from.
-/
def ofWall (wall : Int) (loc : Location) : Time :=
  let unix := wall / second
  let zone := loc.lookup unix
  let atUtc := unix - zone.offset
  let leaves := zone.start.any (fun start => atUtc < start)
    || zone.stop.any (fun stop => stop ≤ atUtc)
  let offset := if zone.offset ≠ 0 && leaves then (loc.lookup atUtc).offset else zone.offset
  ⟨wall - offset * second, loc⟩

/-- The UTC offset, in seconds, that Go takes to be in effect when the local clock reads
`wall`.
-/
def wallOffset (wall : Int) (loc : Location) : Int :=
  let unix := wall / second
  let zone := loc.lookup unix
  let atUtc := unix - zone.offset
  let leaves := zone.start.any (fun start => atUtc < start)
    || zone.stop.any (fun stop => stop ≤ atUtc)
  if zone.offset ≠ 0 && leaves then (loc.lookup atUtc).offset else zone.offset

theorem ofWall_eq (wall : Int) (loc : Location)
    : ofWall wall loc = ⟨wall - wallOffset wall loc * second, loc⟩ := rfl

/-- AddDate moves the local date, normalises months and days as Date does, and keeps the
local clock.
-/
def addDate (t : Time) (years months days : Int) : Time :=
  ofWall (GregorianCalendar.dayNumber (t.year + years) (t.month + months) (t.day + days)
    * GoTime.day + t.clock) t.loc

theorem wall_fixedZone (ns offset : Int)
    : (⟨ns, fixedZone offset⟩ : Time).wall = ns + offset * second := rfl

/-- In a zone without changes the local clock determines the instant. -/
theorem ofWall_fixedZone (wall offset : Int)
    : ofWall wall (fixedZone offset) = ⟨wall - offset * second, fixedZone offset⟩ := by
  simp [ofWall, fixedZone]

end Time

end GoFire.GoTime
