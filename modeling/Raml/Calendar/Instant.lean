import Raml.Calendar.Date

/-! # Date-times

A date-time is a date, a time of day to the microsecond, and the distance of
its clock from universal time if that is known. Two date-times with a known
distance are equal when they are the same moment.
-/

namespace Raml

/-- A date and time of day; `offset` is in microseconds east of universal time. -/
structure Instant where
  date : Date
  hour : Nat
  minute : Nat
  second : Nat
  micro : Nat
  offset : Option Int
deriving DecidableEq

namespace Instant

def oneSecond : Nat := 1000000

/-- The moment in microseconds of universal time, or of the local clock without an offset. -/
def micros (t : Instant) : Int :=
  let seconds : Nat := ((t.date.ordinal * 24 + t.hour) * 60 + t.minute) * 60 + t.second
  (seconds * oneSecond + t.micro : Nat) - t.offset.getD 0

/-- Equality of moment; a date-time with an offset never equals one without. -/
def same (a b : Instant) : Bool :=
  a.offset.isSome == b.offset.isSome && a.micros == b.micros

/-- Whether date, time and offset are in range: a day of the calendar, a time from 00:00:00 on, and
an offset of less than a day. -/
def IsValid (t : Instant) : Prop :=
  t.date.IsValid ∧ t.hour < 24 ∧ t.minute < 60 ∧ t.second < 60 ∧ t.micro < oneSecond ∧
    (t.offset.getD 0).natAbs < 24 * 60 * 60 * oneSecond

instance (t : Instant) : Decidable t.IsValid := by
  unfold IsValid
  infer_instance

end Instant

end Raml
