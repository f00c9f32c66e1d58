import Raml.Calendar.Layout
import Raml.Text.Pieces

/-! # Formats of dates and times

The formats that values of the temporal types have. A value conforms to a
format when it is a text that reads as a date-time and is exactly what that
date-time is written as. A final `Z` is another spelling of a zero offset.
-/

namespace Raml

inductive TemporalFormat
  | date
  | time
  | rfc2616
  | rfc3339
deriving DecidableEq

namespace TemporalFormat

def layout : TemporalFormat → Layout
  | .date => [.year false, .mark '-', .month, .mark '-', .day]
  | .time => [.hour, .mark ':', .minute, .mark ':', .second]
  | .rfc2616 =>
      [.weekdayName, .mark ',', .blank, .day, .blank, .monthName, .blank, .year false, .blank,
        .hour, .mark ':', .minute, .mark ':', .second, .blank, .mark 'G', .mark 'M', .mark 'T']
  | .rfc3339 =>
      [.year true, .mark '-', .month, .mark '-', .day, .mark 'T', .hour, .mark ':', .minute,
        .mark ':', .second, .offset]

def label : TemporalFormat → String
  | .date => "%Y-%m-%d"
  | .time => "%H:%M:%S"
  | .rfc2616 => "%a, %d %b %Y %H:%M:%S GMT"
  | .rfc3339 => "%Y-%m-%dT%H:%M:%S%z"

/-- A text with a final `Z` written as a zero offset. -/
def expandZulu (cs : List Char) : List Char :=
  if cs.getLast? = some 'Z' then cs.dropLast ++ "+00:00".toList else cs

def accepts (format : TemporalFormat) (text : String) : Bool :=
  let cs := text.toList
  match format with
  | .rfc3339 => Calendar.conforms format.layout (expandZulu cs)
  | _ => Calendar.conforms format.layout cs

end TemporalFormat

end Raml
