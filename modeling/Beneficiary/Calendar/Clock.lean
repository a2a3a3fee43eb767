import Beneficiary.Calendar.Moment
import Std.Time.DateTime

/-!
# The clock

The present moment. Everything else takes the moment at which it happens as an argument.
-/

namespace Beneficiary

/-- The present moment by the system's clock. -/
def currentMoment : IO Moment := do
  let sinceEpoch := (← Std.Time.Timestamp.now).toDurationSinceUnixEpoch
  let stamp := Std.Time.PlainDateTime.ofWallTime (.ofDuration sinceEpoch)
  let time := stamp.time
  let date := (Date.of? stamp.date.year.toInt stamp.date.month.val.toNat
    stamp.date.day.val.toNat).getD ⟨1970, 1, 1, by decide⟩
  let clock := (ClockTime.of? time.hour.val.toNat time.minute.val.toNat time.second.val.toNat
    time.nanosecond.val.toNat).getD ⟨0, 0, by decide⟩
  return { date, time := clock }

end Beneficiary
