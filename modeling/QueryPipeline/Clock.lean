import QueryPipeline.Instant

/-! Clocks: whoever looks at one gets the time, and time goes on. -/

namespace QueryPipeline

/-- A clock: the time of the last look, in microseconds since the start of 1970, and how far it goes
on before the next one. -/
structure Clock where
  last : Int := 1704067200000000
  step : Int := 1000000

namespace Clock

/-- The clock after one more look. -/
def tick (c : Clock) : Clock :=
  { c with last := c.last + c.step }

/-- The time of the last look. -/
def time (c : Clock) (zoned : Bool) : Instant :=
  { micros := c.last, zoned }

end Clock

end QueryPipeline
