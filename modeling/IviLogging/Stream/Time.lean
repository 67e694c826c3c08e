/-
The time in the prefix of a record (`getCurrentTime`).

The clock is that of the system, which may be set back, so the time since
the start of the logging is a signed one. Its seconds are converted to an
`unsigned int`, and the milliseconds are what is left of it when these are
taken away: the seconds as they were converted. The prefix prints both words
as signed numbers.

`readStamp` is how the prefix is read.
-/
import IviLogging.Lib.Digits
import IviLogging.Stream.StreamLogData

namespace IviLogging.Stream

/-- Nanoseconds of a second, and of a millisecond. -/
def nanoseconds : Int := 1000000000
def nanosecondsOfMillisecond : Int := 1000000

/-- An integer as an `unsigned int`. -/
def toUnsignedInt (n : Int) : UInt32 := UInt32.ofBitVec (BitVec.ofInt 32 n)

/-- `getCurrentTime`, from the time since `loggingStartTime` in nanoseconds:
the seconds and the milliseconds. There is none if the difference of the
durations has no place in their type. -/
def getCurrentTime (elapsedTime : Int64) : Option (UInt32 × UInt32) :=
  let seconds := toUnsignedInt (elapsedTime.toInt.tdiv nanoseconds)
  let rest := elapsedTime.toInt - seconds.toNat * nanoseconds
  if -2 ^ 63 ≤ rest then
    some (seconds, toUnsignedInt (rest.tdiv nanosecondsOfMillisecond))
  else none

/-- A decimal digit. -/
def isDigit (c : UInt8) : Bool := decide (48 ≤ c) && decide (c ≤ 57)

/-- The milliseconds that the front of a line stands for: seconds, a point,
and three digits. -/
def readStamp (line : List UInt8) : Option Nat :=
  let seconds := line.takeWhile isDigit
  match line.dropWhile isDigit with
  | 46 :: rest =>
      let milliseconds := rest.takeWhile isDigit
      if seconds ≠ [] ∧ milliseconds.length = 3 then
        some (Digits.spelled 10 seconds * 1000
          + Digits.spelled 10 milliseconds)
      else none
  | _ => none

end IviLogging.Stream
