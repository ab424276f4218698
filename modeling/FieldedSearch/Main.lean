import FieldedSearch.CommandLine.Run
import Std.Time.Zoned.Database

namespace FieldedSearch.CommandLine

def readFile? (path : Text) : IO (Option ByteArray) :=
  try return some (← IO.FS.readBinFile (String.ofList path)) catch _ => return none

partial def readInput (stream : IO.FS.Stream) (read : ByteArray) : IO ByteArray := do
  let chunk ← stream.read 65536
  if chunk.isEmpty then return read else readInput stream (read ++ chunk)

def offsetAt (rules : Std.Time.TimeZone.ZoneRules) (instant : Int) : Int :=
  let moment := Std.Time.Timestamp.ofNanosecondsSinceUnixEpoch
    (.ofInt (instant - 86400 * 1000000000 * Date.unixEpoch.dayNumber))
  (rules.findLocalTimeTypeForTimestamp moment).getTimeZone.offset.second.val

def currentDates : IO DateContext := do
  let now ← Std.Time.Timestamp.now
  let zone ← try pure (Zone.ofOffsets (offsetAt (← Std.Time.Database.defaultGetLocalZoneRules))) catch _ => pure .utc
  return (DateContext.ofClock? now.toNanosecondsSinceUnixEpoch.val zone).getD ⟨Date.unixEpoch,.utc⟩

end FieldedSearch.CommandLine

open FieldedSearch FieldedSearch.CommandLine

def main (arguments : List String) : IO UInt32 := do
  let arguments := arguments.map String.toList
  let wanted := paths arguments
  let files ← wanted.mapM fun path => return (path,← readFile? path)
  let input ← if wanted.any isInputPath then readInput (← IO.getStdin) .empty else pure .empty
  let environment : Environment := ⟨fun path => (files.lookup path).join,input,← currentDates,.unlimited,[]⟩
  let outcome := run environment arguments
  IO.print (String.ofList outcome.output)
  if let some failure := outcome.failure then IO.eprintln (String.ofList failure.report)
  return outcome.exitCode.toUInt32
