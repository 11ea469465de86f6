import EventWrap.Json.Decoder
import EventWrap.Location

/-!
# Locations as JSON
-/

namespace EventWrap

open Json Json.Decoder

def Location.toJson (l : Location) : Json :=
  record [("file", text l.file), ("line", nat l.line.toNat), ("column", nat l.column.toNat)]

def Location.decoder : Decoder Location :=
  Decoder.record ["file", "line", "column"] fun room fields => match fields with
    | [file, line, column] => do
      return {
        file := ← withDefault "" string room file
        line := ← withDefault 0 word32 room line
        column := ← withDefault 0 word32 room column }
    | _ => none

end EventWrap
