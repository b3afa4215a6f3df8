import TiddlerShelf.Proofs.TimeText
import TiddlerShelf.Proofs.Wire

/-! # Texts of tiddlers read back

What is written of a tiddler reads back as the same tiddler, in every slot, whichever of the two
layouts it is written in. The two containers come back whole, although tiddlers count as equal when
only the names of their containers agree: a list of bags is left out when it is empty, and taken to
be empty when it is missing. -/

namespace TiddlerShelf

namespace Tiddler

/-- Reads a tiddler from its text. -/
def ofText? (text : String) : Option Tiddler := (Json.parse? text).bind ofJson?

theorem ofText?_of_parse? {text : String} {t : Tiddler} (hparse : Json.parse? text = some t.toJson)
    (hread : ofJson? t.toJson = some t) : ofText? text = some t := by
  rw [ofText?, hparse, Option.bind_some, hread]

/-- A tiddler reads back from either text that is written of it, if its revision fits into a word
and its stamp lies in a year of four digits and in no leap second. -/
theorem ofText?_written {t : Tiddler} (hword : ∀ r ∈ t.revision, r < Json.wordLimit)
    (hstamp : ∀ i ∈ t.lastSync, i.IsOrdinary) :
    ofText? t.toJson.compact = some t ∧ ofText? t.toJson.pretty = some t := by
  have hread : ofJson? t.toJson = some t :=
    ofJson?_toJson hword fun i hi => (hstamp i hi).parseLoose?_toText
  have hplain : t.toJson.Plain := t.plain_toJson
  constructor
  · exact ofText?_of_parse? (Json.parse?_compact hplain) hread
  · exact ofText?_of_parse? (Json.parse?_pretty hplain) hread

/-- A tiddler with texts that must be escaped, the highest revision, containers of all shapes and a
stamp on a leap day. -/
def leapDayCopy : Tiddler where
  title := "\"a\\b\"\x00\t🐈"
  tags := ["", "ü/%"]
  fields := Fields.ofList [("b", "\r\n"), ("a", "")]
  revision := some (Json.wordLimit - 1)
  bag := some { kind := .recipe, name := "", host := "", bags := ["x", "x"] }
  recipe := some (.bag "notes")
  lastSync := some ⟨951825599, 999000000⟩

/-- It reads back from both its texts. -/
theorem ofText?_leapDayCopy :
    Json.wordLimit - 1 < Json.wordLimit ∧ (⟨951825599, 999000000⟩ : Instant).IsOrdinary ∧
      ofText? leapDayCopy.toJson.compact = some leapDayCopy ∧
      ofText? leapDayCopy.toJson.pretty = some leapDayCopy := by
  have hword : Json.wordLimit - 1 < Json.wordLimit := by decide
  have hstamp : (⟨951825599, 999000000⟩ : Instant).IsOrdinary := ⟨by decide, by decide⟩
  refine ⟨hword, hstamp, ofText?_written (fun r hr => ?_) fun i hi => ?_⟩
  · exact Option.mem_some.1 hr ▸ hword
  · exact Option.mem_some.1 hi ▸ hstamp

end Tiddler

end TiddlerShelf
