import Almanac.Calendar.Basic
import Almanac.Component.Lines
import Almanac.Text.JsonString
import Almanac.Time.ExtendedForm

/-!
What the program prints: the summary of a calendar, and lists of occurrences as lines or as JSON.
-/

namespace Almanac.Report

/-- A line with its end. -/
def line (text : String) : String := text ++ "\n"

/-- A line that is there only if there is something to tell. -/
def line? (label : String) (text : Option String) : String :=
  match text with
  | some text => line (label ++ text)
  | none => ""

/-- The lines about one event. -/
def event (e : Event) : String :=
  let start := match e.startAt with
    | .ok t => t.offsetText
    | .error _ => "?"
  let title := e.summary?.getD ""
  let uid := e.uid?.getD ""
  line s!"- {start} {title} ({uid})"
    ++ line? "  RRULE " (e.rule?.map Rule.text)
    ++ line? "  Join " e.conference?
    ++ if e.isCancelled then line "  Cancelled" else ""

/-- The summary of a calendar. -/
def summary (c : Calendar) : String :=
  line ("Product: " ++ c.productId?.getD "")
    ++ line ("Vendor: " ++ c.vendor.text)
    ++ line? "Name: " c.name?
    ++ line? "Timezone: " (c.timezone?.bind Timezone.id?)
    ++ line s!"Components: {c.components.length}"
    ++ String.join (c.events.map event)

/-- Occurrences as lines of three columns. -/
def slotLines (slots : List Slot) : String :=
  String.join (slots.map fun s =>
    line (s.span.start.offsetText ++ "\t" ++ s.span.finish.offsetText ++ "\t" ++ s.eventId))

/-- One occurrence as a JSON object, indented by one level. -/
def slotJson (s : Slot) : String :=
  let row (name value : String) : String := "    \"" ++ name ++ "\": " ++ value
  "  \x7b\n" ++ ",\n".intercalate
    [row "event_id" (JsonString.encode s.eventId),
     row "start_at" (JsonString.encode s.span.start.zuluText),
     row "end_at" (JsonString.encode s.span.finish.zuluText),
     row "duration_seconds" (toString s.seconds)] ++ "\n  \x7d"

/-- Occurrences as a JSON list. -/
def slotsJson (slots : List Slot) : String :=
  if slots = [] then line "[]"
  else line ("[\n" ++ ",\n".intercalate (slots.map slotJson) ++ "\n]")

/-- A complaint with its causes, numbered if there are several. -/
def causes (complaint : String) (causes : List String) : String :=
  match causes with
  | [] => complaint
  | [cause] => complaint ++ "\n\nCaused by:\n    " ++ cause
  | causes =>
    complaint ++ "\n\nCaused by:"
      ++ String.join (causes.mapIdx fun i cause => s!"\n    {i}: {cause}")

end Almanac.Report
