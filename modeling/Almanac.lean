import Almanac.Calendar.Basic
import Almanac.Command.Run
import Almanac.Component.Lines
import Almanac.Main
import Almanac.Proofs.Component.Grammar
import Almanac.Proofs.Line.Content
import Almanac.Proofs.Component.Written
import Almanac.Proofs.Component.Broken
import Almanac.Proofs.Property.OneLine
import Almanac.Proofs.Calendar.Composed
import Almanac.Proofs.Time.Date
import Almanac.Proofs.Time.Shift
import Almanac.Proofs.Recurrence.Walk
import Almanac.Proofs.Recurrence.Sound
import Almanac.Proofs.Recurrence.Truncate
import Almanac.Proofs.Line.Layout
import Almanac.Proofs.Text.Blank
import Almanac.Proofs.Component.Lexed
import Almanac.Proofs.Component.Refused
import Almanac.Proofs.Component.Stable
import Almanac.Proofs.Recurrence.Course
import Almanac.Proofs.Recurrence.Finite
import Almanac.Proofs.Component.Final
import Almanac.Proofs.Recurrence.Weekly
import Almanac.Proofs.Time.Weekdays
import Almanac.Proofs.Recurrence.Monthly
import Almanac.Proofs.Line.Legible
import Almanac.Proofs.Text.Numeral
import Almanac.Proofs.Time.BasicForm
import Almanac.Proofs.Recurrence.Text
import Almanac.Proofs.Time.LastWeekday
import Almanac.Proofs.Recurrence.Months
import Almanac.Proofs.Event.StartAt
import Almanac.Proofs.Time.Accepted
import Almanac.Proofs.Time.DeltaForm
import Almanac.Proofs.Recurrence.Order
import Almanac.Proofs.Time.DeltaSpelling
import Almanac.Proofs.Recurrence.Daily
import Almanac.Proofs.Time.DeltaTally
import Almanac.Proofs.Time.NextWeekday
import Almanac.Proofs.Property.History
import Almanac.Proofs.Text.Link
import Almanac.Proofs.Line.Commas
