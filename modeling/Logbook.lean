import Logbook.Desk
import Logbook.Value.Convert
import Logbook.Proofs.Json.Reading
import Logbook.Proofs.Decimal.Digits
import Logbook.Proofs.Decimal.Nearest
import Logbook.Proofs.Decimal.Rounding
import Logbook.Proofs.Json.Escaping
import Logbook.Proofs.Value.Tree
import Logbook.Proofs.Line.Reading
import Logbook.Proofs.Disk.Growth
import Logbook.Proofs.Disk.Buffered
import Logbook.Proofs.Rotating.Moving
import Logbook.Proofs.Rotating.Conservation
import Logbook.Proofs.Logger.Journal
import Logbook.Proofs.Logger.Agreement
import Logbook.Proofs.Template.Candidates
import Logbook.Proofs.Disk.Places
import Logbook.Proofs.Disk.Reopening
import Logbook.Proofs.Rotating.Counting
import Logbook.Proofs.Rotating.Restart
import Logbook.Proofs.Text.Matching
import Logbook.Proofs.Template.Resolving
import Logbook.Proofs.Rotating.Adopting
import Logbook.Proofs.Rotating.Apart
import Logbook.Proofs.Rotating.Dating
import Logbook.Proofs.Rotating.Measuring
import Logbook.Proofs.Rotating.Filling
import Logbook.Proofs.Logger.Uses
import Logbook.Proofs.Logger.Reached
import Logbook.Proofs.Logger.Early
import Logbook.Proofs.Logger.Handoff
import Logbook.Proofs.Value.Hidden
import Logbook.Proofs.Line.Unbroken
import Logbook.Proofs.Json.Rereading
import Logbook.Proofs.Config.RoundTrip
import Logbook.Proofs.Logger.Tally
import Logbook.Proofs.Logger.Reported
import Logbook.Proofs.Logger.Levels
import Logbook.Proofs.Logger.Relay
import Logbook.Proofs.Logger.Chains
import Logbook.Proofs.Disk.Linking
import Logbook.Proofs.Rotating.Following
import Logbook.Proofs.Disk.Parents
import Logbook.Proofs.Sink.Linked
import Logbook.Proofs.Rotating.Outcomes
import Logbook.Proofs.Rotating.Renaming
import Logbook.Proofs.Rotating.Retrying
import Logbook.Proofs.Logger.Mismatch
import Logbook.Proofs.Logger.Pairing
import Logbook.Proofs.Text.Runs
import Logbook.Proofs.Json.Strings
import Logbook.Proofs.Time.Hours
import Logbook.Proofs.Time.Calendar
import Logbook.Proofs.Time.Years
import Logbook.Proofs.Time.Rendering
import Logbook.Proofs.Line.TimeMember
import Logbook.Proofs.Rotating.Probing
import Logbook.Proofs.Template.Substituting
import Logbook.Proofs.Text.Numbers
import Logbook.Proofs.Level.Spelling
import Logbook.Proofs.Text.Cutting
import Logbook.Proofs.Caller.Backtrace
import Logbook.Proofs.Logger.Gate
import Logbook.Proofs.Caller.Steering
import Logbook.Proofs.Pool.Circulation
import Logbook.Proofs.Time.Validity
