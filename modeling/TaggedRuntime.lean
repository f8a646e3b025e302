import TaggedRuntime.Binary64.Bits
import TaggedRuntime.Calculation
import TaggedRuntime.Program
import TaggedRuntime.Proofs.ErrorPath
import TaggedRuntime.Proofs.NumberText
import TaggedRuntime.Proofs.PlainRefinement
import TaggedRuntime.Text.Quoted
import TaggedRuntime.Proofs.TemplateGrammar
import TaggedRuntime.Proofs.TemplateFilling
import TaggedRuntime.Proofs.SinkStep
import TaggedRuntime.Proofs.TwoRuns
import TaggedRuntime.Proofs.SinkFixed
import TaggedRuntime.Proofs.SinkIndependence
import TaggedRuntime.Proofs.StyleFixed
import TaggedRuntime.Proofs.Places
import TaggedRuntime.Proofs.HandleIdentity
import TaggedRuntime.Proofs.Indistinct
import TaggedRuntime.Proofs.Decoding
import TaggedRuntime.Proofs.Escaping
import TaggedRuntime.Proofs.RaisedAlike
import TaggedRuntime.Proofs.StyleIndependence
import TaggedRuntime.Proofs.Footprint
import TaggedRuntime.Proofs.WholeNumber
import TaggedRuntime.Proofs.ConsoleLines
import TaggedRuntime.Proofs.Forecast
import TaggedRuntime.Proofs.MissingArguments
import TaggedRuntime.Proofs.WholePart
import TaggedRuntime.Proofs.Remainder
import TaggedRuntime.Proofs.IntegerText
import TaggedRuntime.Proofs.OperatorFaults
import TaggedRuntime.Proofs.CharacterBytes
import TaggedRuntime.Proofs.IllFormed
import TaggedRuntime.Proofs.Display
import TaggedRuntime.Proofs.Equality
import TaggedRuntime.Proofs.Comparison
import TaggedRuntime.Proofs.JoinedStrings
import TaggedRuntime.Proofs.StyleReading
import TaggedRuntime.Proofs.QuotedText
import TaggedRuntime.Proofs.LineFeeds
import TaggedRuntime.Proofs.PlainLines
