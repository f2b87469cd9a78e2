import Retrace.CommandLine.LogLevel
import Retrace.Main
import Retrace.Pattern.Outcomes
import Retrace.Proofs.CommandLine.Agreement
import Retrace.Proofs.Conversion.Appending
import Retrace.Proofs.Conversion.CacheRuns
import Retrace.Proofs.Conversion.Configuration
import Retrace.Proofs.Conversion.Directory
import Retrace.Proofs.Conversion.Frugality
import Retrace.Proofs.Conversion.Headers
import Retrace.Proofs.Conversion.Isolation
import Retrace.Proofs.Conversion.OutputLines
import Retrace.Proofs.Conversion.Reading
import Retrace.Proofs.Conversion.Stateless
import Retrace.Proofs.Frame.Evaluated
import Retrace.Proofs.Frame.Indentation
import Retrace.Proofs.Frame.Provenance
import Retrace.Proofs.SourceMap.Flattened
import Retrace.Proofs.SourceMap.Guards
import Retrace.Proofs.SourceMap.Located
import Retrace.Proofs.SourceMap.Sections
import Retrace.SourceMap.Encoding
import Retrace.SourceMap.Vlq.RoundTrip
import Retrace.Storage.Table
