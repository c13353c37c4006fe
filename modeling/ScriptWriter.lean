import ScriptWriter.Value.Conversion
import ScriptWriter.Value.Json
import ScriptWriter.Options.Json
import ScriptWriter.FunctionTable.Json
import ScriptWriter.Session
import ScriptWriter.Proofs.Scopes
import ScriptWriter.Proofs.LiteralText
import ScriptWriter.Proofs.ExprText
import ScriptWriter.Proofs.StringReading
import ScriptWriter.Proofs.NumberText
import ScriptWriter.Proofs.Marks
import ScriptWriter.Proofs.Form
import ScriptWriter.Proofs.Words
import ScriptWriter.Proofs.FormReading
import ScriptWriter.Proofs.UniqueReading
import ScriptWriter.Proofs.DepthBound
import ScriptWriter.Proofs.Isolation
import ScriptWriter.Proofs.GreaterLimit
import ScriptWriter.Proofs.Rounding
import ScriptWriter.Proofs.ShortestDecimal
import ScriptWriter.Proofs.LiteralReading
import ScriptWriter.Proofs.CleanText
import ScriptWriter.Proofs.JsonReading
import ScriptWriter.Proofs.ValueJson
import ScriptWriter.Proofs.Tokens
import ScriptWriter.Proofs.TokenBoundaries
import ScriptWriter.Proofs.Loading
import ScriptWriter.Proofs.FewestDigits
import ScriptWriter.Proofs.History
import ScriptWriter.Proofs.RoundsTo
import ScriptWriter.Proofs.NumberLayout
import ScriptWriter.Proofs.PartialText
import ScriptWriter.Proofs.WholeNumbers
import ScriptWriter.Proofs.IdentifierNames
import ScriptWriter.Proofs.Equality
import ScriptWriter.Proofs.Conversions
import ScriptWriter.Proofs.OptionsText
import ScriptWriter.Proofs.Tables
