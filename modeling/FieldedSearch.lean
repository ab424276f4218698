import FieldedSearch.Main
import FieldedSearch.Proofs.Agreement
import FieldedSearch.Proofs.ArgumentWords
import FieldedSearch.Proofs.ClauseImage
import FieldedSearch.Proofs.ClauseWriting
import FieldedSearch.Proofs.Covering
import FieldedSearch.Proofs.DateConstraint
import FieldedSearch.Proofs.FilterReading
import FieldedSearch.Proofs.Rereading
import FieldedSearch.Proofs.Respelling
import FieldedSearch.Proofs.Settling
import FieldedSearch.Proofs.JsonLexemes
import FieldedSearch.Proofs.JsonGrammar
import FieldedSearch.Proofs.JsonText
import FieldedSearch.Proofs.LiteralQuery
import FieldedSearch.Proofs.JsonMembers
import FieldedSearch.Proofs.JsonValue
import FieldedSearch.Proofs.Printing
import FieldedSearch.Proofs.ConfigSettings
import FieldedSearch.Proofs.JsonRecords
import FieldedSearch.Proofs.FailingRuns
import FieldedSearch.Proofs.OutputLines
import FieldedSearch.Proofs.Selection
import FieldedSearch.Proofs.FragmentLines
import FieldedSearch.Proofs.OptionalColon
import FieldedSearch.Proofs.Pieces
import FieldedSearch.Proofs.WildcardRuns
import FieldedSearch.Proofs.LetterFolding
import FieldedSearch.Proofs.WildcardInsertion
import FieldedSearch.Proofs.ExtendedPattern
import FieldedSearch.Proofs.PatternReading
import FieldedSearch.Proofs.TrailerLines
import FieldedSearch.Proofs.ActionLines
import FieldedSearch.Proofs.ActionBlock
import FieldedSearch.Proofs.CanonicalTokens
import FieldedSearch.Proofs.IdentityLines
import FieldedSearch.Proofs.ValueGrammar
import FieldedSearch.Proofs.CharacterClasses
import FieldedSearch.Proofs.SurroundingBlanks
import FieldedSearch.Proofs.RuleEdits
import FieldedSearch.Proofs.KeywordWindows
import FieldedSearch.Proofs.WrittenDates
import FieldedSearch.Proofs.UnseenChanges
import FieldedSearch.Proofs.IndentedJson
import FieldedSearch.Proofs.PrintedRules
import FieldedSearch.Proofs.SpacedConstraints
import FieldedSearch.Proofs.InstantTexts
import FieldedSearch.Proofs.LeadingNumbers
import FieldedSearch.Proofs.WrittenInstants
import FieldedSearch.Proofs.FilledOptions
import FieldedSearch.Proofs.ConfigReading
