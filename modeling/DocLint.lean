import DocLint.Editor
import DocLint.Editor.Documents
import DocLint.Main
import DocLint.Proofs.Lexing
import DocLint.Proofs.Pairing
import DocLint.Proofs.Positions
import DocLint.Proofs.Balance
import DocLint.Proofs.Brackets
import DocLint.Proofs.Partners
import DocLint.Proofs.DocGroups
import DocLint.Proofs.Scopes
import DocLint.Proofs.Search
import DocLint.Proofs.SearchBounds
import DocLint.Proofs.SoundStreams
import DocLint.Proofs.InheritDoc
import DocLint.Proofs.ReturnScan
import DocLint.Proofs.Stopping
import DocLint.Proofs.LineEnds
import DocLint.Proofs.FramedRules
import DocLint.Proofs.Mirror
import DocLint.Proofs.Spelling
import DocLint.Proofs.MirroredChecks
import DocLint.Proofs.CarriageReturns
import DocLint.Proofs.AppendedTokens
import DocLint.Proofs.Appending
import DocLint.Proofs.LexicalSoundness
import DocLint.Proofs.OwnComments
import DocLint.Proofs.Attribution
import DocLint.Proofs.CheckedFiles
import DocLint.Proofs.SourceLines
import DocLint.Proofs.ShownLines
import DocLint.Proofs.FaultPlaces
import DocLint.Proofs.EditorMarks
import DocLint.Proofs.PathTexts
import DocLint.Proofs.MergedTotals
import DocLint.Proofs.CommentCounts
import DocLint.Proofs.JsonText
import DocLint.Proofs.RunReports
import DocLint.Proofs.BodyLevels
import DocLint.Proofs.ReturnedValues
import DocLint.Proofs.PathOrder
import DocLint.Proofs.Walks
import DocLint.Proofs.OpenTrees
import DocLint.Proofs.Suppression
import DocLint.Proofs.CollectedFiles
import DocLint.Proofs.ScanStart
import DocLint.Proofs.ParameterLists
import DocLint.Proofs.ParameterTags
import DocLint.Proofs.DeclaredTypes
import DocLint.Proofs.EndlessScans
import DocLint.Proofs.CommentLines
import DocLint.Proofs.TagLines
import DocLint.Proofs.EmptyTags
import DocLint.Proofs.HeredocExtent
import DocLint.Proofs.KeywordKinds
import DocLint.Proofs.TypeCoverage
import DocLint.Proofs.QuotedText
import DocLint.Proofs.Listings
import DocLint.Proofs.RecordedMetrics
