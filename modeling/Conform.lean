import Conform.Main
import Conform.Proofs.Phase
import Conform.Proofs.Settle
import Conform.Proofs.Matching
import Conform.Proofs.Reads
import Conform.Proofs.Alike
import Conform.Proofs.Indifferent
import Conform.Proofs.Siblings
import Conform.Proofs.Meeting
import Conform.Proofs.Truncation
import Conform.Proofs.TruncationObject
import Conform.Proofs.TruncationArray
import Conform.Proofs.TruncationNode
import Conform.Proofs.JsonSource
import Conform.Proofs.Written
import Conform.Proofs.Sets
import Conform.Proofs.Regular
import Conform.Proofs.RoundTrip
import Conform.Proofs.Rebuilt
import Conform.Proofs.BuiltRegular
import Conform.Proofs.Accepted
import Conform.Proofs.BuiltAccepted
import Conform.Proofs.MergedParts
import Conform.Proofs.Similar
import Conform.Proofs.ConcatLaws
import Conform.Proofs.LastWrite
import Conform.Proofs.SingleReport
import Conform.Proofs.SingleReportNode
import Conform.Proofs.Abreast
import Conform.Proofs.Reordered
import Conform.Proofs.ReorderedObject
import Conform.Proofs.ReorderedNode
import Conform.Proofs.Base64
import Conform.Proofs.Integers
import Conform.Proofs.Mentions
import Conform.Proofs.Settled
import Conform.Proofs.Sources
import Conform.Proofs.Proper
import Conform.Proofs.Patches
import Conform.Proofs.Sheets
import Conform.Proofs.Reread
import Conform.Proofs.Tidy
import Conform.Proofs.Restated
import Conform.Proofs.Filed
import Conform.Proofs.Redescribed
import Conform.Proofs.BuiltKnown
import Conform.Proofs.FiniteNumbers
import Conform.Proofs.Normalized
import Conform.Proofs.Keeping
import Conform.Proofs.ReadOnly
import Conform.Proofs.ReadOnlyArray
import Conform.Proofs.ReadOnlyNode
import Conform.Proofs.WhereaboutsNode
import Conform.Proofs.ChildReports
import Conform.Proofs.OmissionNode
import Conform.Proofs.Arguments
import Conform.Proofs.Doubles
import Conform.Proofs.Decimals
import Conform.Proofs.KeyTexts
import Conform.Proofs.SetKeys
import Conform.Proofs.ArrayPassage
import Conform.Proofs.Shares
import Conform.Proofs.Places
import Conform.Proofs.ItemMatching
import Conform.Proofs.ItemOrder
import Conform.Proofs.Lossless
import Conform.Proofs.DocumentsKept
import Conform.Proofs.Nesting
import Conform.Proofs.Entries
import Conform.Proofs.Wrappers
import Conform.Proofs.Renames
import Conform.Proofs.Undeclared
import Conform.Proofs.Failover
import Conform.Proofs.Literals
import Conform.Proofs.KeySorting
import Conform.Proofs.ReferenceMembers
import Conform.Proofs.Sameness
import Conform.Proofs.Layers
import Conform.Proofs.CheckDigits
import Conform.Proofs.TemplatePieces
import Conform.Proofs.DateLimits
import Conform.Proofs.TrimmedTexts
