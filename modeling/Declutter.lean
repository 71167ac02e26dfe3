import Declutter.Main
import Declutter.Tree.Decoding
import Declutter.Proofs.Clashes
import Declutter.Proofs.FreshRoots
import Declutter.Proofs.Injection
import Declutter.Proofs.LateRecords
import Declutter.Proofs.Mark
import Declutter.Proofs.NormalForm
import Declutter.Proofs.Parentheses
import Declutter.Proofs.ParsedNames
import Declutter.Proofs.Subsumption
import Declutter.Proofs.Json.Trees
import Declutter.Proofs.Members
import Declutter.Proofs.MergedRoots
import Declutter.Proofs.ThinnedShapes
import Declutter.Proofs.Trace
import Declutter.Proofs.RoundTrip.Lexemes
import Declutter.Proofs.RoundTrip.Running
import Declutter.Proofs.RoundTrip.Spelling
import Declutter.Proofs.RoundTrip.Lookahead
import Declutter.Proofs.RoundTrip.Types
import Declutter.Proofs.RoundTrip.Files
import Declutter.Proofs.RoundTrip.QuotedTexts
import Declutter.Proofs.RoundTrip.RenamedRoots
import Declutter.Proofs.RoundTrip.Rereading
import Declutter.Proofs.CommandRuns
import Declutter.Proofs.Lexical.QuotedText
import Declutter.Proofs.Lexical.MemberNames
import Declutter.Proofs.ReplacedWords
import Declutter.Proofs.SoundFiles
import Declutter.Proofs.HandedComments
import Declutter.Proofs.FixedPoints
import Declutter.Proofs.StringLiterals
import Declutter.Proofs.Leaves
import Declutter.Proofs.BlockComments
import Declutter.Proofs.PropertySpecs
