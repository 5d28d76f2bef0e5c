import ArithTree.Main
import ArithTree.Workbench
import ArithTree.Proofs.Language
import ArithTree.Proofs.Prefixes
import ArithTree.Proofs.Munch
import ArithTree.Proofs.Carets
import ArithTree.Proofs.Gaps
import ArithTree.Proofs.Stages
import ArithTree.Proofs.CommandLine.Effects
import ArithTree.Proofs.Json.Trees
import ArithTree.Proofs.Shifts
import ArithTree.Proofs.Siblings
import ArithTree.Proofs.ReadingOrder
import ArithTree.Proofs.CommandLine.Phrases
import ArithTree.Proofs.Alignment
import ArithTree.Proofs.Colours
import ArithTree.Proofs.Trail
import ArithTree.Proofs.Json.Indented
import ArithTree.Proofs.Extents
