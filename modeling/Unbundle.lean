import Unbundle.Host.Rehearsal
import Unbundle.Main
import Unbundle.Proofs.Command.DryRun
import Unbundle.Proofs.Command.Sources
import Unbundle.Proofs.Closing
import Unbundle.Proofs.Coverage
import Unbundle.Proofs.FixedPoint
import Unbundle.Proofs.WholeHeads
import Unbundle.Proofs.Visibility
import Unbundle.Proofs.Item.Visibility
import Unbundle.Proofs.Item.Layout
import Unbundle.Proofs.Manifest.Joined
import Unbundle.Proofs.Token.Grammar
import Unbundle.Proofs.Token.Tiling
import Unbundle.Proofs.Token.Nesting
import Unbundle.Proofs.Faultless
import Unbundle.Proofs.Manifest.Clashes
import Unbundle.Proofs.SharedModule
import Unbundle.Proofs.Scan.Group
import Unbundle.Proofs.Scan.Terminator
import Unbundle.Proofs.Item.WellFormed
import Unbundle.Proofs.Manifest.Order
import Unbundle.Proofs.Imports
