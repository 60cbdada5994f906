import CairoAsm.Entity
import CairoAsm.Json.Written
import CairoAsm.Main
import CairoAsm.Proofs.Command.LineBreaks
import CairoAsm.Proofs.Command.Numbers
import CairoAsm.Proofs.Command.Verbosity
import CairoAsm.Proofs.Layout.ShownConstant
import CairoAsm.Proofs.Layout.Tiling
import CairoAsm.Proofs.Listing.Appended
import CairoAsm.Proofs.Listing.HintLines
import CairoAsm.Proofs.Listing.Offsets
import CairoAsm.Proofs.Schema.Distinct
import CairoAsm.Proofs.Schema.FirstFault
import CairoAsm.Proofs.Schema.Hierarchy
import CairoAsm.Proofs.Schema.ShortForms
import CairoAsm.Proofs.Session.Runs
import CairoAsm.Session
