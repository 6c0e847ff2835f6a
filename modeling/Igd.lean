import Igd.Slot
import Igd.Testbed.Replica
import Igd.Proofs.Addressing.Ceiling
import Igd.Proofs.Aperture.Decoding
import Igd.Proofs.Attachment.HandOver
import Igd.Proofs.Attachment.PageReleased
import Igd.Proofs.Attachment.ReadBack
import Igd.Proofs.Attachment.Precautions
import Igd.Proofs.Attachment.Refusals
import Igd.Proofs.Attachment.Renewal
import Igd.Proofs.Attachment.Restore
import Igd.Proofs.Attachment.Teardown
import Igd.Proofs.Dma.Accounting
import Igd.Proofs.Dma.Behind
import Igd.Proofs.Dma.BusAlignment
import Igd.Proofs.Dma.BusEnd
import Igd.Proofs.Dma.Limit
import Igd.Proofs.Registers.Window
import Igd.Proofs.StatusPage.Failure
import Igd.Proofs.StatusPage.RoundTrip
import Igd.Proofs.Slot
import Igd.Proofs.Stolen.LowestFit
import Igd.Proofs.Stolen.Partition
import Igd.Proofs.Stolen.Trespass
import Igd.Proofs.Stolen.Undo
