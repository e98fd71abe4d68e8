import Ambient.Script.Program
import Ambient.Proofs.Conservation
import Ambient.Proofs.Nesting
import Ambient.Proofs.Separation
import Ambient.Proofs.Hops
import Ambient.Proofs.Disorder
import Ambient.Proofs.PollPlaces
import Ambient.Proofs.PastTeardown
import Ambient.Proofs.Crew
import Ambient.Proofs.Schedules
import Ambient.Proofs.Coherence
import Ambient.Proofs.Builds
import Ambient.Proofs.Agreement
import Ambient.Proofs.Composition
import Ambient.Proofs.Stepping
import Ambient.Proofs.ProgramBuilds
import Ambient.Proofs.Endings
import Ambient.Proofs.Orders
import Ambient.Proofs.Layers
import Ambient.Proofs.Blame
import Ambient.Proofs.Counts
import Ambient.Proofs.Release
import Ambient.Proofs.Dispatches
