import NinjaPlan.BuildFile.Read
import NinjaPlan.BuildFile.Value
import NinjaPlan.Fixture.NinjaProbe
import NinjaPlan.Fixture.PackageProgram
import NinjaPlan.Fixture.SampleProject
import NinjaPlan.Main
import NinjaPlan.Plan.Valid
import NinjaPlan.Proofs.BuildFile.Expressible
import NinjaPlan.Proofs.BuildFile.Outcome
import NinjaPlan.Proofs.Files.Atomic
import NinjaPlan.Proofs.Flags.Composition
import NinjaPlan.Proofs.Flags.Protocol
import NinjaPlan.Proofs.Options.Spelling
import NinjaPlan.Proofs.Path.Meaning
import NinjaPlan.Proofs.Plan.Acyclic
import NinjaPlan.Proofs.Plan.Collision
import NinjaPlan.Proofs.Plan.Containment
import NinjaPlan.Proofs.Plan.FirstFault
import NinjaPlan.Proofs.Plan.Growth
import NinjaPlan.Proofs.Plan.Inputs
import NinjaPlan.Proofs.Plan.Mapping
import NinjaPlan.Proofs.Plan.ObjectDirectory
import NinjaPlan.Proofs.Plan.Order
import NinjaPlan.Proofs.Plan.Relocation
import NinjaPlan.Proofs.Project.Configured
import NinjaPlan.Proofs.Project.Directories
import NinjaPlan.Proofs.Project.Discovery
import NinjaPlan.Proofs.Project.EntryPoint
import NinjaPlan.Proofs.Project.Report
import NinjaPlan.Proofs.Project.Subdirectory
import NinjaPlan.Shell.Words
