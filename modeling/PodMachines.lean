import PodMachines.Doc.Json.Value
import PodMachines.Main
import PodMachines.Proofs.Pods.Chronicle
import PodMachines.Proofs.Pods.Pace
import PodMachines.Proofs.Pods.Turn
import PodMachines.Proofs.Pods.Exclusion
import PodMachines.Proofs.Pods.Course
import PodMachines.Proofs.Pods.CourseStep
import PodMachines.Proofs.Pods.Account
import PodMachines.Proofs.Pods.Life
import PodMachines.Proofs.Pods.Readiness
import PodMachines.Proofs.Pods.Sampling
import PodMachines.Proofs.Pods.Removal
import PodMachines.Proofs.Pods.Enrollment
import PodMachines.Proofs.Pods.Accounting
import PodMachines.Proofs.Pods.Effect
import PodMachines.Proofs.Pods.Glance
import PodMachines.Proofs.Pods.Directory
import PodMachines.Proofs.Pods.Question
import PodMachines.Proofs.Pods.Ending
import PodMachines.Proofs.Shim.Talk
import PodMachines.Proofs.Shim.Careful
import PodMachines.Proofs.Shim.Run
import PodMachines.Proofs.Shim.Job
import PodMachines.Proofs.Shim.Refusal
import PodMachines.Proofs.Shim.Sight
import PodMachines.Proofs.Shim.Routing
import PodMachines.Proofs.Shim.FanOut
import PodMachines.Proofs.Backend.Tooled
import PodMachines.Proofs.Backend.Started
import PodMachines.Proofs.Shim.Rig
import PodMachines.Proofs.Shim.Behalf
import PodMachines.Proofs.Shim.Errand
import PodMachines.Proofs.Shim.Teardown
import PodMachines.Proofs.Session.Work
import PodMachines.Proofs.Session.Task
import PodMachines.Proofs.Session.Turn
import PodMachines.Proofs.Pods.Interval
import PodMachines.Proofs.Pods.Reuse
import PodMachines.Proofs.Pods.Succession
import PodMachines.Proofs.Pods.Idle
import PodMachines.Proofs.Pods.Alone
import PodMachines.Proofs.Pods.Deal
import PodMachines.Proofs.Pods.Gather
import PodMachines.Proofs.Shim.Alone
import PodMachines.Proofs.Shim.Handling
import PodMachines.Proofs.Shim.Independence
import PodMachines.Proofs.Shim.Selection
import PodMachines.Proofs.Image.History
import PodMachines.Proofs.Shim.Imaging
import PodMachines.Proofs.Shim.Pulling
import PodMachines.Proofs.Shim.Remembering
import PodMachines.Proofs.Shim.Forgetting
import PodMachines.Proofs.Pods.Boot
import PodMachines.Proofs.Backend.Booted
import PodMachines.Proofs.Shim.Boot
import PodMachines.Proofs.Pods.Identity
import PodMachines.Proofs.Shim.Identity
import PodMachines.Proofs.Backend.Polling
import PodMachines.Proofs.Backend.Making
import PodMachines.Proofs.Backend.Leftover
import PodMachines.Proofs.Backend.Breaking
import PodMachines.Proofs.Backend.Creating
import PodMachines.Proofs.Pods.Failing
import PodMachines.Proofs.Shim.Failing
import PodMachines.Proofs.Shim.Hearing
import PodMachines.Proofs.Shim.Creating
import PodMachines.Proofs.Agent.Dialing
import PodMachines.Proofs.Machine.Naming
import PodMachines.Proofs.Image.Writing
import PodMachines.Proofs.Image.Normalizing
import PodMachines.Proofs.Backend.BootImage
import PodMachines.Proofs.Backend.Overdue
import PodMachines.Proofs.Backend.Volumes
import PodMachines.Proofs.Shim.Returning
import PodMachines.Proofs.Pods.Locking
import PodMachines.Proofs.Config.Loading
import PodMachines.Proofs.Doc.Record
import PodMachines.Proofs.Backend.Described
import PodMachines.Proofs.Shim.Attribution
import PodMachines.Proofs.Machine.Display
import PodMachines.Proofs.Shim.Display
import PodMachines.Proofs.Text.Lines
import PodMachines.Proofs.Machine.Scanning
import PodMachines.Proofs.Registry.Registering
