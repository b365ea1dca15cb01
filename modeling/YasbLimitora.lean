import YasbLimitora.Lib.Decimal
import YasbLimitora.Lib.DecimalText
import YasbLimitora.Lib.Instant
import YasbLimitora.Lib.Encoding
import YasbLimitora.Lib.JsonParse
import YasbLimitora.Lib.JsonText
import YasbLimitora.Lib.Runs
import YasbLimitora.Lib.Interaction
import YasbLimitora.Lib.History
import YasbLimitora.Lib.Faults
import YasbLimitora.Model.Vocabulary
import YasbLimitora.Model.Identity
import YasbLimitora.Model.Quantity
import YasbLimitora.Model.Window
import YasbLimitora.Model.Constructors
import YasbLimitora.Model.Deadline
import YasbLimitora.Transport.Response
import YasbLimitora.Transport.Exchange
import YasbLimitora.Worker.Classification
import YasbLimitora.Cli.Main
import YasbLimitora.Coordinator.Program
import YasbLimitora.Coordinator.Invariant
import YasbLimitora.Coordinator.SingleFlight
import YasbLimitora.Coordinator.Waiting
import YasbLimitora.PathCleanup.AllOrNothing
import YasbLimitora.PathCleanup.Inverse
import YasbLimitora.SetupAssist.Batch
import YasbLimitora.SetupAssist.Succeed
import YasbLimitora.SetupAssist.Uninstall
import YasbLimitora.SetupAssist.Authorization
import YasbLimitora.Config.Agreement
import YasbLimitora.ConfigApply.Apply
import YasbLimitora.ConfigApply.Gate
import YasbLimitora.ConfigLock.Mixed
import YasbLimitora.ConfigLock.Leftover
import YasbLimitora.Guard.Finalization
import YasbLimitora.Codex.Resources
import YasbLimitora.Isolation.Cleanup
import YasbLimitora.Cache.Presentation
import YasbLimitora.Codex.Acquisition
import YasbLimitora.Lib.DecimalNormal
import YasbLimitora.Lib.DecimalRounding
import YasbLimitora.Model.CanonicalDecimal
import YasbLimitora.Projection.Depletion
import YasbLimitora.Projection.QuantityText
import YasbLimitora.Projection.OpenCode
import YasbLimitora.ConfigApply.Backups
import YasbLimitora.Helper.Teardown
import YasbLimitora.StateCleanup.Handles
import YasbLimitora.Helper.Lifecycle
import YasbLimitora.Isolation.Frames
import YasbLimitora.EnvBlock.Idempotent
import YasbLimitora.EnvBlock.Atomic
import YasbLimitora.ConfigApply.Frame
import YasbLimitora.ConfigApply.Succeeds
import YasbLimitora.Installer.Replacement
import YasbLimitora.Isolation.Exchange
import YasbLimitora.Lib.JsonSize
import YasbLimitora.Lib.JsonString
import YasbLimitora.Lib.JsonRecognize
import YasbLimitora.Isolation.Session
import YasbLimitora.Helper.Codec
import YasbLimitora.Helper.Adapter
import YasbLimitora.Cache.Document
import YasbLimitora.Cache.Accepted
import YasbLimitora.Cache.Entry
import YasbLimitora.Cache.Sound
import YasbLimitora.Cache.Texts
