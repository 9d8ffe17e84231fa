import BackendAssembly.FileTree
import BackendAssembly.Main
import BackendAssembly.Rehearsal
import BackendAssembly.Proofs.KeyReading
import BackendAssembly.Proofs.ConstantReading
import BackendAssembly.Proofs.DocumentReading
import BackendAssembly.Proofs.StoreDocument
import BackendAssembly.Proofs.NameOrder
import BackendAssembly.Proofs.Course
import BackendAssembly.Proofs.AssemblyCourse
import BackendAssembly.Proofs.EntryPointAgreement
import BackendAssembly.Proofs.AssembledBackend
import BackendAssembly.Proofs.CommandTranslation
import BackendAssembly.Proofs.DistinctKeys
import BackendAssembly.Proofs.StoreLookup
import BackendAssembly.Proofs.DocumentConstants
import BackendAssembly.Proofs.StoreLanguage
import BackendAssembly.Proofs.StagePath
import BackendAssembly.Proofs.TimerBalance
import BackendAssembly.Proofs.FailStop
import BackendAssembly.Proofs.StoreRoundTrip
import BackendAssembly.Proofs.Registration
import BackendAssembly.Proofs.TargetDependence
import BackendAssembly.Proofs.ErrorLine
import BackendAssembly.Proofs.RunIndependence
import BackendAssembly.Proofs.StoreSessions
import BackendAssembly.Proofs.StoreLines
import BackendAssembly.Proofs.TimerHistory
import BackendAssembly.Proofs.Wiring
import BackendAssembly.Proofs.CapabilityTranslation
import BackendAssembly.Proofs.LineOrder
import BackendAssembly.Proofs.JsonReading
import BackendAssembly.Proofs.TargetRendering
import BackendAssembly.Proofs.TextBytes
import BackendAssembly.Proofs.PathReading
import BackendAssembly.Proofs.StoreLoading
import BackendAssembly.Proofs.StageSection
import BackendAssembly.Proofs.CauseChain
