import Nvcr.AccessUnitCanonical
import Nvcr.AccessUnitCursors
import Nvcr.AccessUnits
import Nvcr.ArtifactResolver
import Nvcr.BestCandidates
import Nvcr.BinaryFormats
import Nvcr.ByteCursors
import Nvcr.ByteStreams
import Nvcr.CatalogContents
import Nvcr.CatalogDocuments
import Nvcr.CatalogEntries
import Nvcr.CatalogLoading
import Nvcr.CliContainer
import Nvcr.CliDecodeLoop
import Nvcr.CliDraining
import Nvcr.CliSessionDriver
import Nvcr.CodecInterface
import Nvcr.CodecLaws
import Nvcr.CodecPayloads
import Nvcr.CompatibilityAgreement
import Nvcr.Configuration
import Nvcr.ConfigurationReconciliation
import Nvcr.ContextCache
import Nvcr.DecimalTexts
import Nvcr.DelayedSessions
import Nvcr.DeviceScratchArena
import Nvcr.ExactFormats
import Nvcr.Frames
import Nvcr.JsonDocuments
import Nvcr.JsonTexts
import Nvcr.JsonValues
import Nvcr.KernelOwnership
import Nvcr.KernelThreads
import Nvcr.LegacyDirections
import Nvcr.LegacyOutputs
import Nvcr.LegacySessions
import Nvcr.LittleEndian
import Nvcr.MarkedTexts
import Nvcr.MemoryPools
import Nvcr.MlvcBundle
import Nvcr.MlvcBundleLoading
import Nvcr.MlvcCanvasAgreement
import Nvcr.MlvcDecoderReferences
import Nvcr.MlvcEncodability
import Nvcr.MlvcEncoderAtomicity
import Nvcr.MlvcEntropy
import Nvcr.MlvcEntropyRoundTrip
import Nvcr.MlvcMetadataSafety
import Nvcr.MlvcPresentation
import Nvcr.MlvcRecords
import Nvcr.MlvcReferenceAvailability
import Nvcr.MlvcSchedulerAgreement
import Nvcr.MlvcSequence
import Nvcr.MlvcSessions
import Nvcr.NestedLoops
import Nvcr.OrderedEntries
import Nvcr.OutputQueues
import Nvcr.OutputSlots
import Nvcr.PacketIo
import Nvcr.PairedSettings
import Nvcr.PoolAccounting
import Nvcr.ProviderSubmissions
import Nvcr.RansStates
import Nvcr.RelatedRuns
import Nvcr.RowMajorIndices
import Nvcr.RtCudaAgreement
import Nvcr.RtCudaFrames
import Nvcr.RtCudaKernels
import Nvcr.RtCudaLaunches
import Nvcr.RtCudaRules
import Nvcr.RtCudaStores
import Nvcr.RtCudaStreams
import Nvcr.RtDecoderReferences
import Nvcr.RtDirections
import Nvcr.RtDriftFreedom
import Nvcr.RtEncoderAtomicity
import Nvcr.RtEncoderProgress
import Nvcr.RtEntropyRestarts
import Nvcr.RtExactSessions
import Nvcr.RtFaultFree
import Nvcr.RtFirstStages
import Nvcr.RtFrameAgreement
import Nvcr.RtHalfConversion
import Nvcr.RtHostBackend
import Nvcr.RtHostLaws
import Nvcr.RtHostOps
import Nvcr.RtHostStages
import Nvcr.RtMaskPartition
import Nvcr.RtOrchestration
import Nvcr.RtPayloads
import Nvcr.RtRansCodec
import Nvcr.RtRansRoundTrip
import Nvcr.RtRansSessions
import Nvcr.RtReferenceSizes
import Nvcr.RtResolutionChanges
import Nvcr.RtSessionGuarantees
import Nvcr.RtSessions
import Nvcr.RtStageAgreement
import Nvcr.RtStageShapes
import Nvcr.RuntimeClients
import Nvcr.SecureHashBytes
import Nvcr.SecureHashStandard
import Nvcr.SessionQueues
import Nvcr.SessionRestarts
import Nvcr.Sha256
import Nvcr.Sha256Digests
import Nvcr.StatefulResults
import Nvcr.SubmissionSafety
import Nvcr.TextReaders
import Nvcr.TransitionRuns
import Nvcr.UfDecoder
import Nvcr.UfDecoderReferences
import Nvcr.UfDirections
import Nvcr.UfEncoder
import Nvcr.UfFrameAccounting
import Nvcr.UfGopLaw
import Nvcr.UfGroupAtomicity
import Nvcr.UfGroupEffects
import Nvcr.UfPreparation
import Nvcr.UfRansCodec
import Nvcr.UfRansFraming
import Nvcr.UfRansRoundTrip
import Nvcr.UfRansSessions
import Nvcr.UfRansStreams
import Nvcr.UfSharedSession
import Nvcr.UfVendoredRans
