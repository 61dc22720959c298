import BabelRs.Safety.SourceMemory
import BabelRs.Safety.Snapshots
import BabelRs.Safety.Freshness
import BabelRs.Safety.OwnDistance
import BabelRs.Linux.SourceTables
import BabelRs.Linux.CrashLoop
import BabelRs.Router.OutputOrder
import BabelRs.Router.Barrier
import BabelRs.Safety.MacInterop
import BabelRs.Wire.DecoderSafety
import BabelRs.Wire.WellFormed
import BabelRs.Wire.Compression
import BabelRs.Safety.Determinism
import BabelRs.Safety.OwnRequest
import BabelRs.Wire.Stamp
import BabelRs.ConfigText
