import MkwiiPs5.Memory.GuestFlatTransaction
import MkwiiPs5.Runtime.HostContextRuns
import MkwiiPs5.Memory.FastPath
import MkwiiPs5.Gpu.CopyStoreAtomic
import MkwiiPs5.Gpu.GxTextureCurrent
import MkwiiPs5.Gpu.VideoPresenterRuns
import MkwiiPs5.Gpu.AgcBlitRuns
import MkwiiPs5.Gpu.AgcGxDrawRuns
import MkwiiPs5.Gx.RegisterRuns
import MkwiiPs5.Gx.VertexDecoder
import MkwiiPs5.Input.NativePadRuns
import MkwiiPs5.Gpu.CopyPool
import MkwiiPs5.Runtime.FastClockRuns
import MkwiiPs5.Runtime.AsyncLog
import MkwiiPs5.Gpu.ShaderBinary
import MkwiiPs5.Gx.XfLoads
import MkwiiPs5.Gx.CopyCommandRuns
import MkwiiPs5.Gpu.GxFrameRendererRuns
import MkwiiPs5.Input.AuroraInputRuns
import MkwiiPs5.Gx.BpMask
import MkwiiPs5.Gpu.DepthLayout
import MkwiiPs5.Input.PadAutopilotRuns
import MkwiiPs5.Runtime.CanonicalPath
import MkwiiPs5.LinkedList
import MkwiiPs5.Memory.ArenaHandles
import MkwiiPs5.Memory.ArenaHandlesRuns
import MkwiiPs5.Runtime.NandPublication
import MkwiiPs5.OpenAddressing
import MkwiiPs5.Runtime.FunctionProfiler
import MkwiiPs5.Runtime.FunctionProfilerTime
import MkwiiPs5.Runtime.FunctionProfilerCalls
import MkwiiPs5.Runtime.FunctionProfilerRuns
import MkwiiPs5.Link.EhFrame
import MkwiiPs5.Link.EhFramePruning
import MkwiiPs5.Gpu.TextureCopyPlan
import MkwiiPs5.Gpu.TextureCopyGeometry
import MkwiiPs5.Gx.ViewportScissor
import MkwiiPs5.Gx.ViewportWindows
import MkwiiPs5.Memory.Resolution
import MkwiiPs5.Gpu.GxMemorySources
import MkwiiPs5.Gx.GeometryIndices
import MkwiiPs5.Gx.GeometryBounds
import MkwiiPs5.Gx.GeometrySnapshots
import MkwiiPs5.Gx.GeometryDecoding
import MkwiiPs5.Gx.TevStage
import MkwiiPs5.Gx.TevProgram
import MkwiiPs5.Gx.TevInteger
import MkwiiPs5.Gx.TevReference
import MkwiiPs5.Gx.TevAgreement
import MkwiiPs5.Gpu.GxDirectMaterial
import MkwiiPs5.Gpu.GxTevUniforms
import MkwiiPs5.Gx.AuroraCommands
import MkwiiPs5.Gx.Draws
import MkwiiPs5.Gx.Dispatch
import MkwiiPs5.Gx.RegisterBounds
import MkwiiPs5.Gx.CommandBounds
import MkwiiPs5.Gx.DrawGroups
import MkwiiPs5.Gx.DispatchSafety
import MkwiiPs5.Gx.VertexAgreement
import MkwiiPs5.Gx.MergedSnapshots
import MkwiiPs5.Gx.DrawMerging
import MkwiiPs5.Words
import MkwiiPs5.Gx.GeometryBuffer
import MkwiiPs5.Gx.DecodedValues
import MkwiiPs5.Gx.VertexFetch
import MkwiiPs5.Gx.FetchAgreement
import MkwiiPs5.Gx.SubmittedDraws
import MkwiiPs5.Runtime.PthreadOnce
import MkwiiPs5.Gx.ByteBuffer
import MkwiiPs5.Gpu.DisplayCopyPlan
import MkwiiPs5.Gpu.AgcBlitReferences
import MkwiiPs5.Gpu.DisplayCopy
import MkwiiPs5.Gpu.DisplayCopyRuns
import MkwiiPs5.Gx.Relocation
import MkwiiPs5.Gx.Chunks
import MkwiiPs5.Gx.DrawRefusals
