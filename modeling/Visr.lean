import Visr.Libefl.FilterFunctions
import Visr.Libefl.NeonRefinement
import Visr.Libefl.SimdRefinement
import Visr.Libobjectmodel.ParsingAtomicity
import Visr.Libpanning.ArrayTables
import Visr.Libpanning.PlainGains
import Visr.Libpanningdsp.PanningTrajectory
import Visr.Libpml.ParameterAssignment
import Visr.Libpml.SignalRoutingTexts
import Visr.Libpml.TextParameters
import Visr.Librbbl.CircularBufferWindows
import Visr.Librbbl.DelayedPolynomials
import Visr.Librbbl.EqualiserTexts
import Visr.Librbbl.Fir
import Visr.Librbbl.GainTransitions
import Visr.Librbbl.IndexRanges
import Visr.Librbbl.InterpolatedFilters
import Visr.Librbbl.ParametricIirDesign
import Visr.Librbbl.QuaternionInterpolation
import Visr.Librbbl.RoutingTableCalls
import Visr.Librcl.ChannelObjectRoutingCalculator
import Visr.Librcl.DelayTransitions
import Visr.Librcl.FilterUpdates
import Visr.Librcl.GainUpdates
import Visr.Librcl.GainVector
import Visr.Librcl.HoaAllRadGainCalculator
import Visr.Librcl.ListenerCompensation
import Visr.Librcl.PanningColumns
import Visr.Librcl.PositionDecoder
import Visr.Librcl.SparseGainMatrix
import Visr.Librcl.TimeFrequencyTransform
import Visr.Librcl.UdpTransport
import Visr.Libsignalflows.TimeFrequencyFeedthrough
import Visr.Libreverbobject.LateReverbFilterCalculator
import Visr.Libreverbobject.ReverbRuns
import Visr.Librrl.FlexibleBufferWrapper
import Visr.Librrl.FlowCreation
import Visr.Librrl.ParameterInfrastructure
import Visr.Librrl.RuntimeProfiler
import Visr.Librrl.SchedulingGraph
import Visr.Library.MixedRadix
