import LayerNet.Conformance.Checks
import LayerNet.Graph.Description
import LayerNet.Json.Printer
import LayerNet.Number.WordText
import LayerNet.Proofs.Backend.Admission
import LayerNet.Proofs.Graph.Drafts
import LayerNet.Proofs.Network.Agreement
import LayerNet.Proofs.Network.Completeness
import LayerNet.Proofs.Network.Endings
import LayerNet.Proofs.Graph.Renaming
import LayerNet.Proofs.Tensor.AxisScales
import LayerNet.Proofs.Tensor.Changes
import LayerNet.Proofs.Graph.Copies
import LayerNet.Proofs.Number.Rounding
import LayerNet.Proofs.Tensor.RoundTrip
import LayerNet.Proofs.Tensor.SingleElements
import LayerNet.Proofs.Network.Isolation
import LayerNet.Proofs.Number.Equality
import LayerNet.Proofs.Tensor.TypeSpace
import LayerNet.Proofs.Network.Gate
import LayerNet.Proofs.Backend.Stamping
import LayerNet.Proofs.Backend.Questions
import LayerNet.Proofs.Network.Assignment
import LayerNet.Proofs.Graph.Connecting
import LayerNet.Proofs.Graph.LeastOrder
import LayerNet.Proofs.Graph.Rerunning
import LayerNet.Proofs.Backend.Slices
import LayerNet.Proofs.Backend.Gathers
import LayerNet.Proofs.Graph.PooledExtent
import LayerNet.Proofs.Kernel.Arrangement
import LayerNet.Proofs.Kernel.Windows
import LayerNet.Proofs.Graph.Pooling
import LayerNet.Proofs.Kernel.Fibres
import LayerNet.Proofs.Graph.Layouts
import LayerNet.Proofs.Kernel.Broadcasting
import LayerNet.Proofs.Kernel.Matrices
import LayerNet.Proofs.Native.Running
import LayerNet.Proofs.Native.Overflow
import LayerNet.Proofs.Native.Saturation
import LayerNet.Proofs.Backend.Extraction
import LayerNet.Proofs.Tensor.Comparison
import LayerNet.Proofs.Graph.Inheritance
import LayerNet.Proofs.Kernel.Strides
