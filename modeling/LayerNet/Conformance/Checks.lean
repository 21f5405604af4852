import LayerNet.Graph.Edit
import LayerNet.Network.Basic

/-!
Behaviour that every backend must show for the layers it accepts, as checks that a factory passes
or fails. A check fails when an expectation is not met or when anything in it is refused or
crashes.
-/

set_option autoImplicit false
set_option relaxedAutoImplicit false

-- Powers are those of the core library.
attribute [local instance (high)] instPowNat

namespace LayerNet.Conformance

/-- The checks run with the library that adds up in order. -/
instance (priority := low) : LinearAlgebra := .inOrder

abbrev Check := Action Unit

def expect (condition : Bool) : Check Unit :=
  if condition then return () else Action.refuse ()

def must {ε α : Type} (action : Action ε α) : Check α := action.mapError fun _ => ()

def mustBe {ε α : Type} (answer : Except ε α) : Check α :=
  Action.attempt (answer.mapError fun _ => ())

def mustFinish {ε α : Type} (answer : Except (Stop ε) α) : Check α :=
  Action.ofExcept (answer.mapError (·.map fun _ => ()))

def expectRefusal {ε α : Type} (accepts : ε → Bool) (action : Action ε α) : Check Unit :=
  ExceptT.mk (do
    match ← action.run with
    | .error (.refused error) => return if accepts error then .ok () else .error (.refused ())
    | _ => return .error (.refused ()))

def isNotValidated : BackendError → Bool
  | .notValidated .. => true
  | _ => false

/-- Whether an error says that a request or its memory is malformed. -/
def isMalformedError : BackendError → Bool
  | .malformed .. => true
  | _ => false

/-- Whether a verdict says that a layer is malformed. -/
def isMalformed : Support → Bool
  | .malformed _ => true
  | _ => false

def floats (dims : List Nat) : Check TensorInfo := mustBe (TensorInfo.ofDims dims .float32)

def valuesOf (ns : List Int) : Array Single := (ns.map Single.ofInt).toArray

def fractions (places : Nat) (ns : List Int) : Array Single :=
  (ns.map fun n => Single.ofInt n / Single.ofInt (2 ^ places : Nat)).toArray

def repeated (count : Nat) (value : Single) : Array Single := Array.replicate count value

def link (g : Graph) (source target : LayerId) (slot : Nat) : Check Graph :=
  mustBe (g.connect ⟨source, 0⟩ ⟨target, slot⟩)

def numbered {α : Type} (edits : StateM GuidSupply α) : α := (edits.run {}).1

def binaryGraph (kind : LayerKind) (info : TensorInfo) : Check Graph := do
  let (lhs, rhs, op, out, g) := numbered (do
    let (lhs, g) ← ({} : Graph).addInput 0 "lhs" info
    let (rhs, g) ← g.addInput 1 "rhs" info
    let (op, g) ← g.addLayer kind "op"
    let (out, g) ← g.addOutput 0 "out"
    return (lhs, rhs, op, out, g))
  let g ← link g lhs op 0
  let g ← link g rhs op 1
  link g op out 0

def unaryGraph (kind : LayerKind) (info : TensorInfo) : Check Graph := do
  let (input, op, out, g) := numbered (do
    let (input, g) ← ({} : Graph).addInput 0 "in" info
    let (op, g) ← g.addLayer kind "op"
    let (out, g) ← g.addOutput 0 "out"
    return (input, op, out, g))
  let g ← link g input op 0
  link g op out 0

def options : NetworkOptions := { backendPreferences := [], validateMemory := true }

def load (g : Graph) (f : Factory) : Check LoadedNetwork :=
  must (LoadedNetwork.loadOn g [f] options)

def runWith (n : LoadedNetwork) (inputs : List (Int × Array Single)) : Check (Array Single) := do
  let n ← must (inputs.foldlM (fun n (binding, values) => n.setInput binding values) n)
  must n.execute
  must (n.output 0)

def sameValues (a b : Array Single) : Bool :=
  a.size == b.size && (a.zip b).all fun (x, y) => x.numEq y

/-- Whether two vectors differ by at most a tolerance that may depend on the expected value. -/
def near (tolerance : Single → Single) (found expected : Array Single) : Bool :=
  found.size == expected.size
    && (found.zip expected).all fun (x, e) => (x - e).abs.numLe (tolerance e)

def multiplyByOnes (f : Factory) : Check Unit := do
  let g ← binaryGraph .multiplication (← floats [1, 1, 4, 4])
  let input := valuesOf [0, 1, 0, 0, 0, 0, 0, 0, 0, 0, 1, 0, 1, 0, 1, 1]
  let output ← runWith (← load g f) [(0, input), (1, repeated 16 1)]
  expect (sameValues output input)

def quantizedMultiply (f : Factory) : Check Unit := do
  let shape ← mustBe (Shape.ofDims [1, 1, 4, 4])
  let scale := Single.ofDecimal false 5 (-2)
  let g ← binaryGraph .multiplication (.quantized shape .qasymmU8 scale 3)
  let input := fractions 4 [1, 7, 20, 31, 44, 52, 63, 70, 85, 90, 99, 111, 120, 133, 147, 159]
  let output ← runWith (← load g f) [(0, input), (1, repeated 16 1)]
  expect (near (fun _ => scale + Single.ofDecimal false 1 (-4)) output input)

def multiplyRequest (info : TensorInfo) : Request :=
  { layer := "mul", kind := .multiplication,
    signature := { inputs := [info, info], outputs := [info] } }

/-- A request must be validated before a workload is created, and malformed layers are told from
unsupported ones. -/
def createRequiresValidation (f : Factory) : Check Unit := do
  let info ← floats [2, 2]
  let request := multiplyRequest info
  let memory ← BoundMemory.allocate request.signature
  expectRefusal isNotValidated (f.create request memory)
  let (verdict, request) ← request.validateWith f
  expect verdict.isSupported
  let workload ← must (f.create request memory)
  expect (workload.layer == "mul")
  expect (isMalformed (← f.support .multiplication [info] [info]))
  expect (isMalformed (← f.support .multiplication [info, info] [{}]))
  expect (!(← f.support (.input 0) [] [info]).isSupported)

def createRejectsMemory (f : Factory) : Check Unit := do
  let info ← floats [2, 2]
  let (verdict, request) ← (multiplyRequest info).validateWith f
  expect verdict.isSupported
  let wrongShape ← BoundMemory.allocate { inputs := [← floats [4], info], outputs := [info] }
  expectRefusal isMalformedError (f.create request wrongShape)
  let missingOutput ← BoundMemory.allocate { inputs := [info, info], outputs := [] }
  expectRefusal isMalformedError (f.create request missingOutput)

def affine (transposed : Bool) (weights : Constant) (bias : Option Constant) : LayerKind :=
  .fullyConnected { transposed, weights, bias }

/-- A fully connected layer gives the affine map of its weights in both orientations. -/
def affineMatches (f : Factory) : Check Unit := do
  let input := fractions 3 [5, -3, 7, -8, 2, 6]
  let weights := fractions 3 [1, -7, 4, 3, -2, 5, 8, -6, 7, -1, 2, -5]
  let bias := fractions 3 [3, -4, 1, 6]
  let biasTensor ← mustFinish (Constant.ofValues (← floats [4]) bias)
  for transposed in [false, true] do
    let dims := if transposed then [4, 3] else [3, 4]
    let tensor ← mustFinish (Constant.ofValues (← floats dims) weights)
    let g ← unaryGraph (affine transposed tensor (some biasTensor)) (← floats [2, 3])
    let output ← runWith (← load g f) [(0, input)]
    let map : AffineWeights Single :=
      { weights, bias := some bias, inputs := 3, outputs := 4, transposed }
    let expected ← mustFinish (map.compute input 2)
    expect (near (fun e => Single.ofDecimal false 1 (-5) * e.abs.max 1) output expected)

def sliceExtractsWindow (f : Factory) : Check Unit := do
  let g ← unaryGraph (.slice ⟨[0, 1, 1], [2, 2, 3]⟩) (← floats [2, 3, 4])
  let input := valuesOf ((List.range 24).map Int.ofNat)
  let output ← runWith (← load g f) [(0, input)]
  expect (sameValues output (valuesOf [5, 6, 7, 9, 10, 11, 17, 18, 19, 21, 22, 23]))

/-- Running on working memory leaves other memory alone. -/
def memoriesAreSeparate (f : Factory) : Check Unit := do
  let n ← load (← binaryGraph .multiplication (← floats [2, 3])) f
  let n ← must (n.setInput 0 (valuesOf [1, 2, 3, 4, 5, 6]))
  let n ← must (n.setInput 1 (repeated 6 (.ofInt 2)))
  must n.execute
  let first ← must n.newMemory
  let first ← must (first.setInput 0 (repeated 6 1))
  let first ← must (first.setInput 1 (repeated 6 (.ofInt 3)))
  let second ← must n.newMemory
  let second ← must (second.setInput 0 (repeated 6 (.ofInt (-1))))
  let second ← must (second.setInput 1 (fractions 1 [1, 1, 1, 1, 1, 1]))
  must (n.executeOn first)
  must (n.executeOn second)
  expect (sameValues (← must (first.output 0)) (repeated 6 (.ofInt 3)))
  expect (sameValues (← must (second.output 0)) (fractions 1 [-1, -1, -1, -1, -1, -1]))
  expect (sameValues (← must (n.output 0)) (valuesOf [2, 4, 6, 8, 10, 12]))

def wrapped (f : Factory) : Check (Nat × Factory) := do
  let host ← get
  let (log, journal) := host.journal.openLog
  set { host with journal }
  return (log, .recording log f)

/-- Each layer is validated and created before the next, in topological order. -/
def callsFollowOrder (f : Factory) : Check Unit := do
  let info ← floats [4]
  let (input, square, shift, out, g) := numbered (do
    let (input, g) ← ({} : Graph).addInput 0 "in" info
    let (square, g) ← g.addLayer .multiplication "square"
    let (shift, g) ← g.addLayer .addition "shift"
    let (out, g) ← g.addOutput 0 "out"
    return (input, square, shift, out, g))
  let g ← link g input square 0
  let g ← link g input square 1
  let g ← link g square shift 0
  let g ← link g input shift 1
  let g ← link g shift out 0
  let (log, recording) ← wrapped f
  let n ← load g recording
  expect ((← get).journal.calls log ==
    [.validate .multiplication, .create "square" .multiplication, .validate .addition,
      .create "shift" .addition])
  let output ← runWith n [(0, valuesOf [1, 2, 3, -1])]
  expect (sameValues output (valuesOf [2, 6, 12, 0]))

def affineRejectsBias (f : Factory) : Check Unit := do
  let weights ← mustFinish (Constant.ofValues (← floats [3, 2]) (repeated 6 1))
  for size in [3, 1] do
    let bias ← mustFinish (Constant.ofValues (← floats [size]) (repeated size 1))
    let verdict ← f.support (affine false weights (some bias)) [← floats [1, 3]]
      [← floats [1, 2]]
    expect (isMalformed verdict)

def affineRejectsEmpty (f : Factory) : Check Unit := do
  let weights ← mustFinish (Constant.ofValues (← floats [0, 2]) #[])
  let verdict ← f.support (affine false weights none) [← floats [1, 0]] [← floats [1, 2]]
  expect (isMalformed verdict)

/-- A window whose end cannot be represented is malformed. -/
def sliceRejectsOverflow (f : Factory) : Check Unit := do
  let verdict ← f.support (.slice ⟨[2 ^ (64 : Nat) - 1], [2]⟩) [← floats [4]] [← floats [2]]
  expect (isMalformed verdict)

def perAxisSlice (f : Factory) : Check Unit := do
  let shape ← mustBe (Shape.ofDims [2, 3])
  let scales := (fractions 1 [1, 4]).toList
  let input ← mustBe (TensorInfo.perAxis shape .qsymmS8 scales 0)
  let request : Request :=
    { layer := "slice", kind := .slice ⟨[0, 1], [2, 2]⟩,
      signature := { inputs := [input], outputs := [← floats [2, 2]] } }
  let (verdict, request) ← request.validateWith f
  expect verdict.isSupported
  let memory ← BoundMemory.allocate request.signature
  let source ← Action.orCrash (Crash.nth memory.inputs 0)
  let store ← Action.store
  Action.setStore (← mustFinish (store.write source (fractions 1 [1, -2, 3, 4, -8, 12])))
  let workload ← must (f.create request memory)
  let workload ← mustBe workload.configure
  must workload.run
  let target ← Action.orCrash (Crash.nth memory.outputs 0)
  let output ← mustFinish ((← Action.store).read target)
  expect (sameValues output (fractions 1 [-2, 3, -8, 12]))

/-- Whether an error says that an input binding is used twice. -/
def isDuplicateInput (binding : Int) : NetworkError → Bool
  | .duplicateBinding .input found => found == binding
  | _ => false

/-- A graph in which two input layers have one binding does not load. -/
def duplicateBindings (f : Factory) : Check Unit := do
  let info ← floats [2]
  let g ← binaryGraph .addition info
  let (_, g) := numbered (g.addInput 1 "rhs_again" info)
  expectRefusal (isDuplicateInput 1) (LoadedNetwork.loadOn g [f] options)

inductive Case
  | multiplyByOnes
  | quantizedMultiply
  | createRequiresValidation
  | createRejectsMemory
  | affineMatches
  | sliceExtractsWindow
  | memoriesAreSeparate
  | callsFollowOrder
  | affineRejectsBias
  | affineRejectsEmpty
  | sliceRejectsOverflow
  | perAxisSlice
  | duplicateBindings
  deriving DecidableEq, Repr

def Case.check : Case → Factory → Check Unit
  | .multiplyByOnes => Conformance.multiplyByOnes
  | .quantizedMultiply => Conformance.quantizedMultiply
  | .createRequiresValidation => Conformance.createRequiresValidation
  | .createRejectsMemory => Conformance.createRejectsMemory
  | .affineMatches => Conformance.affineMatches
  | .sliceExtractsWindow => Conformance.sliceExtractsWindow
  | .memoriesAreSeparate => Conformance.memoriesAreSeparate
  | .callsFollowOrder => Conformance.callsFollowOrder
  | .affineRejectsBias => Conformance.affineRejectsBias
  | .affineRejectsEmpty => Conformance.affineRejectsEmpty
  | .sliceRejectsOverflow => Conformance.sliceRejectsOverflow
  | .perAxisSlice => Conformance.perAxisSlice
  | .duplicateBindings => Conformance.duplicateBindings

def Case.passes (c : Case) (f : Factory) (host : Host) : Bool :=
  match ((c.check f).run.run host).1 with
  | .ok () => true
  | .error _ => false

end LayerNet.Conformance
