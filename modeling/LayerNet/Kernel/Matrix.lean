import LayerNet.Kernel.Affine

/-!
The dense kernel of fully connected layers as a product of matrices. Matrices are views of vectors,
and the product is left open: it writes a matrix into a vector, as a linear algebra library does.
-/

set_option autoImplicit false
set_option relaxedAutoImplicit false

namespace LayerNet

/-- A matrix in a vector: the numbers of its rows and columns, and the distances of neighbours. -/
structure MatrixView where
  rows : Nat
  columns : Nat
  rowStep : Nat
  columnStep : Nat
  deriving DecidableEq, Repr

namespace MatrixView

def place (v : MatrixView) (row column : Nat) : Nat := row * v.rowStep + column * v.columnStep

def transpose (v : MatrixView) : MatrixView := ⟨v.columns, v.rows, v.columnStep, v.rowStep⟩

def rowMajor (rows columns : Nat) : MatrixView := ⟨rows, columns, columns, 1⟩

def columnMajor (rows columns : Nat) : MatrixView := ⟨rows, columns, 1, rows⟩

def ofRows {α : Type} (items : Array α) (rows columns : Nat) : Except Crash MatrixView :=
  if items.size = rows * columns then .ok (rowMajor rows columns) else .error .outOfRange

def ofColumns {α : Type} (items : Array α) (rows columns : Nat) : Except Crash MatrixView :=
  if items.size = rows * columns then .ok (columnMajor rows columns) else .error .outOfRange

end MatrixView

/-- A way to multiply matrices: from two vectors and the factors in them, and from a vector and the
place of the product in it, the vector with the product written there. -/
abbrev MatrixProduct (α : Type) :=
  MatrixView → Array α → MatrixView → Array α → MatrixView → Array α → Except Crash (Array α)

/-- The library behind the dense backend, as far as its kernels ask it. -/
class LinearAlgebra where
  multiply : MatrixProduct Single

def MatrixProduct.inOrder {α : Type} [Zero α] [Add α] [Mul α] : MatrixProduct α :=
  fun left a right b written items =>
    foldRange (fun items entry => do
      let row := entry / written.columns
      let column := entry % written.columns
      let sum ← foldRange (fun acc i => do
        let x ← Crash.at a (left.place row i)
        let y ← Crash.at b (right.place i column)
        return acc + x * y) left.columns 0 0
      Crash.set items (written.place row column) sum) (written.rows * written.columns) 0 items

@[reducible] def LinearAlgebra.inOrder : LinearAlgebra := ⟨.inOrder⟩

namespace AffineWeights

variable {α : Type} (w : AffineWeights α)

/-- The weights with a row for each feature read, whichever way they are stored. -/
def weightView : Except Crash MatrixView :=
  if w.transposed then return (← MatrixView.ofRows w.weights w.outputs w.inputs).transpose
  else MatrixView.ofRows w.weights w.inputs w.outputs

def addBias [Add α] (rows : Array α) : Array α :=
  match w.bias with
  | none => rows
  | some bias =>
    rows.mapIdx fun k value =>
      if k < rows.size / w.outputs * w.outputs then
        match bias[k % w.outputs]? with
        | some b => value + b
        | none => value
      else value

/-- The rows of features written, as columns of a product of transposed matrices, and the bias added
to each row. -/
def denseCompute [Zero α] [Add α] (multiply : MatrixProduct α) (input : Array α) (batch : Nat) :
    Except (Stop ExecutionFault) (Array α) := do
  w.checkRows input.size batch
  orCrash (Crash.reserve (batch * w.outputs))
  let zeros := Array.replicate (batch * w.outputs) 0
  if batch = 0 ∨ w.outputs = 0 then return zeros
  else
    let features ← orCrash (MatrixView.ofRows input batch w.inputs)
    let weights ← orCrash w.weightView
    let written ← orCrash (MatrixView.ofColumns zeros w.outputs batch)
    let products ← orCrash
      (multiply weights.transpose w.weights features.transpose input written zeros)
    return w.addBias products

end AffineWeights

end LayerNet
