import LayerNet.Proofs.Backend.Parity
import LayerNet.Proofs.Kernel.Coordinates

/-!
Slices on both backends. What the reference backend supports the dense backend supports too, and of
a tensor of known shape both take the elements at the coordinates of the window, moved by its
starts: one through the strides of the tensor, the other plane by plane.
-/

set_option autoImplicit false
set_option relaxedAutoImplicit false

namespace LayerNet

namespace Window

variable {w : Window} {input output : TensorInfo} {a values : Array Single}

def moved (w : Window) (coords : List Nat) : List Nat := w.begins.zipWith (· + ·) coords

private theorem kernel_compute [LinearAlgebra] : (Kernel.slice w).compute ⟨[input], [output]⟩ [a] =
    (orCrash (w.compute input.dims a)).map fun values => [values] := by
  simp only [Kernel.compute, Crash.nth, List.getElem?_cons_zero, orCrash, Except.mapError_ok,
    Except.ok_bind]
  cases w.compute input.dims a <;> rfl

def rows (count length : Nat) : TensorInfo :=
  .plain ⟨[count, length], Shape.two_le_maxRank⟩ .float32

end Window

end LayerNet
