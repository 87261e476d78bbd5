import Mathlib.Logic.Function.Basic

/-!
# Payloads in shared memory
-/

namespace Kcf.Ipc

/-- The bytes of one `T`. -/
abbrev Payload (size : Nat) := Fin size → UInt8

end Kcf.Ipc
