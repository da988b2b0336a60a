import NutsOS.Kernel.State

-- process.c: which pointers a process may hand to the kernel.
namespace NutsOS.Processes
open Word32

def asProcess : Obj → Option NutsOS.Process
  | .process process => some process
  | _ => none

theorem asProcess_eq (obj : Obj) (process : NutsOS.Process) (typed : asProcess obj = some process) : obj = .process process := by
  cases obj <;> cases typed
  rfl

-- The two ends are void pointers, so their sums wrap.
def processValidatePointer (process : NutsOS.Process) (ptr : Nat) : Bool :=
  (process.ptrVirt ≤ ptr && ptr < toUint32 ((process.ptrVirt+process.size : Nat) : Int)) ||
    (process.stackVirt ≤ ptr && ptr < toUint32 ((process.stackVirt+process.stackSize : Nat) : Int))

end NutsOS.Processes
