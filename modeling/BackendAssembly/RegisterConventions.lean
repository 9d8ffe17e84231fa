import BackendAssembly.Target

namespace BackendAssembly

/-- How generated code uses the registers. Unless a maker says otherwise, a register is reserved if it may not be
handed out. -/
structure RegisterConventions where
  allocatable : List Register
  arguments : RegisterCategory → List Register
  returnRegister : RegisterCategory → Register
  frame : Register
  isReserved : Register → Bool := fun r => !allocatable.contains r

namespace RegisterConventions

def only (registers : List Register) : RegisterConventions where
  allocatable := registers
  arguments := fun _ => registers.take 1
  returnRegister := fun _ => .ra
  frame := .fp

end RegisterConventions

/-- The conventions on LoongArch64. Whether object pointers are compressed is said here once more, and it need not
agree with the target. -/
structure LoongArch64Registers where
  target : Target
  compressedOops : Bool
  deriving DecidableEq

namespace LoongArch64Registers

def threadRegister : Register := .s6

def heapBaseRegister : Register := .s5

def reserved : List Register :=
  [.zero, .ra, .tp, .sp, .r21, .fp, threadRegister]

def allocatable (r : LoongArch64Registers) : List Register :=
  ((Register.gprs.filter fun g => !reserved.contains g).filter fun g =>
    !(r.compressedOops && g == heapBaseRegister)) ++ Register.fprs

def toConventions (r : LoongArch64Registers) : RegisterConventions where
  allocatable := r.allocatable
  arguments
    | .gpr => (Register.gprs.drop 4).take 8
    | .fpr => Register.fprs.take 8
  returnRegister
    | .gpr => .a0
    | .fpr => .fa0
  frame := .sp

end LoongArch64Registers

end BackendAssembly
