import Mathlib.Init

-- Constants of config.h and the result codes of error.h.
namespace NutsOS

def nutsosHeapBlockSize : Nat := 4096

def nutsosProgramVirtualAddress : Nat := 0x00400000
def nutsosUserProgramStackSize : Nat := 1024*16
def nutsosProgramVirtualStackAddressStart : Nat := 0x003FF000
def nutsosProgramVirtualStackAddressEnd : Nat :=
  nutsosProgramVirtualStackAddressStart - nutsosUserProgramStackSize

def nutsosMaxPath : Nat := 256
def nutsosMaxFileDescriptors : Nat := 1024
def nutsosMaxProcesses : Nat := 1024

def eok : Int := 0
def eio : Int := 1
def einvarg : Int := 2
def enomem : Int := 3
def ebadpath : Int := 4
def einvalid : Int := 5
def ereadonly : Int := 6
def etaken : Int := 7

end NutsOS
