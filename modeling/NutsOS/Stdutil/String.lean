import NutsOS.Lib.Prog
import NutsOS.Disk.Stream

-- string.c and memory.c. A string is the list of its characters; whatever
-- stands behind the list counts as its NUL.
namespace NutsOS.Stdutil

def asciiTerm : UInt8 := 0
def asciiHtab : UInt8 := 9
def asciiCr : UInt8 := 13
def asciiSpace : UInt8 := 32
def asciiZero : UInt8 := 48
def asciiNine : UInt8 := 57
def asciiA : UInt8 := 65
def asciiZ : UInt8 := 90

def charOf (s : List UInt8) : UInt8 := s.headD asciiTerm

-- A char is signed, but no bound below is above 127 and none below 0.
def isdigit (c : UInt8) : Bool := asciiZero ≤ c && c ≤ asciiNine

def isspace (c : UInt8) : Bool := c == asciiSpace || (asciiHtab ≤ c && c ≤ asciiCr)

def ctoi (c : UInt8) : Int := c.toInt8.toInt - asciiZero.toNat

def tolower (c : UInt8) : UInt8 := if asciiA ≤ c ∧ c ≤ asciiZ then c+32 else c

def strlen : List UInt8 → Nat
  | [] => 0
  | c::rest => if c = asciiTerm then 0 else strlen rest+1

def strnlen : List UInt8 → Nat → Nat
  | c::rest,max+1 => if c = asciiTerm then 0 else strnlen rest max+1
  | _,_ => 0

def memcmp : List UInt8 → List UInt8 → Nat → Int
  | _,_,0 => 0
  | t1,t2,count+1 =>
    if charOf t1 = charOf t2 then memcmp t1.tail t2.tail count else (charOf t2).toNat - (charOf t1).toNat

-- strncmp and istrncmp differ in what they do to a character first.
def compareChars (lower : UInt8 → UInt8) : List UInt8 → List UInt8 → Nat → Int
  | _,_,0 => 0
  | s1,s2,n+1 =>
    if charOf s1 ≠ asciiTerm ∧ lower (charOf s1) = lower (charOf s2) then compareChars lower s1.tail s2.tail n
    else (lower (charOf s1)).toNat - (lower (charOf s2)).toNat

def strncmp (s1 s2 : List UInt8) (n : Nat) : Int := compareChars id s1 s2 n
def istrncmp (s1 s2 : List UInt8) (n : Nat) : Int := compareChars tolower s1 s2 n

-- The bytes stored from `dest` on; size counts the characters after the first.
def strncpy : List UInt8 → Nat → List UInt8
  | src,0 => [charOf src]
  | src,size+1 => if charOf src = asciiTerm then [asciiTerm] else charOf src::strncpy src.tail size

-- strlen of a string in memory, whose characters `charAt` reads. A size_t
-- counts to 2^32; a scan that passes every address does not end.
def strlenLoop (charAt : Nat → Prog Fault σ UInt8) : Nat → Nat → Prog Fault σ Nat
  | 0,_ => Prog.fault .unbounded
  | fuel+1,len => do
    if (← charAt len) = asciiTerm then return len
    strlenLoop charAt fuel (len+1)

def strlenAt (charAt : Nat → Prog Fault σ UInt8) : Prog Fault σ Nat := strlenLoop charAt 4294967296 0

end NutsOS.Stdutil
