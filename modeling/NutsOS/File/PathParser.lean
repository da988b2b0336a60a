import NutsOS.Kernel.State
import NutsOS.Stdutil.String

-- path_parser.c: from a path string to a list of its parts.
namespace NutsOS.Files
open Stdutil

def asChars : Obj → Option (List UInt8)
  | .chars bytes => some bytes
  | _ => none

def asPathRoot : Obj → Option PathRoot
  | .pathRoot root => some root
  | _ => none

def asPathPart : Obj → Option PathPart
  | .pathPart part => some part
  | _ => none

def slash : UInt8 := 0x2F
def colon : UInt8 := 0x3A

def pathparserIsPathValid (filename : List UInt8) : Bool :=
  3 ≤ strnlen filename nutsosMaxPath && isdigit (charOf filename) && memcmp filename.tail [colon,slash] 2 == 0

-- The drive number or an error, and where the path continues.
def pathparserExtractDriveFromPath (path : List UInt8) : Int × List UInt8 :=
  if pathparserIsPathValid path then (ctoi (charOf path),path.drop 3) else (-ebadpath,path)

def pathparserCreateRoot (driveNumber : Int) : KernelProg Nat := do
  let pathR ← kzalloc 8 (.pathRoot ⟨0,0⟩)
  let _ ← loadAs asPathRoot pathR
  store pathR (.pathRoot ⟨driveNumber,0⟩)
  return pathR

def isPartChar (c : UInt8) : Bool := c != slash && c != asciiTerm

-- The characters a loop stores one by one from the start of a buffer.
def storeChars (buf : Nat) (chars : List UInt8) : KernelProg Unit := do
  let bytes ← loadAs asChars buf
  if bytes.length < chars.length then Prog.fault (.outOfBounds bytes.length) else
  store buf (.chars (chars++bytes.drop chars.length))

def pathparserExtractNextPathPart (path : List UInt8) : KernelProg (Nat × List UInt8) := do
  let resultPathPart ← kzalloc nutsosMaxPath (.chars (List.replicate nutsosMaxPath 0))
  let part := path.takeWhile isPartChar
  Prog.when (part ≠ []) (storeChars resultPathPart part)
  let rest := path.dropWhile isPartChar
  let rest := if charOf rest = slash then rest.tail else rest
  if part = [] then
    kfree resultPathPart
    return (0,rest)
  return (resultPathPart,rest)

def pathparserParsePathPart (lastPart : Nat) (path : List UInt8) : KernelProg (Nat × List UInt8) := do
  let (pathPartStr,path) ← pathparserExtractNextPathPart path
  if pathPartStr = 0 then return (0,path)
  let part ← kzalloc 8 (.pathPart ⟨0,0⟩)
  let _ ← loadAs asPathPart part
  store part (.pathPart ⟨pathPartStr,0⟩)
  Prog.when (lastPart ≠ 0) do
    let last ← loadAs asPathPart lastPart
    store lastPart (.pathPart {last with next := part})
  return (part,path)

-- The parts behind the first; every part takes a character of the path.
def parseParts : Nat → Nat → List UInt8 → KernelProg Unit
  | 0,_,_ => Prog.fault .unbounded
  | fuel+1,part,path => do
    let (part,path) ← pathparserParsePathPart part path
    if part = 0 then return ()
    parseParts fuel part path

def pathparserParse (path : List UInt8) : KernelProg Nat := do
  if strlen path > nutsosMaxPath then return 0
  let (res,tmpPath) := pathparserExtractDriveFromPath path
  if res < 0 then return 0
  let pathRoot ← pathparserCreateRoot res
  if pathRoot = 0 then return pathRoot
  let (firstPart,tmpPath) ← pathparserParsePathPart 0 tmpPath
  if firstPart = 0 then return pathRoot
  let root ← loadAs asPathRoot pathRoot
  store pathRoot (.pathRoot {root with first := firstPart})
  parseParts (path.length+1) firstPart tmpPath
  return pathRoot

end NutsOS.Files
