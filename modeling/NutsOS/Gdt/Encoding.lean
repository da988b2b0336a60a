import NutsOS.Disk.Stream

-- gdt.c: segment descriptors, and what the processor reads out of them.
namespace NutsOS.Gdts

def gdtFlags4kbBlocks : UInt32 := 0b1000
def gdtFlags32bitSegment : UInt32 := 0b0100
def gdtMaxLimitForByteMode : UInt32 := 0xFFFFF+1

structure Gdt where
  base : UInt32
  limit : UInt32
  type : UInt8

structure GdtRaw where
  limitLow16bits : UInt16
  baseLow16bits : UInt16
  baseMid8bits : UInt8
  access : UInt8
  limitHighAndFlags : UInt8
  baseHigh8bits : UInt8

def inPages (source : Gdt) : Bool := source.limit > gdtMaxLimitForByteMode

def encodedLimit (source : Gdt) : UInt32 := if inPages source then source.limit>>>12 else source.limit

def encodedFlags (source : Gdt) : UInt32 :=
  if inPages source then gdtFlags32bitSegment ||| gdtFlags4kbBlocks else gdtFlags32bitSegment

def encodeGdtEntry (source : Gdt) : Except Fault GdtRaw :=
  if inPages source ∧ (source.limit &&& 0xFFF) ≠ 0xFFF then .error .panic else
  .ok {
    limitLow16bits := (encodedLimit source &&& 0xFFFF).toUInt16
    limitHighAndFlags := (((encodedLimit source>>>16) &&& (0x0F : UInt32)) ||| ((encodedFlags source<<<4) &&& (0xF0 : UInt32))).toUInt8
    baseLow16bits := (source.base &&& 0xFFFF).toUInt16
    baseMid8bits := ((source.base>>>16) &&& 0xFF).toUInt8
    baseHigh8bits := ((source.base>>>24) &&& 0xFF).toUInt8
    access := source.type
  }

def getRawGdtStruct : List Gdt → Except Fault (List GdtRaw)
  | [] => .ok []
  | gdt::rest => do return (← encodeGdtEntry gdt)::(← getRawGdtStruct rest)

-- The fields as the processor puts them together.
namespace GdtRaw

def base (raw : GdtRaw) : Nat := raw.baseLow16bits.toNat+65536*raw.baseMid8bits.toNat+16777216*raw.baseHigh8bits.toNat

def granularity (raw : GdtRaw) : Bool := raw.limitHighAndFlags.toNat/128%2 = 1

def limitField (raw : GdtRaw) : Nat := raw.limitLow16bits.toNat+65536*(raw.limitHighAndFlags.toNat%16)

def limit (raw : GdtRaw) : Nat := if raw.granularity then raw.limitField*4096+4095 else raw.limitField

end GdtRaw

structure Decodes (raw : GdtRaw) (source : Gdt) : Prop where
  base : raw.base = source.base.toNat
  limit : raw.limit = source.limit.toNat
  access : raw.access = source.type

theorem low_byte (x : Nat) : x &&& 255 = x%256 := Nat.and_two_pow_sub_one_eq_mod x 8
theorem low_nibble (x : Nat) : x &&& 15 = x%16 := Nat.and_two_pow_sub_one_eq_mod x 4
theorem low_page (x : Nat) : x &&& 4095 = x%4096 := Nat.and_two_pow_sub_one_eq_mod x 12
theorem low_half (x : Nat) : x &&& 65535 = x%65536 := Nat.and_two_pow_sub_one_eq_mod x 16

theorem half_of_word (x : UInt32) : (x &&& 0xFFFF).toUInt16.toNat = x.toNat%65536 := by
  simp [low_half]

theorem byte_of_word (x : UInt32) (n : UInt32) : ((x>>>n) &&& 0xFF).toUInt8.toNat = (x>>>n).toNat%256 := by
  simp [low_byte]

theorem flags_byte (x : UInt32) (flags : Nat) (small : 16*flags < 256) (word : UInt32) (same : word.toNat = 16*flags) :
    ((x &&& 0x0F) ||| word).toUInt8.toNat = 16*flags+x.toNat%16 := by
  have low : x.toNat%16 < 2^4 := Nat.mod_lt _ (by decide)
  have disjoint : x.toNat%16 ||| 16*flags = 16*flags+x.toNat%16 := by
    rw [Nat.lor_comm]
    exact (Nat.two_pow_add_eq_or_of_lt low flags).symm
  simp only [UInt32.toNat_toUInt8,UInt32.toNat_or,UInt32.toNat_and,same]
  simp only [UInt32.reduceToNat,low_nibble,disjoint]
  omega

theorem encode_ok (ran : encodeGdtEntry source = .ok raw) :
    ¬ (inPages source = true ∧ (source.limit &&& 0xFFF) ≠ 0xFFF) := by
  intro refused
  unfold encodeGdtEntry at ran
  rw [if_pos refused] at ran
  cases ran

theorem encoded_base (ran : encodeGdtEntry source = .ok raw) : raw.base = source.base.toNat := by
  have accepted := encode_ok ran
  unfold encodeGdtEntry at ran
  rw [if_neg accepted] at ran
  cases ran
  have bound := source.base.toNat_lt
  simp only [GdtRaw.base,half_of_word,byte_of_word]
  simp [Nat.shiftRight_eq_div_pow]
  omega

theorem inPages_iff (source : Gdt) : inPages source = true ↔ 1048576 < source.limit.toNat := by
  simp [inPages,gdtMaxLimitForByteMode,UInt32.lt_iff_toNat_lt]

theorem encoded_field (ran : encodeGdtEntry source = .ok raw) :
    raw.limitField = (encodedLimit source).toNat%1048576 ∧ raw.granularity = inPages source := by
  have accepted := encode_ok ran
  unfold encodeGdtEntry at ran
  rw [if_neg accepted] at ran
  cases ran
  have shifted : (encodedLimit source>>>16).toNat = (encodedLimit source).toNat/65536 := by
    simp [Nat.shiftRight_eq_div_pow]
  have low := half_of_word (encodedLimit source)
  cases wide : inPages source with
  | true =>
    have flags : (encodedFlags source<<<4) &&& (0xF0 : UInt32) = 0xC0 := by
      simp only [encodedFlags,wide,if_true]
      rfl
    have byte := flags_byte (encodedLimit source>>>16) 12 (by decide) 0xC0 rfl
    rw [← flags,shifted] at byte
    simp only [GdtRaw.limitField,GdtRaw.granularity,low,byte,decide_eq_true_eq]
    omega
  | false =>
    have flags : (encodedFlags source<<<4) &&& (0xF0 : UInt32) = 0x40 := by
      simp only [encodedFlags,wide]
      rfl
    have byte := flags_byte (encodedLimit source>>>16) 4 (by decide) 0x40 rfl
    rw [← flags,shifted] at byte
    simp only [GdtRaw.limitField,GdtRaw.granularity,low,byte,decide_eq_false_iff_not]
    omega

-- The one limit that is neither in bytes nor in pages is 2^20.
theorem encoded_limit (ran : encodeGdtEntry source = .ok raw) :
    raw.limit = if source.limit.toNat = 1048576 then 0 else source.limit.toNat := by
  obtain ⟨field,granularity⟩ := encoded_field ran
  have accepted := encode_ok ran
  have bound := source.limit.toNat_lt
  unfold GdtRaw.limit
  rw [field,granularity]
  cases wide : inPages source with
  | true =>
    have large := (inPages_iff source).mp wide
    have mask : source.limit.toNat%4096 = 4095 := by
      have ones : (source.limit &&& 0xFFF) = 0xFFF := Decidable.not_not.mp (fun other => accepted ⟨wide,other⟩)
      have bits := congrArg UInt32.toNat ones
      simp only [UInt32.toNat_and,UInt32.reduceToNat,low_page] at bits
      exact bits
    have pages : (encodedLimit source).toNat = source.limit.toNat/4096 := by
      simp [encodedLimit,wide,Nat.shiftRight_eq_div_pow]
    rw [if_pos rfl,pages,if_neg (Nat.ne_of_gt large)]
    omega
  | false =>
    have small : ¬ 1048576 < source.limit.toNat := fun large => by
      rw [(inPages_iff source).mpr large] at wide
      cases wide
    have bytes : (encodedLimit source).toNat = source.limit.toNat := by
      simp [encodedLimit,wide]
    rw [if_neg (by decide),bytes]
    split <;> omega

theorem encoded_access (ran : encodeGdtEntry source = .ok raw) : raw.access = source.type := by
  unfold encodeGdtEntry at ran
  rw [if_neg (encode_ok ran)] at ran
  cases ran
  rfl

theorem encode_decodes (ran : encodeGdtEntry source = .ok raw) : Decodes raw source ↔ source.limit.toNat ≠ 1048576 := by
  have limit := encoded_limit ran
  constructor
  · intro decoded same
    rw [if_pos same,decoded.limit,same] at limit
    cases limit
  · intro other
    rw [if_neg other] at limit
    exact ⟨encoded_base ran,limit,encoded_access ran⟩

theorem megabyte_decodes : ∃ raw, encodeGdtEntry ⟨0x100000,0xFFFFF,0x9A⟩ = .ok raw ∧ Decodes raw ⟨0x100000,0xFFFFF,0x9A⟩ :=
  ⟨_,rfl,(encode_decodes rfl).mpr (by decide)⟩

theorem boundary_limit_lost : ∃ raw, encodeGdtEntry ⟨0,0x100000,0x9A⟩ = .ok raw ∧ raw.limit = 0 ∧ ¬ Decodes raw ⟨0,0x100000,0x9A⟩ :=
  ⟨_,rfl,by decide,fun decoded => absurd decoded.limit (by decide)⟩

end NutsOS.Gdts
