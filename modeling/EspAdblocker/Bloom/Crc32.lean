import EspAdblocker.Lib.Crc

/-!
# `crc32_ieee`

The bit-at-a-time CRC-32 of `crc32.c`, with the mask the C code builds from the
low bit. It is the library's reflected register with generator `0xEDB88320`
(`crc32Ieee_eq`), so differences within 32 bits always change it
(`crc32Ieee_burst`).
-/

namespace EspAdblocker.Bloom

open EspAdblocker.Lib

/-- The generator of CRC-32, reflected. -/
def crc32Poly : BitVec 32 := 0xEDB88320#32

/-- The inner loop: `n` shifts, the mask being all ones when the low bit is set. -/
def crc32Bits : Nat → BitVec 32 → BitVec 32
  | 0, crc => crc
  | n + 1, crc =>
    let mask := -(crc &&& 1#32)
    crc32Bits n ((crc >>> 1) ^^^ (crc32Poly &&& mask))

/-- `crc32_ieee`. -/
def crc32Ieee (data : List Byte) : BitVec 32 :=
  ~~~ data.foldl (fun crc byte => crc32Bits 8 (crc ^^^ byte.setWidth 32)) 0xFFFFFFFF#32

/-- The mask selects the generator exactly when the low bit is set. -/
theorem mask_eq (crc : BitVec 32) :
    (crc >>> 1) ^^^ (crc32Poly &&& -(crc &&& 1#32)) = crcStep crc32Poly crc := by
  rw [crcStep, BitVec.and_one_eq_setWidth_ofBool_getLsbD]
  cases crc.getLsbD 0
  · simp
  · have ones : -(BitVec.setWidth 32 (BitVec.ofBool true)) = 0xFFFFFFFF#32 := by decide
    rw [ones]
    simp [crc32Poly]

theorem crc32Bits_eq (n : Nat) (crc : BitVec 32) : crc32Bits n crc = crcSteps crc32Poly n crc := by
  induction n generalizing crc with
  | zero => rfl
  | succ n ih => rw [crc32Bits, crcSteps, mask_eq, ih]

theorem crc32Ieee_eq (data : List Byte) : crc32Ieee data = ~~~ crcBytes crc32Poly 0xFFFFFFFF#32 data := by
  have step : (fun crc byte => crc32Bits 8 (crc ^^^ byte.setWidth 32)) = crcByte crc32Poly := by
    funext crc byte
    rw [crc32Bits_eq, crcByte]
  rw [crc32Ieee, step, crcBytes]

/-- Checksums agree exactly when the registers do. -/
theorem crc32Ieee_eq_iff {bs cs : List Byte} :
    crc32Ieee bs = crc32Ieee cs ↔ crcBytes crc32Poly 0xFFFFFFFF#32 bs = crcBytes crc32Poly 0xFFFFFFFF#32 cs := by
  rw [crc32Ieee_eq, crc32Ieee_eq, BitVec.not_inj]

/-- **Every burst of at most 32 bits is detected**: strings of one length that
differ, and only within 32 consecutive bits, have different checksums. -/
theorem crc32Ieee_burst {bs cs : List Byte} (len : bs.length = cs.length) (near : DiffersWithin 32 bs cs)
    (differ : bs ≠ cs) : crc32Ieee bs ≠ crc32Ieee cs := by
  intro same
  apply crcBytes_burst crc32Poly (by decide) (by decide) 0xFFFFFFFF#32 len near differ
  exact crc32Ieee_eq_iff.mp same

/-- A burst of 32 bits that starts in the middle of a byte. -/
theorem crc32Ieee_burst_unaligned :
    crc32Ieee [0x61#8, 0x64#8, 0x73#8, 0x2E#8, 0x6E#8] ≠ crc32Ieee [0x71#8, 0x9B#8, 0x8C#8, 0xD1#8, 0x61#8] := by
  apply crc32Ieee_burst
  · decide
  · apply differsWithin_of_bits 4 <;> decide
  · decide

end EspAdblocker.Bloom
