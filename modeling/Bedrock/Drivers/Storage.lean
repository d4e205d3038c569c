import Mathlib.Algebra.Group.Int.Defs
import Bedrock.Kernel.Kmalloc

/-!
# `drivers/storage.c`

Every device is read and written in sectors of 512 bytes, whatever the sector
size of the drive is. One such sector is carved out of the physical sector
that holds it, through a scratch page: read the physical sector, copy 512
bytes out of it or into it, and for a write send the whole of it back.

The two functions of the IDE driver that this layer calls are a parameter,
`Ide`. They see memory and the hardware, not the page allocator.
-/

namespace Bedrock

open Lib

variable {δ : Type}

/-- The interface of the IDE driver: `ide_read_sectors` and
`ide_write_sectors`, called as `(drive, numsects, lba, es, edi)`. -/
structure Ide (δ : Type) where
  readSectors : UInt8 → UInt8 → UInt32 → UInt16 → UInt32 →
    Exec Halt (Machine δ) Int32
  writeSectors : UInt8 → UInt8 → UInt32 → UInt16 → UInt32 →
    Exec Halt (Machine δ) Int32

/-- Driver code called from the kernel. -/
def Kern.ofMachine {α : Type} (x : Exec Halt (Machine δ) α) : Kern δ α := fun k =>
  match x.run k.toMachine with
  | .ok a s => .ok a { k with toMachine := s }
  | .error e s => .error e { k with toMachine := s }

theorem Kern.ofMachine_ok {α : Type} {x : Exec Halt (Machine δ) α} {a : α}
    {k : Kernel δ} {s : Machine δ} (h : x.run k.toMachine = .ok a s) :
    (Kern.ofMachine x).run k = .ok a { k with toMachine := s } := by
  rw [EStateM.run, Kern.ofMachine, h]

theorem Kern.ofMachine_error {α : Type} {x : Exec Halt (Machine δ) α}
    {e : Halt} {k : Kernel δ} {s : Machine δ}
    (h : x.run k.toMachine = .error e s) :
    (Kern.ofMachine x).run k = .error e { k with toMachine := s } := by
  rw [EStateM.run, Kern.ofMachine, h]

theorem Kern.ofMachine_inv {α : Type} {x : Exec Halt (Machine δ) α} {a : α}
    {k k' : Kernel δ} (h : (Kern.ofMachine x).run k = .ok a k') :
    ∃ s, x.run k.toMachine = .ok a s ∧ k' = { k with toMachine := s } := by
  cases hrun : x.run k.toMachine with
  | ok b s =>
      rw [Kern.ofMachine_ok hrun] at h
      cases h
      exact ⟨s, rfl, rfl⟩
  | error e s =>
      rw [Kern.ofMachine_error hrun] at h
      cases h

/-- `struct device_info` -/
structure DeviceInfo where
  vdID : Int32
  type : Int32
  ataId : Int32
  sectorSize : Int32

/-- Signed division, with the processor's two divide errors. -/
def idiv (a b : Int32) : Kern δ Int32 :=
  if b = 0 ∨ (a = Int32.minValue ∧ b = -1) then throw .divideError
  else pure (a / b)

/-- Where a sector lies: its physical sector and the byte offset in it. -/
structure Place where
  realSector : UInt32
  offset : UInt32

/-- The computation `read_sector` and `write_sector` begin with. -/
def locate (device : DeviceInfo) (sector : Int32) : Kern δ Place := do
  let realSector := (← idiv (sector * 512) device.sectorSize).toUInt32
  let sectorSizeRel := (← idiv device.sectorSize 512).toUInt32
  pure ⟨realSector, (sector.toUInt32 - realSector * sectorSizeRel) * 512⟩

section

variable [Layout] (ide : Ide δ)

def readSector (device : DeviceInfo) (sector : Int32) (buffer : UInt32) :
    Kern δ Int32 := do
  let readWriteBuffer ← kmalloc 1
  let place ← locate device sector
  let err ← Kern.ofMachine
    (ide.readSectors device.ataId.toUInt32.toUInt8 1 place.realSector 0
      readWriteBuffer)
  if err ≠ 0 then
    return 1
  memoryCopy (readWriteBuffer + place.offset) buffer 512
  kfree readWriteBuffer 1
  return 0

def writeSector (device : DeviceInfo) (sector : Int32) (buffer : UInt32) :
    Kern δ Int32 := do
  let readWriteBuffer ← kmalloc 1
  let place ← locate device sector
  let err ← Kern.ofMachine
    (ide.readSectors device.ataId.toUInt32.toUInt8 1 place.realSector 0
      readWriteBuffer)
  if err ≠ 0 then
    kprint "0. err\n"
    return 1
  memoryCopy buffer (readWriteBuffer + place.offset) 512
  let err ← Kern.ofMachine
    (ide.writeSectors device.ataId.toUInt32.toUInt8 1 place.realSector 0
      readWriteBuffer)
  if err ≠ 0 then
    return 1
  kfree readWriteBuffer 1
  return 0

/-- The loop of `read_sectors` and `write_sectors`: `n` rounds from round `c`
on, each for the sector and the 512 bytes of the buffer that are its turn. -/
def sectorsLoop (access : Int32 → UInt32 → Kern δ Int32) (sector : Int32)
    (buffer : UInt32) : (n c : Nat) → Kern δ Int32
  | 0, _ => return 0
  | n + 1, c => do
      let err ← access (sector + Int32.ofNat c)
        (buffer + (Int32.ofNat c * 512).toUInt32)
      if err ≠ 0 then
        return 1
      sectorsLoop access sector buffer n (c + 1)

def readSectors (device : DeviceInfo) (sector count : Int32)
    (buffer : UInt32) : Kern δ Int32 :=
  sectorsLoop (readSector ide device) sector buffer count.toInt.toNat 0

def writeSectors (device : DeviceInfo) (sector count : Int32)
    (buffer : UInt32) : Kern δ Int32 :=
  sectorsLoop (writeSector ide device) sector buffer count.toInt.toNat 0

end

/-! ## The address of a sector -/

theorem toNat_toUInt32 (x : Int32) :
    (x.toUInt32.toNat : Int) = x.toInt % 2 ^ 32 := by
  have hx : x.toInt = (x.toUInt32.toNat : Int).bmod (2 ^ 32) :=
    BitVec.toInt_eq_toNat_bmod x.toBitVec
  have hlt := x.toUInt32.toNat_lt
  rw [hx, Int.bmod_def]
  omega

theorem toInt_toInt32 {x : UInt32} (h : x.toNat < 2 ^ 31) :
    x.toInt32.toInt = x.toNat := by
  have hx : x.toInt32.toInt = (x.toNat : Int).bmod (2 ^ 32) :=
    BitVec.toInt_eq_toNat_bmod x.toBitVec
  rw [hx, Int.bmod_eq_of_le (by omega) (by omega)]

/-- The geometries the driver knows: a physical sector is one or four sectors
of 512 bytes. -/
structure Geometry (device : DeviceInfo) (rel : Nat) : Prop where
  known : rel = 1 ∨ rel = 4
  sectorSize : device.sectorSize = Int32.ofNat (512 * rel)

theorem idiv_run {a b : Int32} {k : Kernel δ} (h0 : b ≠ 0) (h1 : b ≠ -1) :
    (idiv a b).run k = .ok (a / b) k := by
  rw [idiv, if_neg (by tauto), EStateM.run_pure]

/-- The place the code computes, for the geometries it knows. -/
def placeOf (rel : Nat) (sector : Int32) : Place :=
  let realSector := (sector * 512 / Int32.ofNat (512 * rel)).toUInt32
  ⟨realSector, (sector.toUInt32 - realSector * UInt32.ofNat rel) * 512⟩

theorem locate_run {device : DeviceInfo} {rel : Nat} {sector : Int32}
    {k : Kernel δ} (hg : Geometry device rel) :
    (locate device sector).run k = .ok (placeOf rel sector) k := by
  obtain ⟨hrel, hsize⟩ := hg
  have h0 : device.sectorSize ≠ 0 := by rw [hsize]; rcases hrel with rfl | rfl <;> decide
  have h1 : device.sectorSize ≠ -1 := by rw [hsize]; rcases hrel with rfl | rfl <;> decide
  have hr : (device.sectorSize / 512).toUInt32 = UInt32.ofNat rel := by
    rw [hsize]; rcases hrel with rfl | rfl <;> decide
  rw [locate, Exec.bind_ok (idiv_run h0 h1),
    Exec.bind_ok (idiv_run (by decide) (by decide)), EStateM.run_pure, hr, hsize]
  rfl

/-- The quotient behind the physical sector: the product wraps around as a
signed number, and the division cuts towards zero. -/
theorem toInt_quotient {rel : Nat} (hrel : rel = 1 ∨ rel = 4) (sector : Int32) :
    (sector * 512 / Int32.ofNat (512 * rel)).toInt =
      ((sector.toInt * 512).bmod (2 ^ 32)).tdiv (512 * rel) := by
  have hne : Int32.ofNat (512 * rel) ≠ -1 := by
    rcases hrel with rfl | rfl <;> decide
  have hval : (Int32.ofNat (512 * rel)).toInt = 512 * rel := by
    rcases hrel with rfl | rfl <;> rfl
  rw [Int32.toInt_div_of_ne_right _ _ hne, Int32.toInt_mul, hval]
  rfl

/-- Below sector `2 ^ 22` the product does not wrap and the place is right. -/
theorem placeOf_low {rel : Nat} (hrel : rel = 1 ∨ rel = 4) {sector : Int32}
    (h0 : 0 ≤ sector.toInt) (hlt : sector.toInt < 2 ^ 22) :
    (placeOf rel sector).realSector.toNat = sector.toInt.toNat / rel ∧
      (placeOf rel sector).offset.toNat = sector.toInt.toNat % rel * 512 := by
  have hq := toInt_quotient hrel sector
  have hreal := toNat_toUInt32 (sector * 512 / Int32.ofNat (512 * rel))
  have hsec := toNat_toUInt32 sector
  rw [Int.bmod_eq_of_le (by omega) (by omega),
    Int.tdiv_eq_ediv_of_nonneg (by omega)] at hq
  simp only [placeOf, UInt32.toNat_mul, UInt32.toNat_sub, UInt32.toNat_ofNat',
    show (512 : UInt32).toNat = 512 from rfl]
  rcases hrel with rfl | rfl <;> constructor <;> omega

/-- The physical sector that the drive is asked for there. -/
theorem realSector_low {rel : Nat} (hrel : rel = 1 ∨ rel = 4) {sector : Int32}
    (h0 : 0 ≤ sector.toInt) (hlt : sector.toInt < 2 ^ 22) :
    (placeOf rel sector).realSector = UInt32.ofNat (sector.toInt.toNat / rel) := by
  rw [← (placeOf_low hrel h0 hlt).1, UInt32.ofNat_toNat]

/-- Whatever the sector, the product wraps into `[-2 ^ 31, 2 ^ 31)`: the
physical sector is one of the lowest or one of the highest. -/
theorem placeOf_range {rel : Nat} (hrel : rel = 1 ∨ rel = 4) (sector : Int32) :
    (placeOf rel sector).realSector.toNat < 2 ^ 22 / rel ∨
      2 ^ 32 - 2 ^ 22 / rel ≤ (placeOf rel sector).realSector.toNat := by
  have hq := toInt_quotient hrel sector
  have hreal := toNat_toUInt32 (sector * 512 / Int32.ofNat (512 * rel))
  have hlo := Int.le_bmod (x := sector.toInt * 512) (m := 2 ^ 32) (by omega)
  have hhi := Int.bmod_lt (x := sector.toInt * 512) (m := 2 ^ 32) (by omega)
  have hdvd : (512 : Int) ∣ (sector.toInt * 512).bmod (2 ^ 32) := by
    rw [Int.bmod_def]
    split <;> omega
  simp only [placeOf]
  generalize (sector.toInt * 512).bmod (2 ^ 32) = v at hq hlo hhi hdvd
  have hsign : ((512 : Int) * rel).sign = 1 := by
    rcases hrel with rfl | rfl <;> rfl
  rw [Int.tdiv_eq_ediv, hsign] at hq
  rcases hrel with rfl | rfl <;> (split at hq <;> omega)

/-- Only the byte address of a sector matters, on every drive. -/
theorem locate_congr (device : DeviceInfo) {sector sector' : Int32}
    (h : sector' * 512 = sector * 512) :
    (locate device sector' : Kern δ Place) = locate device sector := by
  have hsub : ∀ r : UInt32, (sector'.toUInt32 - r) * 512 = (sector.toUInt32 - r) * 512 := by
    intro r
    have hbytes : sector'.toUInt32 * 512 = sector.toUInt32 * 512 := by
      have := congrArg Int32.toUInt32 h
      rwa [Int32.toUInt32_mul, Int32.toUInt32_mul] at this
    rw [UInt32.sub_mul, UInt32.sub_mul, hbytes]
  simp only [locate, h, hsub]

theorem readSector_congr [Layout] (ide : Ide δ) (device : DeviceInfo)
    {sector sector' : Int32} (h : sector' * 512 = sector * 512) (buffer : UInt32) :
    readSector ide device sector' buffer = readSector ide device sector buffer := by
  simp only [readSector, locate_congr device h]

end Bedrock
