import Bedrock.Drivers.Storage

/-!
# The storage layer over a disk

The drive as the storage layer imagines it: a sequence of bytes cut into
physical sectors. A request for a sector is answered with a code; code 0
means that the bytes were moved, any other code that nothing was.

Over such a drive `read_sector` and `write_sector` are given by their effect:
512 bytes of the disk are delivered to the buffer, or replaced from it, the
scratch page is given back, and no other byte of memory changes but the
scratch page's own.
-/

namespace Bedrock

open Lib

/-- A drive with its answer to a request for each physical sector. -/
structure Disk where
  sectorSize : Nat
  answer : UInt32 → Int32
  content : Nat → UInt8

/-- The disk after `n` bytes at `off` were replaced. -/
def Disk.patch (d : Disk) (off n : Nat) (f : Nat → UInt8) : Disk :=
  { d with content := Lib.patch d.content off n f }

@[simp] theorem Disk.patch_content (d : Disk) (off n : Nat) (f : Nat → UInt8) :
    (d.patch off n f).content = Lib.patch d.content off n f := rfl

theorem Disk.patch_zero (d : Disk) (off : Nat) (f : Nat → UInt8) :
    d.patch off 0 f = d := by
  rw [Disk.patch, Lib.patch_zero]

/-- Two writes one behind the other are one write. -/
theorem Disk.patch_patch {d : Disk} {off n m : Nat} {f g : Nat → UInt8}
    (h : ∀ i < m, g i = f (n + i)) :
    (d.patch off n f).patch (off + n) m g = d.patch off (n + m) f := by
  rw [Disk.patch, Disk.patch_content, patch_congr h, Lib.patch_patch]
  rfl

/-- A zeroed disk of `sectors` physical sectors, which answers for each of them
and refuses the others. -/
def Disk.blank (rel sectors : Nat) : Disk where
  sectorSize := 512 * rel
  answer lba := if lba.toNat < sectors then 0 else 1
  content _ := 0

theorem Disk.blank_answer (rel sectors : Nat) (lba : UInt32) :
    (Disk.blank rel sectors).answer lba = 0 ↔ lba.toNat < sectors := by
  by_cases h : lba.toNat < sectors
  · simp [Disk.blank, h]
  · simp [Disk.blank, h]

/-- The driver's two entry points as such a drive sees them. -/
def Disk.ide : Ide Disk where
  readSectors _ numsects lba _ edi := do
    let s ← get
    let err := s.dev.answer lba
    if err = 0 then
      set { s with
        mem := s.mem.write edi (numsects.toNat * s.dev.sectorSize) fun i =>
          s.dev.content (lba.toNat * s.dev.sectorSize + i) }
    return err
  writeSectors _ numsects lba _ edi := do
    let s ← get
    let err := s.dev.answer lba
    if err = 0 then
      set { s with
        dev := s.dev.patch (lba.toNat * s.dev.sectorSize)
          (numsects.toNat * s.dev.sectorSize) fun i =>
            s.mem (edi + UInt32.ofNat i) }
    return err

theorem Disk.read_ok {drive : UInt8} {lba edi : UInt32} {k : Kernel Disk}
    (h : k.dev.answer lba = 0) :
    (Kern.ofMachine (Disk.ide.readSectors drive 1 lba 0 edi)).run k =
      .ok 0 { k with
        mem := k.mem.write edi k.dev.sectorSize fun i =>
          k.dev.content (lba.toNat * k.dev.sectorSize + i) } := by
  refine (Kern.ofMachine_ok (s := { k.toMachine with
    mem := k.mem.write edi k.dev.sectorSize fun i =>
      k.dev.content (lba.toNat * k.dev.sectorSize + i) }) ?_).trans rfl
  have hone : (1 : UInt8).toNat * k.dev.sectorSize = k.dev.sectorSize := Nat.one_mul _
  refine (Exec.bind_ok (EStateM.run_get k.toMachine)).trans ?_
  simp only [h, if_true, hone]
  rfl

theorem Disk.read_fail {drive : UInt8} {lba edi : UInt32} {k : Kernel Disk}
    (h : k.dev.answer lba ≠ 0) :
    (Kern.ofMachine (Disk.ide.readSectors drive 1 lba 0 edi)).run k =
      .ok (k.dev.answer lba) k := by
  refine (Kern.ofMachine_ok (s := k.toMachine) ?_).trans rfl
  refine (Exec.bind_ok (EStateM.run_get k.toMachine)).trans ?_
  simp only [if_neg h]
  rfl

theorem Disk.write_ok {drive : UInt8} {lba edi : UInt32} {k : Kernel Disk}
    (h : k.dev.answer lba = 0) :
    (Kern.ofMachine (Disk.ide.writeSectors drive 1 lba 0 edi)).run k =
      .ok 0 { k with
        dev := k.dev.patch (lba.toNat * k.dev.sectorSize) k.dev.sectorSize
          fun i => k.mem (edi + UInt32.ofNat i) } := by
  refine (Kern.ofMachine_ok (s := { k.toMachine with
    dev := k.dev.patch (lba.toNat * k.dev.sectorSize) k.dev.sectorSize
      fun i => k.mem (edi + UInt32.ofNat i) }) ?_).trans rfl
  have hone : (1 : UInt8).toNat * k.dev.sectorSize = k.dev.sectorSize := Nat.one_mul _
  refine (Exec.bind_ok (EStateM.run_get k.toMachine)).trans ?_
  simp only [h, if_true, hone]
  rfl

theorem Disk.write_fail {drive : UInt8} {lba edi : UInt32} {k : Kernel Disk}
    (h : k.dev.answer lba ≠ 0) :
    (Kern.ofMachine (Disk.ide.writeSectors drive 1 lba 0 edi)).run k =
      .ok (k.dev.answer lba) k := by
  refine (Kern.ofMachine_ok (s := k.toMachine) ?_).trans rfl
  refine (Exec.bind_ok (EStateM.run_get k.toMachine)).trans ?_
  simp only [if_neg h]
  rfl

/-- A request for the physical sector `lba` delivers it from `c`, and leaves the
drive as `d'`. -/
def Delivers {δ : Type} (ide : Ide δ) (d d' : δ) (lba : UInt32) (size : Nat)
    (c : Nat → UInt8) : Prop :=
  ∀ (drive : UInt8) (edi : UInt32) (k : Kernel δ), k.dev = d →
    (Kern.ofMachine (ide.readSectors drive 1 lba 0 edi)).run k =
      .ok 0 { k with
        mem := k.mem.write edi size fun i => c (lba.toNat * size + i)
        dev := d' }

theorem Disk.delivers {d : Disk} {lba : UInt32} (h : d.answer lba = 0) :
    Delivers Disk.ide d d lba d.sectorSize d.content := by
  rintro drive edi k rfl
  exact Disk.read_ok h

/-! ## One sector -/

/-- The disk holds `device`: sectors of the drive's own size. -/
structure Holds (device : DeviceInfo) (rel : Nat) (disk : Disk) : Prop where
  geometry : Geometry device rel
  sectorSize : disk.sectorSize = 512 * rel

variable {device : DeviceInfo} {rel : Nat} {sector : Int32} {buffer : UInt32}
  {k : Kernel Disk}

/-- The disk positions of a sector's bytes, by its place. -/
theorem place_content (hg : Geometry device rel) (h0 : 0 ≤ sector.toInt)
    (hlt : sector.toInt < 2 ^ 22) (i : Nat) :
    (placeOf rel sector).realSector.toNat * (512 * rel) +
        ((placeOf rel sector).offset.toNat + i) =
      512 * sector.toInt.toNat + i := by
  obtain ⟨hreal, hoff⟩ := placeOf_low hg.known h0 hlt
  have hdm := Nat.div_add_mod sector.toInt.toNat rel
  rw [hreal, hoff]
  rcases hg.known with rfl | rfl <;> omega

/-- A sector lies inside its physical sector, and that inside the page. -/
theorem place_fits (hg : Geometry device rel) (h0 : 0 ≤ sector.toInt)
    (hlt : sector.toInt < 2 ^ 22) :
    (placeOf rel sector).offset.toNat + 512 ≤ 512 * rel ∧ 512 * rel ≤ 0x1000 := by
  obtain ⟨-, hoff⟩ := placeOf_low hg.known h0 hlt
  rw [hoff]
  rcases hg.known with rfl | rfl <;> omega

/-- The part of a page that is the sector. -/
theorem sector_in_scratch {p : UInt32} (hg : Geometry device rel)
    (h0 : 0 ≤ sector.toInt) (hlt : sector.toInt < 2 ^ 22) {a : UInt32}
    (ha : Span (p + (placeOf rel sector).offset) 512 a) : Span p 0x1000 a := by
  obtain ⟨hin, hsize⟩ := place_fits hg h0 hlt
  rw [← UInt32.ofNat_toNat (x := (placeOf rel sector).offset)] at ha
  exact ha.sub (by omega) (by omega)

/-- The memory after a copy. -/
theorem memoryCopy_run {δ : Type} {k : Kernel δ} {source dest : UInt32}
    {nbytes : Int32} {n : Nat} (hn : nbytes.toInt.toNat = n)
    (hoff : ∀ a, Span source n a → ¬ Span dest n a) :
    (memoryCopy source dest nbytes).run k =
      .ok () { k with
        mem := k.mem.write dest n fun i => k.mem (source + UInt32.ofNat i) } := by
  have hlt := Int32.toInt_lt nbytes
  rw [memoryCopy, EStateM.run_modify, hn, memoryCopyLoop_eq (by omega) hoff]

section

variable [Layout]

/-- The scratch page of a request: the block the next `kmalloc(1)` returns. -/
def scratch (map : Vector UInt8 kMemoryMapEntries) : UInt32 :=
  blockAddr (firstFree map)

/-- The scratch page is taken, and given back by `kfree`. -/
theorem kmalloc_scratch {δ : Type} {k : Kernel δ}
    (hfree : 0 < freeCount k.kMemoryMap) :
    (kmalloc 1).run k =
      .ok (scratch k.kMemoryMap)
        { k with
          kMemoryMap := mapRange k.kMemoryMap (firstFree k.kMemoryMap) 1 1
          mem := k.mem.write (scratch k.kMemoryMap) 0x1000 fun _ => 0 } :=
  kmalloc_ok (n := 1) (by decide) hfree

theorem kfree_scratch {δ : Type} {k : Kernel δ}
    (map : Vector UInt8 kMemoryMapEntries) (hfree : 0 < freeCount map)
    (hmap : k.kMemoryMap = mapRange map (firstFree map) 1 1) :
    (kfree (scratch map) 1).run k = .ok () { k with kMemoryMap := map } := by
  have hlt := firstFree_lt hfree
  have hstart := blockAddr_div_self hlt
  rw [scratch, kfree_run (by rw [hstart]; exact hlt), hstart, hmap,
    show (1 : UInt32).toNat = 1 from rfl,
    mapRange_restore hlt (firstFree_free hlt)]

/-- The state with the physical sector `lba` in the scratch page. -/
def loaded (k : Kernel Disk) (lba : UInt32) : Kernel Disk :=
  { k with
    kMemoryMap := mapRange k.kMemoryMap (firstFree k.kMemoryMap) 1 1
    mem := (k.mem.write (scratch k.kMemoryMap) 0x1000 fun _ => 0).write
      (scratch k.kMemoryMap) k.dev.sectorSize fun i =>
        k.dev.content (lba.toNat * k.dev.sectorSize + i) }

theorem loaded_mem {lba : UInt32} :
    (loaded k lba).mem =
      (k.mem.write (scratch k.kMemoryMap) 0x1000 fun _ => 0).write
        (scratch k.kMemoryMap) k.dev.sectorSize fun i =>
          k.dev.content (lba.toNat * k.dev.sectorSize + i) := rfl

theorem loaded_off (hd : Holds device rel k.dev) {lba a : UInt32}
    (ha : ¬ Span (scratch k.kMemoryMap) 0x1000 a) :
    (loaded k lba).mem a = k.mem a := by
  have hsize : k.dev.sectorSize ≤ 0x1000 := by
    rw [hd.sectorSize]
    rcases hd.geometry.known with rfl | rfl <;> omega
  rw [loaded_mem, Mem.write_off fun h => ha (h.mono hsize), Mem.write_off ha]

theorem loaded_at {lba : UInt32} {i : Nat} (hi : i < k.dev.sectorSize)
    (hsize : k.dev.sectorSize ≤ 0x1000) :
    (loaded k lba).mem (scratch k.kMemoryMap + UInt32.ofNat i) =
      k.dev.content (lba.toNat * k.dev.sectorSize + i) := by
  rw [loaded_mem, Mem.write_at hi (by omega)]

/-- The common beginning of `read_sector` and `write_sector`: a page is taken
and the physical sector is read into it. -/
theorem load_run {β : Type} {f : UInt32 → Place → Int32 → Kern Disk β}
    (hd : Holds device rel k.dev) (hfree : 0 < freeCount k.kMemoryMap)
    (hans : k.dev.answer (placeOf rel sector).realSector = 0) :
    (do
      let readWriteBuffer ← kmalloc 1
      let place ← locate device sector
      let err ← Kern.ofMachine
        (Disk.ide.readSectors device.ataId.toUInt32.toUInt8 1 place.realSector 0
          readWriteBuffer)
      f readWriteBuffer place err : Kern Disk β).run k =
    (f (scratch k.kMemoryMap) (placeOf rel sector) 0).run
      (loaded k (placeOf rel sector).realSector) := by
  rw [Exec.bind_ok (kmalloc_scratch hfree), Exec.bind_ok (locate_run hd.geometry)]
  exact Exec.bind_ok (Disk.read_ok hans)

/-- A sector below `2 ^ 22` that is delivered comes to a buffer outside the
scratch page. -/
theorem readSector_delivers {δ : Type} {ide : Ide δ} {k : Kernel δ} {d' : δ}
    {c : Nat → UInt8} (sector : Int32) (hg : Geometry device rel)
    (hfree : 0 < freeCount k.kMemoryMap) (h0 : 0 ≤ sector.toInt)
    (hlt : sector.toInt < 2 ^ 22)
    (hdel : Delivers ide k.dev d' (placeOf rel sector).realSector (512 * rel) c)
    (hbuf : ∀ a, Span buffer 512 a → ¬ Span (scratch k.kMemoryMap) 0x1000 a) :
    ∃ mem', (readSector ide device sector buffer).run k =
        .ok 0 { k with mem := mem', dev := d' } ∧
      (∀ i < 512, mem' (buffer + UInt32.ofNat i) = c (512 * sector.toInt.toNat + i)) ∧
      SameOff (fun a => Span (scratch k.kMemoryMap) 0x1000 a ∨
        Span buffer 512 a) k.mem mem' := by
  obtain ⟨hin, hsize⟩ := place_fits hg h0 hlt
  obtain ⟨m₁, hm₁⟩ : ∃ m₁, m₁ = (k.mem.write (scratch k.kMemoryMap) 0x1000 fun _ => 0).write
      (scratch k.kMemoryMap) (512 * rel) fun i =>
        c ((placeOf rel sector).realSector.toNat * (512 * rel) + i) := ⟨_, rfl⟩
  refine ⟨m₁.write buffer 512 fun i =>
    m₁ (scratch k.kMemoryMap + (placeOf rel sector).offset + UInt32.ofNat i), ?_, ?_, ?_⟩
  · rw [readSector, Exec.bind_ok (kmalloc_scratch hfree), Exec.bind_ok (locate_run hg)]
    refine (Exec.bind_ok (hdel _ _ _ ?_)).trans ?_
    · rfl
    simp only [ne_eq, not_true_eq_false, if_false]
    rw [Exec.bind_ok (memoryCopy_run (n := 512) rfl fun a hs hb =>
      hbuf a hb (sector_in_scratch hg h0 hlt hs)), ← hm₁]
    refine (Exec.bind_ok (kfree_scratch k.kMemoryMap hfree ?_)).trans ?_
    · rfl
    · rfl
  · intro i hi
    rw [Mem.write_at hi (by omega), ← place_content hg h0 hlt i, hm₁, UInt32.add_assoc,
      ← UInt32.ofNat_toNat (x := (placeOf rel sector).offset), ← UInt32.ofNat_add,
      Mem.write_at (by omega) (by omega), UInt32.ofNat_toNat]
  · intro a ha
    rw [not_or] at ha
    rw [Mem.write_off ha.2, hm₁, Mem.write_off fun h => ha.1 (h.mono hsize),
      Mem.write_off ha.1]

/-- A sector below `2 ^ 22` of a drive that answers is delivered to a buffer
outside the scratch page. -/
theorem readSector_ok (sector : Int32) (hd : Holds device rel k.dev)
    (hfree : 0 < freeCount k.kMemoryMap) (h0 : 0 ≤ sector.toInt)
    (hlt : sector.toInt < 2 ^ 22)
    (hans : k.dev.answer (placeOf rel sector).realSector = 0)
    (hbuf : ∀ a, Span buffer 512 a → ¬ Span (scratch k.kMemoryMap) 0x1000 a) :
    ∃ mem', (readSector Disk.ide device sector buffer).run k =
        .ok 0 { k with mem := mem' } ∧
      (∀ i < 512, mem' (buffer + UInt32.ofNat i) =
        k.dev.content (512 * sector.toInt.toNat + i)) ∧
      SameOff (fun a => Span (scratch k.kMemoryMap) 0x1000 a ∨
        Span buffer 512 a) k.mem mem' :=
  readSector_delivers sector hd.geometry hfree h0 hlt
    (hd.sectorSize ▸ Disk.delivers hans) hbuf

/-- What `write_sector` has in the scratch page when it writes: the physical
sector with the sector's 512 bytes replaced. -/
theorem modified_sector (hd : Holds device rel k.dev) (h0 : 0 ≤ sector.toInt)
    (hlt : sector.toInt < 2 ^ 22) (f : Nat → UInt8) :
    k.dev.patch ((placeOf rel sector).realSector.toNat * k.dev.sectorSize)
        k.dev.sectorSize
        (fun i => ((loaded k (placeOf rel sector).realSector).mem.write
          (scratch k.kMemoryMap + (placeOf rel sector).offset) 512 f)
            (scratch k.kMemoryMap + UInt32.ofNat i)) =
      k.dev.patch (512 * sector.toInt.toNat) 512 f := by
  obtain ⟨hin, hsize⟩ := place_fits hd.geometry h0 hlt
  have hplace := place_content hd.geometry h0 hlt 0
  rw [← hd.sectorSize] at hin hsize hplace
  rw [Nat.add_zero, Nat.add_zero] at hplace
  rw [← hplace, Disk.patch, Disk.patch]
  congr 1
  apply patch_inner hin
  · intro j hj
    rw [UInt32.ofNat_add, UInt32.ofNat_toNat, ← UInt32.add_assoc]
    exact Mem.write_at hj (by omega)
  · intro j hj hout
    rw [Mem.write_off, loaded_at hj hsize]
    rw [Span, ← UInt32.ofNat_toNat (x := (placeOf rel sector).offset)]
    intro hspan
    have hone : Span (scratch k.kMemoryMap + UInt32.ofNat j) 1
        (scratch k.kMemoryMap + UInt32.ofNat j) := span_self (by omega)
    rcases hout with hlo | hhi
    · exact hone.disjoint_parts (by omega) (by omega) hspan
    · exact Span.disjoint_parts hspan hhi (by omega) hone

/-- A sector below `2 ^ 22` of a drive that answers is replaced from a buffer
outside the scratch page, and nothing else on the disk is. -/
theorem writeSector_ok (sector : Int32) (hd : Holds device rel k.dev)
    (hfree : 0 < freeCount k.kMemoryMap) (h0 : 0 ≤ sector.toInt)
    (hlt : sector.toInt < 2 ^ 22)
    (hans : k.dev.answer (placeOf rel sector).realSector = 0)
    (hbuf : ∀ a, Span buffer 512 a → ¬ Span (scratch k.kMemoryMap) 0x1000 a) :
    ∃ mem', (writeSector Disk.ide device sector buffer).run k =
        .ok 0 { k with
          mem := mem'
          dev := k.dev.patch (512 * sector.toInt.toNat) 512
            fun i => k.mem (buffer + UInt32.ofNat i) } ∧
      SameOff (Span (scratch k.kMemoryMap) 0x1000) k.mem mem' := by
  have hsrc : ∀ i < 512, (loaded k (placeOf rel sector).realSector).mem
      (buffer + UInt32.ofNat i) = k.mem (buffer + UInt32.ofNat i) :=
    fun i hi => loaded_off hd (hbuf _ (span_add hi (by omega)))
  refine ⟨(loaded k (placeOf rel sector).realSector).mem.write
    (scratch k.kMemoryMap + (placeOf rel sector).offset) 512
    fun i => k.mem (buffer + UInt32.ofNat i), ?_, ?_⟩
  · rw [writeSector, load_run hd hfree hans]
    simp only [ne_eq, not_true_eq_false, if_false]
    rw [Exec.bind_ok (memoryCopy_run (n := 512) rfl fun a hb hs =>
      hbuf a hb (sector_in_scratch hd.geometry h0 hlt hs)), Mem.write_congr hsrc]
    refine (Exec.bind_ok (Disk.write_ok ?_)).trans ?_
    · exact hans
    · simp only [not_true_eq_false, if_false]
      refine (Exec.bind_ok (kfree_scratch k.kMemoryMap hfree ?_)).trans ?_
      · rfl
      · rw [← modified_sector hd h0 hlt]
        rfl
  · intro a ha
    rw [Mem.write_off (mt (sector_in_scratch hd.geometry h0 hlt) ha), loaded_off hd ha]

end

end Bedrock
