import Bedrock.Drivers.Disk

/-!
# Writing sectors and reading them back

`write_sectors` followed by `read_sectors` over a disk that answers every
request inside it. Below sector `2 ^ 22` a round of either loop handles the
512 bytes that are its turn, so a whole call is one block write or one block
read (`writeLoop_ok`, `readLoop_ok`), and the pair is a round trip.

From `2 ^ 22` on the product `sector * 512` does not fit an `int`. Whatever
sector is asked for, the physical sectors from `2 ^ 22 / rel` to
`2 ^ 32 - 2 ^ 22 / rel` are then out of reach (`untouched_writeSectors`), so a
request that includes one of them cannot have been carried out.
-/

namespace Bedrock

open Lib

/-- The disk holds `device`, has `sectors` physical sectors and answers for
each of them. -/
structure Serves (device : DeviceInfo) (rel sectors : Nat) (disk : Disk) : Prop
    extends Holds device rel disk where
  answers : ∀ lba : UInt32, disk.answer lba = 0 ↔ lba.toNat < sectors

/-! ## The rounds of the loop -/

theorem toInt_round {sector : Int32} {c : Nat} (h0 : 0 ≤ sector.toInt)
    (hlt : sector.toInt + c < 2 ^ 31) :
    (sector + Int32.ofNat c).toInt = sector.toInt + c := by
  rw [Int32.toInt_add, Int32.toInt_ofNat_of_lt (by omega),
    Int.bmod_eq_of_le (by omega) (by omega)]

theorem round_offset (c : Nat) :
    (Int32.ofNat c * 512).toUInt32 = UInt32.ofNat (512 * c) := by
  rw [Int32.toUInt32_mul, Int32.toUInt32_ofNat', UInt32.ofNat_mul, UInt32.mul_comm]
  rfl

/-- A sector inside the device lies in a physical sector inside the disk. -/
theorem Serves.answer {device : DeviceInfo} {rel sectors t : Nat} {disk : Disk}
    (hd : Serves device rel sectors disk) (ht : t < sectors * rel) :
    disk.answer (UInt32.ofNat (t / rel)) = 0 := by
  rw [hd.answers, UInt32.toNat_ofNat']
  exact Nat.lt_of_le_of_lt (Nat.mod_le _ _)
    (Nat.div_lt_of_lt_mul (by rw [Nat.mul_comm]; exact ht))

theorem place_answers {device : DeviceInfo} {rel sectors : Nat} {disk : Disk}
    {t : Int32} (hd : Serves device rel sectors disk) (h0 : 0 ≤ t.toInt)
    (hlt : t.toInt < 2 ^ 22) (hin : t.toInt.toNat < sectors * rel) :
    disk.answer (placeOf rel t).realSector = 0 := by
  rw [realSector_low hd.geometry.known h0 hlt]
  exact hd.answer hin

section

variable [Layout] {device : DeviceInfo} {rel sectors : Nat} {s n : Int32}
  {buffer : UInt32}

/-- `n` rounds of writing from round `c` on are one block write to the disk. -/
theorem writeLoop_ok {N n c : Nat} {k : Kernel Disk} (hcn : c + n = N)
    (hd : Serves device rel sectors k.dev) (hfree : 0 < freeCount k.kMemoryMap)
    (h0 : 0 ≤ s.toInt) (hlt : s.toInt + N ≤ 2 ^ 22)
    (hin : s.toInt.toNat + N ≤ sectors * rel)
    (hbuf : ∀ a, Span buffer (512 * N) a →
      ¬ Span (scratch k.kMemoryMap) 0x1000 a) :
    ∃ mem', (sectorsLoop (writeSector Disk.ide device) s buffer n c).run k =
        .ok 0 { k with
          mem := mem'
          dev := k.dev.patch (512 * (s.toInt.toNat + c)) (512 * n)
            fun i => k.mem (buffer + UInt32.ofNat (512 * c + i)) } ∧
      SameOff (Span (scratch k.kMemoryMap) 0x1000) k.mem mem' := by
  induction n generalizing c k with
  | zero =>
      refine ⟨k.mem, ?_, SameOff.refl _⟩
      rw [sectorsLoop, Nat.mul_zero, Disk.patch_zero]
      rfl
  | succ n ih =>
      have hround := toInt_round (c := c) h0 (by omega)
      have hturn : ∀ a, Span (buffer + UInt32.ofNat (512 * c)) 512 a →
          ¬ Span (scratch k.kMemoryMap) 0x1000 a :=
        fun a ha => hbuf a (ha.sub (by omega) (by omega))
      obtain ⟨m₁, hrun, hm₁⟩ := writeSector_ok (s + Int32.ofNat c)
        hd.toHolds hfree (by omega) (by omega)
        (place_answers hd (by omega) (by omega) (by omega)) hturn
      rw [hround] at hrun
      obtain ⟨m₂, hrest, hm₂⟩ := ih (c := c + 1) (k := { k with
          mem := m₁
          dev := k.dev.patch (512 * (s.toInt + c).toNat) 512
            fun i => k.mem (buffer + UInt32.ofNat (512 * c) + UInt32.ofNat i) })
        (by omega) ⟨⟨hd.geometry, hd.sectorSize⟩, hd.answers⟩ hfree hbuf
      refine ⟨m₂, ?_, hm₁.trans hm₂⟩
      rw [sectorsLoop, round_offset, Exec.bind_ok hrun]
      simp only [ne_eq, not_true_eq_false, if_false]
      rw [hrest]
      congr 3
      rw [show 512 * (s.toInt + c).toNat = 512 * (s.toInt.toNat + c) by omega,
        show 512 * (s.toInt.toNat + (c + 1)) = 512 * (s.toInt.toNat + c) + 512 by
          omega, show 512 * (n + 1) = 512 + 512 * n by omega]
      simp only [UInt32.add_assoc, ← UInt32.ofNat_add]
      apply Disk.patch_patch
      intro i hi
      rw [hm₁ _ (hbuf _ (span_add (by omega) (by omega)))]
      congr 3
      omega

/-- `n` rounds of reading from round `c` on are one block read, if the drive
answers for these sectors. -/
theorem readLoop_ok {N n c : Nat} {k : Kernel Disk} (hcn : c + n = N)
    (hd : Holds device rel k.dev) (hfree : 0 < freeCount k.kMemoryMap)
    (h0 : 0 ≤ s.toInt) (hlt : s.toInt + N ≤ 2 ^ 22)
    (hans : ∀ t, s.toInt.toNat ≤ t → t < s.toInt.toNat + N →
      k.dev.answer (UInt32.ofNat (t / rel)) = 0)
    (hbuf : ∀ a, Span buffer (512 * N) a →
      ¬ Span (scratch k.kMemoryMap) 0x1000 a) :
    ∃ mem', (sectorsLoop (readSector Disk.ide device) s buffer n c).run k =
        .ok 0 { k with mem := mem' } ∧
      (∀ i < 512 * n, mem' (buffer + UInt32.ofNat (512 * c + i)) =
        k.dev.content (512 * (s.toInt.toNat + c) + i)) ∧
      SameOff (fun a => Span (scratch k.kMemoryMap) 0x1000 a ∨
        Span (buffer + UInt32.ofNat (512 * c)) (512 * n) a) k.mem mem' := by
  induction n generalizing c k with
  | zero => exact ⟨k.mem, rfl, fun i hi => by omega, SameOff.refl _⟩
  | succ n ih =>
      have hround := toInt_round (c := c) h0 (by omega)
      have hturn : ∀ a, Span (buffer + UInt32.ofNat (512 * c)) 512 a →
          ¬ Span (scratch k.kMemoryMap) 0x1000 a :=
        fun a ha => hbuf a (ha.sub (by omega) (by omega))
      have hplace : k.dev.answer (placeOf rel (s + Int32.ofNat c)).realSector = 0 := by
        rw [realSector_low hd.geometry.known (by omega) (by omega)]
        exact hans _ (by omega) (by omega)
      obtain ⟨m₁, hrun, hm₁, hoff₁⟩ := readSector_ok
        (s + Int32.ofNat c) hd hfree (by omega) (by omega) hplace hturn
      obtain ⟨m₂, hrest, hm₂, hoff₂⟩ := ih (c := c + 1)
        (k := { k with mem := m₁ }) (by omega) hd hfree hans hbuf
      have hnext : ∀ a, Span (buffer + UInt32.ofNat (512 * (c + 1))) (512 * n) a →
          ¬ Span (buffer + UInt32.ofNat (512 * c)) 512 a :=
        fun a ha h => h.disjoint_parts (by omega) (by omega) ha
      refine ⟨m₂, ?_, ?_, ?_⟩
      · rw [sectorsLoop, round_offset, Exec.bind_ok hrun]
        simp only [ne_eq, not_true_eq_false, if_false]
        exact hrest
      · intro i hi
        by_cases hfirst : i < 512
        · -- a byte of this round: the later rounds leave it alone
          have hin₁ : Span (buffer + UInt32.ofNat (512 * c)) 512
              (buffer + UInt32.ofNat (512 * c) + UInt32.ofNat i) :=
            span_add hfirst (by omega)
          rw [UInt32.ofNat_add, ← UInt32.add_assoc, hoff₂ _ (by
            rintro (h | h)
            · exact hturn _ hin₁ h
            · exact hnext _ h hin₁)]
          refine (hm₁ i hfirst).trans (congrArg k.dev.content ?_)
          omega
        · have := hm₂ (i - 512) (by omega)
          rw [show 512 * (c + 1) + (i - 512) = 512 * c + i by omega] at this
          exact this.trans (congrArg k.dev.content (by omega))
      · refine hoff₁.mono ?_ |>.trans (hoff₂.mono ?_)
        · rintro a (h | h)
          · exact .inl h
          · exact .inr (h.mono (by omega))
        · rintro a (h | h)
          · exact .inl h
          · refine .inr ?_
            rw [show 512 * (c + 1) = 512 * c + 512 by omega, UInt32.ofNat_add,
              ← UInt32.add_assoc] at h
            exact h.sub (by omega) (by omega)

end

/-! ## Out of reach -/

/-- A step that leaves byte `b` of a disk with this sector size alone. -/
def Untouched (rel b : Nat) (k k' : Kernel Disk) : Prop :=
  k.dev.sectorSize = 512 * rel →
    k'.dev.sectorSize = 512 * rel ∧ k'.dev.content b = k.dev.content b

instance {rel b : Nat} : Std.Refl (Untouched rel b) := ⟨fun _ h => ⟨h, rfl⟩⟩

instance {rel b : Nat} : IsTrans (Kernel Disk) (Untouched rel b) :=
  ⟨fun _ _ _ h₁ h₂ h =>
    ⟨(h₂ (h₁ h).1).1, (h₂ (h₁ h).1).2.trans (h₁ h).2⟩⟩

theorem untouched_of_keepsDev {α : Type} {rel b : Nat} {x : Kern Disk α}
    (hx : KeepsDev x) : Exec.Keeps (Untouched rel b) x := by
  refine hx.mono fun k k' hdev h => ?_
  rw [Exec.Same] at hdev
  rw [hdev]
  exact ⟨h, rfl⟩

theorem keepsDev_ideRead {drive : UInt8} {lba edi : UInt32} :
    KeepsDev (Kern.ofMachine (Disk.ide.readSectors drive 1 lba 0 edi)) := by
  intro k
  by_cases h : k.dev.answer lba = 0
  · rw [Disk.read_ok h]
    rfl
  · rw [Disk.read_fail h]
    rfl

/-- A write to a physical sector leaves the bytes of the others alone. -/
theorem untouched_ideWrite {rel b : Nat} {drive : UInt8} {lba edi : UInt32}
    (hb : b / (512 * rel) ≠ lba.toNat) (hrel : 0 < rel) :
    Exec.Keeps (Untouched rel b)
      (Kern.ofMachine (Disk.ide.writeSectors drive 1 lba 0 edi)) := by
  intro k hsize
  by_cases h : k.dev.answer lba = 0
  · rw [Disk.write_ok h]
    refine ⟨hsize, ?_⟩
    simp only [Exec.final_ok, Disk.patch_content, hsize]
    apply patch_off
    rcases Nat.lt_or_gt_of_ne hb with hlo | hhi
    · exact .inl ((Nat.div_lt_iff_lt_mul (by omega)).mp hlo)
    · refine .inr ?_
      rw [← Nat.succ_mul]
      exact (Nat.le_div_iff_mul_le (by omega)).mp hhi
  · rw [Disk.write_fail h]
    exact ⟨hsize, rfl⟩

theorem untouched_sectorsLoop {rel b n c : Nat} {s : Int32} {buffer : UInt32}
    {access : Int32 → UInt32 → Kern Disk Int32}
    (h : ∀ sector buffer, Exec.Keeps (Untouched rel b) (access sector buffer)) :
    Exec.Keeps (Untouched rel b) (sectorsLoop access s buffer n c) := by
  induction n generalizing c with
  | zero => exact .pure 0
  | succ n ih => exact .bind (h _ _) fun err => .ite (.pure 1) ih

section

variable [Layout] {device : DeviceInfo} {rel sectors : Nat} {s n : Int32}
  {buffer : UInt32}

/-- The physical sectors no sector number leads to keep their bytes. -/
theorem untouched_writeSector {b : Nat} (hg : Geometry device rel)
    (hlo : 2 ^ 22 / rel ≤ b / (512 * rel))
    (hhi : b / (512 * rel) < 2 ^ 32 - 2 ^ 22 / rel) (sector : Int32) :
    Exec.Keeps (Untouched rel b) (writeSector Disk.ide device sector buffer) := by
  have hplace := placeOf_range hg.known sector
  have hrel : 0 < rel := by rcases hg.known with h | h <;> omega
  refine .bind (untouched_of_keepsDev (keepsDev_kmalloc 1)) fun p => ?_
  refine .bind_value (fun k => locate_run hg) ?_
  refine .bind (untouched_of_keepsDev keepsDev_ideRead) fun err => .ite ?_ ?_
  · exact .bind (untouched_of_keepsDev (keepsDev_kprint _)) fun _ => .pure 1
  · refine .bind (untouched_of_keepsDev (keepsDev_memoryCopy _ _ _)) fun _ => ?_
    refine .bind (untouched_ideWrite (by omega) hrel) fun err => .ite (.pure 1) ?_
    exact .bind (untouched_of_keepsDev (keepsDev_kfree p 1)) fun _ => .pure 0

theorem untouched_writeSectors {b : Nat} (hg : Geometry device rel)
    (hlo : 2 ^ 22 / rel ≤ b / (512 * rel))
    (hhi : b / (512 * rel) < 2 ^ 32 - 2 ^ 22 / rel) :
    Exec.Keeps (Untouched rel b) (writeSectors Disk.ide device s n buffer) :=
  untouched_sectorsLoop fun sector _ => untouched_writeSector hg hlo hhi sector

/-! ## The round trip -/

/-- `write_sectors(dev, s, n, buf)` returns 0 and replaces exactly the bytes it
should, and `read_sectors(dev, s, n, out)` then returns 0 and delivers them. -/
def RoundTrip (device : DeviceInfo) (s n : Int32) (buf out : UInt32)
    (k : Kernel Disk) : Prop :=
  ∃ k₁ k₂, (writeSectors Disk.ide device s n buf).run k = .ok 0 k₁ ∧
    k₁.dev = k.dev.patch (512 * s.toInt.toNat) (512 * n.toInt.toNat)
      (fun i => k.mem (buf + UInt32.ofNat i)) ∧
    (readSectors Disk.ide device s n out).run k₁ = .ok 0 k₂ ∧
    ∀ i < 512 * n.toInt.toNat,
      k₂.mem (out + UInt32.ofNat i) = k.mem (buf + UInt32.ofNat i)

/-- A buffer of `len` bytes that does not lie in the page the request will
use for itself. -/
def Clear (map : Vector UInt8 kMemoryMapEntries) (buffer : UInt32)
    (len : Nat) : Prop :=
  ∀ a, Span buffer len a → ¬ Span (scratch map) 0x1000 a

/-- Buffers below the kernel half are clear. -/
theorem clear_low {map : Vector UInt8 kMemoryMapEntries} {len : Nat}
    (hfree : 0 < freeCount map) (h : buffer.toNat + len ≤ 0xC0000000) :
    Clear map buffer len := by
  have hlt := firstFree_lt hfree
  have hbase := toNat_blockAddr (Nat.le_of_lt hlt)
  have hkernel := Layout.kmallocMemory_kernel
  have hfits := Layout.kmallocMemory_fits
  simp only [kMemoryMapEntries] at hlt hfits
  intro a ha hscratch
  rw [span_iff (by omega)] at ha
  rw [scratch, span_iff (by omega)] at hscratch
  omega

/-- A request that ends at or below sector `2 ^ 22`, or is empty. -/
theorem roundTrip_low {buf out : UInt32} {k : Kernel Disk}
    (hd : Serves device rel sectors k.dev) (hfree : 0 < freeCount k.kMemoryMap)
    (h0 : 0 ≤ s.toInt) (hn : 0 ≤ n.toInt)
    (hin : s.toInt.toNat + n.toInt.toNat ≤ sectors * rel)
    (hbuf : Clear k.kMemoryMap buf (512 * n.toInt.toNat))
    (hout : Clear k.kMemoryMap out (512 * n.toInt.toNat))
    (hlow : n.toInt = 0 ∨ s.toInt + n.toInt ≤ 2 ^ 22) :
    RoundTrip device s n buf out k := by
  rcases hlow with hzero | hlow
  · refine ⟨k, k, ?_, ?_, ?_, ?_⟩
    · rw [writeSectors, hzero]
      rfl
    · rw [hzero]
      exact (Disk.patch_zero _ _ _).symm
    · rw [readSectors, hzero]
      rfl
    · intro i hi
      rw [hzero] at hi
      exact absurd hi (Nat.not_lt_zero i)
  · obtain ⟨m₁, hwrite, hm₁⟩ := writeLoop_ok (Nat.zero_add _) hd hfree h0
      (by omega) hin hbuf
    simp only [Nat.add_zero, Nat.mul_zero, Nat.zero_add] at hwrite
    obtain ⟨m₂, hread, hm₂, -⟩ := readLoop_ok (k := { k with
        mem := m₁
        dev := k.dev.patch (512 * s.toInt.toNat) (512 * n.toInt.toNat)
          fun i => k.mem (buf + UInt32.ofNat i) })
      (Nat.zero_add n.toInt.toNat) ⟨hd.geometry, hd.sectorSize⟩
      hfree h0 (by omega) (fun t _ ht => hd.answer (by omega)) hout
    refine ⟨_, _, hwrite, rfl, hread, ?_⟩
    intro i hi
    have hbyte := hm₂ i hi
    simp only [Nat.add_zero, Nat.mul_zero, Nat.zero_add] at hbyte
    refine hbyte.trans ?_
    rw [Disk.patch_content, patch_in (by omega) (by omega),
      Nat.add_sub_cancel_left]

/-- A request that includes a sector from `2 ^ 22` on can only appear to be
carried out: the byte there was what it should become. -/
theorem roundTrip_high {buf out : UInt32} {k : Kernel Disk} {t : Nat}
    (hd : Serves device rel sectors k.dev) (h : RoundTrip device s n buf out k)
    (hlo : s.toInt.toNat ≤ t) (hhi : t < s.toInt.toNat + n.toInt.toNat)
    (ht : 2 ^ 22 ≤ t) (hmax : t < 2 ^ 31) :
    k.mem (buf + UInt32.ofNat (512 * (t - s.toInt.toNat))) =
      k.dev.content (512 * t) := by
  obtain ⟨k₁, -, hwrite, hdev, -⟩ := h
  have hquot : 512 * t / (512 * rel) = t / rel :=
    Nat.mul_div_mul_left t rel (by omega)
  have hkeep : Exec.Keeps (Untouched rel (512 * t))
      (writeSectors Disk.ide device s n buf) := untouched_writeSectors hd.geometry
    (by rw [hquot]; exact Nat.div_le_div_right ht)
    (by rw [hquot]; rcases hd.geometry.known with rfl | rfl <;> omega)
  have hsame := ((hkeep.of_ok hwrite) hd.sectorSize).2
  rw [hdev, Disk.patch_content, patch_in (by omega) (by omega),
    ← Nat.mul_sub] at hsame
  exact hsame

/-- On every disk, with any content and any bytes in the buffer, a write is
carried out and reads back, exactly for the requests that are empty or end at
or below sector `2 ^ 22`. -/
theorem roundTrip_iff {map : Vector UInt8 kMemoryMapEntries} {buf out : UInt32}
    (hg : Geometry device rel) (hfree : 0 < freeCount map)
    (h0 : 0 ≤ s.toInt) (hn : 0 ≤ n.toInt)
    (hin : s.toInt.toNat + n.toInt.toNat ≤ sectors * rel)
    (hbuf : Clear map buf (512 * n.toInt.toNat))
    (hout : Clear map out (512 * n.toInt.toNat)) :
    (∀ k : Kernel Disk, k.kMemoryMap = map → Serves device rel sectors k.dev →
        RoundTrip device s n buf out k) ↔
      n.toInt = 0 ∨ s.toInt + n.toInt ≤ 2 ^ 22 := by
  constructor
  · intro h
    by_contra hhigh
    rw [not_or] at hhigh
    have hserve : Serves device rel sectors (.blank rel sectors) :=
      ⟨⟨hg, rfl⟩, Disk.blank_answer rel sectors⟩
    have hs := Int32.toInt_lt s
    have := roundTrip_high (t := max s.toInt.toNat (2 ^ 22)) hserve
      (h ⟨⟨fun _ => 1, [], .blank rel sectors⟩, map, 0⟩ rfl hserve)
      (Nat.le_max_left _ _) (by omega) (Nat.le_max_right _ _) (by omega)
    exact absurd this (show (1 : UInt8) ≠ 0 by decide)
  · rintro hlow k rfl hd
    exact roundTrip_low hd hfree h0 hn hin hbuf hout hlow

end

/-- The first sector of a CD with eight physical sectors. -/
theorem roundTrip_iff_first_sector : ∃ (_ : Layout), ∀ k : Kernel Disk,
    k.kMemoryMap = (Kernel.zero ()).kMemoryMap →
    Serves ⟨1, 1, 0, 2048⟩ 4 8 k.dev →
    RoundTrip ⟨1, 1, 0, 2048⟩ 0 1 0x1000 0x2000 k := by
  let _ := bootLayout
  have hfree : 0 < freeCount (Kernel.zero ()).kMemoryMap := by simp
  exact ⟨bootLayout, (roundTrip_iff ⟨.inr rfl, rfl⟩ hfree (by decide) (by decide)
    (by decide) (clear_low hfree (by decide)) (clear_low hfree (by decide))).mpr
      (by decide)⟩

/-- Sector `2 ^ 23` of a disk of 512-byte sectors: the write goes elsewhere. -/
theorem roundTrip_wraps : ∃ (_ : Layout) (k : Kernel Disk),
    0 < freeCount k.kMemoryMap ∧ Serves ⟨0, 0, 0, 512⟩ 1 (2 ^ 24) k.dev ∧
      Clear k.kMemoryMap 0x1000 512 ∧ Clear k.kMemoryMap 0x2000 512 ∧
      ¬ RoundTrip ⟨0, 0, 0, 512⟩ 0x800000 1 0x1000 0x2000 k := by
  let _ := bootLayout
  have hfree : 0 < freeCount (Kernel.zero ()).kMemoryMap := by simp
  have hserve : Serves ⟨0, 0, 0, 512⟩ 1 (2 ^ 24) (.blank 1 (2 ^ 24)) :=
    ⟨⟨⟨.inl rfl, rfl⟩, rfl⟩, Disk.blank_answer 1 (2 ^ 24)⟩
  refine ⟨bootLayout, { Kernel.zero (Disk.blank 1 (2 ^ 24)) with mem := fun _ => 1 },
    hfree, hserve, clear_low hfree (by decide), clear_low hfree (by decide), ?_⟩
  intro h
  have := roundTrip_high (t := 2 ^ 23) hserve h (by decide) (by decide)
    (by decide) (by decide)
  exact absurd this (show (1 : UInt8) ≠ 0 by decide)

end Bedrock
