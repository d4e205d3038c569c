import Bedrock.Proofs.DriveStorage
import Bedrock.Proofs.StorageRoundTrip

/-!
# Sessions of the storage layer

A session is any sequence of calls of `read_sectors` and `write_sectors`. Over a
disk that answers for its sectors the calls are what they should be: a write
replaces sectors of a flat array of bytes, a read delivers them, nothing else
happens, and the scratch page is the only other memory that changes
(`session_ok`).

Over the driver and a drive the same is true of every run that ends well
(`session_delivers`). Nothing is asked about the order of the calls or about
whether their sectors and buffers overlap.
-/

namespace Bedrock

open Lib Lib.Exec

/-- One call of the storage layer. -/
structure Request where
  direction : Direction
  sector : Int32
  count : Int32
  buffer : UInt32

section

variable {δ : Type} [Layout] (ide : Ide δ) (device : DeviceInfo)

def Request.run (r : Request) : Kern δ Int32 :=
  match r.direction with
  | .read => readSectors ide device r.sector r.count r.buffer
  | .write => writeSectors ide device r.sector r.count r.buffer

/-- One call after the other, with their results. -/
def session : List Request → Kern δ (List Int32)
  | [] => return []
  | r :: rs => do
      let err ← r.run ide device
      let errs ← session rs
      return err :: errs

end

/-! ## What the calls are for -/

/-- Memory and a flat array of bytes. -/
structure Store where
  mem : Mem
  content : Nat → UInt8

/-- The bytes of the array that a request names. -/
def Request.start (r : Request) : Nat := 512 * r.sector.toInt.toNat

def Request.length (r : Request) : Nat := 512 * r.count.toInt.toNat

def Store.apply (s : Store) (r : Request) : Store :=
  match r.direction with
  | .read => { s with mem := s.mem.write r.buffer r.length fun i => s.content (r.start + i) }
  | .write =>
      { s with
        content := patch s.content r.start r.length fun i =>
          s.mem (r.buffer + UInt32.ofNat i) }

theorem Store.apply_read {r : Request} (s : Store) (h : r.direction = .read) :
    s.apply r =
      { s with mem := s.mem.write r.buffer r.length fun i => s.content (r.start + i) } := by
  rw [Store.apply, h]

theorem Store.apply_write {r : Request} (s : Store) (h : r.direction = .write) :
    s.apply r =
      { s with
        content := patch s.content r.start r.length fun i =>
          s.mem (r.buffer + UInt32.ofNat i) } := by
  rw [Store.apply, h]

/-- A request for sectors of a device of `size` sectors, with a buffer that is
not in the page the request will use for itself. -/
structure Request.Fits [Layout] (map : Vector UInt8 kMemoryMapEntries) (size : Nat)
    (r : Request) : Prop where
  sector : 0 ≤ r.sector.toInt
  count : 0 ≤ r.count.toInt
  low : r.sector.toInt + r.count.toInt ≤ 2 ^ 22
  inside : r.sector.toInt.toNat + r.count.toInt.toNat ≤ size
  clear : Clear map r.buffer r.length

section

variable [Layout] {device : DeviceInfo} {rel sectors : Nat} {k : Kernel Disk} {s : Store}

/-- The kernel holds the store, but for the scratch page. -/
structure Store.HeldBy (s : Store) (k : Kernel Disk) : Prop where
  content : k.dev.content = s.content
  mem : SameOff (Span (scratch k.kMemoryMap) 0x1000) s.mem k.mem

/-- What a call keeps of the kernel. -/
structure Steady (k k' : Kernel Disk) : Prop where
  map : k'.kMemoryMap = k.kMemoryMap
  sectorSize : k'.dev.sectorSize = k.dev.sectorSize
  answer : k'.dev.answer = k.dev.answer

omit [Layout] in
theorem Steady.serves {k' : Kernel Disk} (h : Steady k k')
    (hd : Serves device rel sectors k.dev) : Serves device rel sectors k'.dev :=
  ⟨⟨hd.geometry, h.sectorSize.trans hd.sectorSize⟩, fun lba => by rw [h.answer, hd.answers]⟩

/-- One call. -/
theorem request_ok {r : Request} (hd : Serves device rel sectors k.dev)
    (hfree : 0 < freeCount k.kMemoryMap) (hr : r.Fits k.kMemoryMap (sectors * rel))
    (hs : s.HeldBy k) :
    ∃ k', (r.run Disk.ide device).run k = .ok 0 k' ∧ Steady k k' ∧ (s.apply r).HeldBy k' := by
  obtain ⟨h0, hn, hlow, hin, hclear⟩ := hr
  have hlen : r.length ≤ 2 ^ 31 := by
    rw [Request.length]
    omega
  cases hdir : r.direction with
  | read =>
      obtain ⟨m, hrun, hbytes, hoff⟩ := readLoop_ok (Nat.zero_add r.count.toInt.toNat) hd.toHolds
        hfree h0 (by omega) (fun t _ ht => hd.answer (by omega)) hclear
      simp only [Nat.add_zero, Nat.mul_zero, Nat.zero_add] at hrun hbytes hoff
      rw [show UInt32.ofNat 0 = 0 from rfl, UInt32.add_zero] at hoff
      rw [s.apply_read hdir]
      refine ⟨{ k with mem := m }, ?_, ⟨rfl, rfl, rfl⟩, hs.content, fun a ha => ?_⟩
      · rw [Request.run, hdir]
        exact hrun
      · by_cases hspan : Span r.buffer r.length a
        · obtain ⟨i, hi, rfl⟩ := hspan.exists_offset
          simp only
          rw [Mem.write_at hi (by omega), ← hs.content]
          exact hbytes i hi
        · simp only
          rw [Mem.write_off hspan, ← hs.mem a ha]
          exact hoff a (not_or.mpr ⟨ha, hspan⟩)
  | write =>
      obtain ⟨m, hrun, hoff⟩ := writeLoop_ok (Nat.zero_add r.count.toInt.toNat) hd hfree h0
        (by omega) hin hclear
      simp only [Nat.add_zero, Nat.mul_zero, Nat.zero_add] at hrun
      rw [s.apply_write hdir]
      refine ⟨{ k with
        mem := m
        dev := k.dev.patch r.start r.length fun i => k.mem (r.buffer + UInt32.ofNat i) },
        ?_, ⟨rfl, rfl, rfl⟩, ?_, hs.mem.trans hoff⟩
      · rw [Request.run, hdir]
        exact hrun
      · rw [← hs.content]
        exact patch_congr fun i hi => hs.mem _ (hclear _ (span_add hi (by omega)))

/-- Any number of calls. -/
theorem session_ok {rs : List Request} (hd : Serves device rel sectors k.dev)
    (hfree : 0 < freeCount k.kMemoryMap)
    (hfits : ∀ r ∈ rs, r.Fits k.kMemoryMap (sectors * rel)) (hs : s.HeldBy k) :
    ∃ k', (session Disk.ide device rs).run k = .ok (rs.map fun _ => 0) k' ∧ Steady k k' ∧
      (rs.foldl Store.apply s).HeldBy k' := by
  induction rs generalizing k s with
  | nil => exact ⟨k, rfl, ⟨rfl, rfl, rfl⟩, hs⟩
  | cons r rs ih =>
      obtain ⟨k₁, hrun, hsteady, hs₁⟩ :=
        request_ok hd hfree (hfits r List.mem_cons_self) hs
      have hfits₁ : ∀ r' ∈ rs, r'.Fits k₁.kMemoryMap (sectors * rel) := fun r' hr' =>
        hsteady.map ▸ hfits r' (List.mem_cons_of_mem r hr')
      obtain ⟨k₂, hrest, hsteady₂, hs₂⟩ :=
        ih (hsteady.serves hd) (hsteady.map ▸ hfree) hfits₁ hs₁
      refine ⟨k₂, ?_, ⟨hsteady₂.map.trans hsteady.map,
        hsteady₂.sectorSize.trans hsteady.sectorSize,
        hsteady₂.answer.trans hsteady.answer⟩, hs₂⟩
      rw [session, Exec.bind_ok hrun, Exec.bind_ok hrest]
      rfl

end

/-! ## Over a drive -/

section

variable {junk : UInt8} {C : Cable} {device : DeviceInfo}

theorem simulates_session [Layout] {δ δ' : Type} {D : DeviceView δ δ'} {ide : Ide δ} {ide' : Ide δ'}
    (hread : ∀ sector buffer, Simulates D.kernel (readSector ide device sector buffer)
      (readSector ide' device sector buffer))
    (hwrite : ∀ sector buffer, Simulates D.kernel (writeSector ide device sector buffer)
      (writeSector ide' device sector buffer)) (rs : List Request) :
    Simulates D.kernel (session ide device rs) (session ide' device rs) := by
  induction rs with
  | nil => exact .pure []
  | cons r rs ih =>
      refine .bind ?_ fun err => .bind ih fun errs => .pure (err :: errs)
      rw [Request.run, Request.run]
      cases r.direction with
      | read => exact simulates_sectorsLoop hread _ _ _ _
      | write => exact simulates_sectorsLoop hwrite _ _ _ _

/-- The disk of a usable cable serves the sectors of the drive. -/
theorem Cable.Backs.serves (hC : C.Backs device) (a : Ata) :
    Serves device 1 C.device.size.toNat (C.disk a) := by
  refine ⟨⟨hC.geometry, rfl⟩, fun lba => ?_⟩
  rw [Cable.disk]
  by_cases h : lba.toNat < C.device.size.toNat
  · simp only [h, if_true]
  · simp only [h, if_false, iff_false]
    decide

/-! ## Main result -/

/-- Any calls of `read_sectors` and `write_sectors` through the driver, in any
order, on a drive that moved its blocks as drives do: if nothing has gone wrong
at the end, every call has returned 0, the reads have delivered what the calls
before them left on the medium, and the medium holds what the writes made of it
and is otherwise as it was. -/
theorem session_delivers [Layout] {k : Kernel Ata} {rs : List Request} (hC : C.Backs device)
    (hattached : C.Attached k.dev) (hfree : 0 < freeCount k.kMemoryMap)
    (hfits : ∀ r ∈ rs, r.Fits k.kMemoryMap C.device.size.toNat)
    (hgood : C.Good (final ((session (Ata.ide junk) device rs).run k)).dev) :
    ∃ k' ch ch', (session (Ata.ide junk) device rs).run k = .ok (rs.map fun _ => 0) k' ∧
      C.replay k.dev = some ch ∧ C.replay k'.dev = some ch' ∧
      let unit := C.device.drive.val
      let s := rs.foldl Store.apply ⟨k.mem, ch.content unit⟩
      ch'.content unit = s.content ∧ SameOff (Span (scratch k.kMemoryMap) 0x1000) s.mem k'.mem := by
  have hview : View.At C.view.kernel (session (Ata.ide junk) device rs)
      (session Disk.ide device rs) k :=
    simulates_session (fun _ _ => Cable.simulates_readSector hC)
      (fun _ _ => Cable.simulates_writeSector hC) rs k hattached
  obtain ⟨hk, hseen⟩ := hview.seen hgood
  obtain ⟨ch, hstart, -⟩ := hk.replayed
  have hcontent : (C.disk k.dev).content = ch.content C.device.drive.val :=
    Cable.disk_content hstart
  obtain ⟨k₁, hrun, hsteady, hheld⟩ := session_ok (k := C.view.kernel.map k)
    (s := ⟨k.mem, ch.content C.device.drive.val⟩) (hC.serves k.dev) hfree
    (by rwa [Nat.mul_one]) ⟨hcontent, SameOff.refl _⟩
  obtain ⟨k', hx, rfl⟩ := View.of_result_ok (hseen.symm.trans hrun)
  rw [hx] at hgood
  obtain ⟨ch', hend, -⟩ := hgood.replayed
  have hcontent' : (C.disk k'.dev).content = ch'.content C.device.drive.val :=
    Cable.disk_content hend
  refine ⟨k', ch, ch', hx, hstart, hend, ?_, ?_⟩
  · rw [← hcontent']
    exact hheld.content
  · have hmem := hheld.mem
    rwa [hsteady.map] at hmem

end

/-- A drive with 1000 sectors, as the only one. -/
def freshCable : Cable where
  registers := ideChannels 0x1F0 0x3F6 0x170 0x376 0 ataPrimary
  devices := (ataBoot ⟨1, ataPrimary, ataMaster, .ata, 0x200, 1000, []⟩ []).dev.ideDevices
  drive := 0
  powerOn := freshChannel fun _ => 0
  words _ := 0

theorem freshCable_backs : freshCable.Backs ⟨0, 0, 0, 512⟩ where
  present := by decide
  ata := rfl
  lba := by decide
  control := by decide
  capacity := rfl
  geometry := ⟨.inl rfl, rfl⟩
  drive := rfl

/-- The first state of the kernel over that drive. -/
def freshKernel (inbox : List UInt8) : Kernel Ata where
  toMachine := ataBoot ⟨1, ataPrimary, ataMaster, .ata, 0x200, 1000, []⟩ inbox
  kMemoryMap := (Kernel.zero ()).kMemoryMap
  cr3 := 0

/-- Sector 3 is written and sector 4 read, from a drive that is busy all the time. -/
theorem session_delivers_two : ∃ _ : Layout,
    let k := freshKernel [0x50, 0xD0, 0xD0, 0xD0, 0xD0, 0xD0, 0x58, 0x58,
      0x50, 0xD0, 0xD0, 0xD0, 0xD0, 0xD0, 0x58, 0xD0, 0xD0, 0xD0, 0xD0, 0xD0, 0x50,
      0x50, 0xD0, 0xD0, 0xD0, 0xD0, 0xD0, 0x58, 0x58, 0x50]
    let rs : List Request := [⟨.write, 3, 1, 0x1000⟩, ⟨.read, 4, 1, 0x2000⟩]
    ∃ k' ch', (session (Ata.ide 0) ⟨0, 0, 0, 512⟩ rs).run k = .ok [0, 0] k' ∧
      freshCable.replay k'.dev = some ch' ∧
      ch'.content 0 = (rs.foldl Store.apply ⟨k.mem, fun _ => 0⟩).content := by
  let _ := bootLayout
  refine ⟨bootLayout, ?_⟩
  intro k rs
  have hfree : 0 < freeCount (Kernel.zero ()).kMemoryMap := by simp
  have hfits : ∀ r ∈ rs, r.Fits k.kMemoryMap 1000 := by
    intro r hr
    rcases List.mem_pair.mp hr with rfl | rfl
    · exact ⟨by decide, by decide, by decide, by decide, clear_low hfree (by decide)⟩
    · exact ⟨by decide, by decide, by decide, by decide, clear_low hfree (by decide)⟩
  have hgood : freshCable.Good (final ((session (Ata.ide 0) ⟨0, 0, 0, 512⟩ rs).run k)).dev := by
    decide +kernel
  obtain ⟨k', ch, ch', hrun, hstart, hend, hcontent, -⟩ :=
    session_delivers freshCable_backs ⟨rfl, rfl, rfl, rfl⟩ hfree hfits hgood
  cases hstart
  exact ⟨k', ch', hrun, hend, hcontent⟩

end Bedrock
