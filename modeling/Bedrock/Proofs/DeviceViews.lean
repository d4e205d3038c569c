import Bedrock.Lib.Simulation
import Bedrock.Drivers.Disk
import Bedrock.Drivers.Ext2

/-!
# The file system over another device

The file system reaches the hardware through `ide_read_sectors` only. So when
the states of one device are seen as states of another, and every request for
sectors on the first is seen in the request on the second, then every function
of the file system is: whatever the two devices are, and whatever is in memory.

The divisions by what mounting computed must not trap on the way. Every other
reason to stop has to be admitted, but those the hardware has are its own.
-/

namespace Bedrock

open Lib Lib.Exec

variable {δ δ' : Type}

/-- How the states of a device are seen as states of another, and what is asked
of the runs. -/
structure DeviceView (δ δ' : Type) where
  map : δ → δ'
  inv : δ → Prop
  good : δ → Prop
  stops : Halt → Prop

/-- For the driver: memory and the console are seen as they are. -/
def DeviceView.machine (D : DeviceView δ δ') : View Halt (Machine δ) (Machine δ') where
  map s := ⟨s.mem, s.console, D.map s.dev⟩
  inv s := D.inv s.dev
  good s := D.good s.dev
  stops := D.stops

/-- For the kernel: everything but the device is seen as it is. -/
def DeviceView.kernel (D : DeviceView δ δ') : View Halt (Kernel δ) (Kernel δ') where
  map k := ⟨⟨k.mem, k.console, D.map k.dev⟩, k.kMemoryMap, k.cr3⟩
  inv k := D.inv k.dev
  good k := D.good k.dev
  stops := D.stops

variable {D : DeviceView δ δ'}

@[simp] theorem kernel_map_mem (k : Kernel δ) : (D.kernel.map k).mem = k.mem := rfl

@[simp] theorem kernel_map_kMemoryMap (k : Kernel δ) :
    (D.kernel.map k).kMemoryMap = k.kMemoryMap := rfl

/-- Driver code called from the kernel. -/
theorem at_ofMachine {α : Type} {x : Exec Halt (Machine δ) α} {y : Exec Halt (Machine δ') α}
    {k : Kernel δ} (h : View.At D.machine x y k.toMachine) :
    View.At D.kernel (Kern.ofMachine x) (Kern.ofMachine y) k := by
  cases hrun : x.run k.toMachine with
  | ok a s =>
      obtain ⟨hinv, hseen⟩ := h.of_ok hrun
      refine at_ok (Kern.ofMachine_ok hrun) hinv fun hgood => ?_
      obtain ⟨hs, hy⟩ := hseen hgood
      exact ⟨hs, Kern.ofMachine_ok (k := D.kernel.map k) hy⟩
  | error e s =>
      obtain ⟨hinv, hstops, hseen⟩ := h.of_error hrun
      refine at_error (Kern.ofMachine_error hrun) hinv hstops fun hgood => ?_
      obtain ⟨hs, hy⟩ := hseen hgood
      exact ⟨hs, Kern.ofMachine_error (k := D.kernel.map k) hy⟩

theorem simulates_ofMachine {α : Type} {x : Exec Halt (Machine δ) α}
    {y : Exec Halt (Machine δ') α} (h : Simulates D.machine x y) :
    Simulates D.kernel (Kern.ofMachine x) (Kern.ofMachine y) :=
  fun k hk => at_ofMachine (h k.toMachine hk)

/-! ## Code that does not reach the device -/

theorem simulates_kprintMsg (msg : Msg) :
    Simulates D.kernel (kprintMsg msg) (kprintMsg msg) :=
  .modify (fun _ h => h) (fun _ h => h) fun _ => rfl

/-- A program that begins with a message. -/
theorem at_kprintMsg {α : Type} {msg : Msg} {f : Unit → Kern δ α} {g : Unit → Kern δ' α}
    {k : Kernel δ} (hk : D.kernel.inv k) (h : View.At D.kernel (f ()) (g ()) (k.print msg)) :
    View.At D.kernel (kprintMsg msg >>= f) (kprintMsg msg >>= g) k :=
  (simulates_kprintMsg msg k hk).after (kprintMsg_run msg k) h

theorem simulates_kprint (message : String) :
    Simulates D.kernel (kprint message) (kprint message) := simulates_kprintMsg _

theorem simulates_kprintInt (value : UInt32) :
    Simulates D.kernel (kprintInt value) (kprintInt value) := simulates_kprintMsg _

theorem simulates_memoryCopy (source dest : UInt32) (nbytes : Int32) :
    Simulates D.kernel (memoryCopy source dest nbytes) (memoryCopy source dest nbytes) :=
  .modify (fun _ h => h) (fun _ h => h) fun _ => rfl

theorem simulates_memorySet (dest : UInt32) (val : UInt8) (len : UInt32) :
    Simulates D.kernel (memorySet dest val len) (memorySet dest val len) :=
  .modify (fun _ h => h) (fun _ h => h) fun _ => rfl

theorem simulates_read16 (p : UInt32) : Simulates D.kernel (read16 p) (read16 p) :=
  .bind_get fun k hk => Simulates.pure (k.mem.load16 p) k hk

theorem simulates_read32 (p : UInt32) : Simulates D.kernel (read32 p) (read32 p) :=
  .bind_get fun k hk => Simulates.pure (k.mem.load32 p) k hk

/-- Arithmetic that does not trap. -/
theorem simulates_ofExcept {α : Type} {x : Except Halt α} {a : α} (h : x = .ok a) :
    Simulates D.kernel (Kern.ofExcept x) (Kern.ofExcept x) := by
  rw [h]
  exact .pure a

/-- A view for the file system: every reason to stop is admitted that is neither
a divide error nor the hardware's. -/
structure Admits (D : DeviceView δ δ') : Prop where
  stops : ∀ e, e ≠ .divideError → e ≠ .noAnswer → D.stops e

section

variable (hD : Admits D)

include hD

theorem simulates_kernelExit {α : Type} (errorCode : UInt8) :
    Simulates D.kernel (kernelExit errorCode : Kern δ α) (kernelExit errorCode) :=
  .bind (simulates_kprint _) fun _ => .bind (simulates_kprintMsg _) fun _ =>
    .bind (simulates_kprint _) fun _ => .bind (simulates_kprint _) fun _ =>
      .bind (simulates_kprint _) fun _ => .throw (hD.stops _ (by simp) (by simp))

theorem simulates_kMemoryMapFill (v : UInt8) (n lo : Nat) :
    Simulates D.kernel (kMemoryMapFill v n lo) (kMemoryMapFill v n lo) := by
  induction n generalizing lo with
  | zero => exact .pure ()
  | succ n ih =>
      refine .bind (.bind_get fun k hk => ?_) fun _ => ih _
      split
      · exact at_ok rfl hk fun hgood => ⟨hgood, rfl⟩
      · exact Simulates.throw (hD.stops _ (by simp) (by simp)) k hk

theorem simulates_kmalloc [Layout] (n : UInt32) :
    Simulates D.kernel (kmalloc n) (kmalloc n) := by
  refine .bind_get fun k hk => ?_
  simp only [kernel_map_kMemoryMap]
  split
  · exact Simulates.bind (simulates_kMemoryMapFill hD _ _ _) (fun _ =>
      .bind (simulates_memorySet _ _ _) fun _ => .pure _) k hk
  · exact simulates_kernelExit hD 2 k hk

theorem simulates_kfree [Layout] (a n : UInt32) :
    Simulates D.kernel (kfree a n) (kfree a n) := simulates_kMemoryMapFill hD _ _ _

theorem simulates_strlen (fuel : Nat) (s : Nat → UInt8) :
    Simulates D.kernel (strlen fuel s) (strlen fuel s) := by
  unfold strlen
  split
  · exact .pure _
  · exact .throw (hD.stops _ (by simp) (by simp))

theorem simulates_strcmp (fuel : Nat) (s t : Nat → UInt8) :
    Simulates D.kernel (strcmp fuel s t) (strcmp fuel s t) := by
  unfold strcmp
  split
  · exact .pure _
  · exact .throw (hD.stops _ (by simp) (by simp))

theorem simulates_strsplit (fuel : Nat) (str : UInt32) (delim : UInt8) :
    Simulates D.kernel (strsplit fuel str delim) (strsplit fuel str delim) := by
  refine .bind_get fun k hk => ?_
  simp only [kernel_map_mem]
  split
  · exact at_ok rfl hk fun hgood => ⟨hgood, rfl⟩
  · exact Simulates.throw (hD.stops _ (by simp) (by simp)) k hk

/-! ## Sectors and blocks -/

/-- A request that is seen is seen through `read_sector`. -/
theorem simulates_readSector_drive [Layout] {ide : Ide δ} {ide' : Ide δ'} {device : DeviceInfo}
    {rel : Nat} {sector : Int32} (hg : Geometry device rel)
    (h : ∀ edi, Simulates D.machine
      (ide.readSectors device.ataId.toUInt32.toUInt8 1 (placeOf rel sector).realSector 0 edi)
      (ide'.readSectors device.ataId.toUInt32.toUInt8 1 (placeOf rel sector).realSector 0 edi))
    (buffer : UInt32) :
    Simulates D.kernel (readSector ide device sector buffer)
      (readSector ide' device sector buffer) := by
  refine .bind (simulates_kmalloc hD 1) fun p => ?_
  refine .bind_value (fun k => locate_run hg) (fun k => locate_run hg) ?_
  refine .bind (simulates_ofMachine (h _)) fun err => .ite (.pure 1) ?_
  exact .bind (simulates_memoryCopy _ _ _) fun _ =>
    .bind (simulates_kfree hD p 1) fun _ => .pure 0

theorem simulates_readSector [Layout] {ide : Ide δ} {ide' : Ide δ'} {device : DeviceInfo}
    {rel : Nat} {sector : Int32} (hg : Geometry device rel)
    (h : ∀ drive edi, Simulates D.machine
      (ide.readSectors drive 1 (placeOf rel sector).realSector 0 edi)
      (ide'.readSectors drive 1 (placeOf rel sector).realSector 0 edi)) (buffer : UInt32) :
    Simulates D.kernel (readSector ide device sector buffer)
      (readSector ide' device sector buffer) :=
  simulates_readSector_drive hD hg (fun edi => h _ edi) buffer

end

/-- No division by what mounting computed traps. -/
structure Divides (priv : Ext2PrivData) : Prop where
  inodesInBlockgroup : 0 < priv.sb.inodesInBlockgroup.toNat
  blocksize : 0 < priv.blocksize.toNat
  inodesPerBlock : 0 < priv.inodesPerBlock.toNat

/-- A view for a mounted volume: if a block has sectors at all, reading a sector
is seen. -/
structure Sees [Layout] (D : DeviceView δ δ') (ide : Ide δ) (ide' : Ide δ')
    (device : DeviceInfo) (priv : Ext2PrivData) : Prop extends Admits D, Divides priv where
  sector : 0 < priv.sectorsPerBlock.toInt32.toInt → ∀ sector buffer,
    Simulates D.kernel (readSector ide device sector buffer)
      (readSector ide' device sector buffer)

section

variable [Layout] {ide : Ide δ} {ide' : Ide δ'} {device : DeviceInfo} {priv : Ext2PrivData}

omit [Layout] in
theorem simulates_sectorsLoop {access : Int32 → UInt32 → Kern δ Int32}
    {access' : Int32 → UInt32 → Kern δ' Int32}
    (h : ∀ sector buffer, Simulates D.kernel (access sector buffer) (access' sector buffer))
    (sector : Int32) (buffer : UInt32) (n c : Nat) :
    Simulates D.kernel (sectorsLoop access sector buffer n c)
      (sectorsLoop access' sector buffer n c) := by
  induction n generalizing c with
  | zero => exact .pure 0
  | succ n ih => exact .bind (h _ _) fun err => .ite (.pure 1) (ih _)

/-- An inode is read as on the other device, if its two blocks are. Which the second is, the
run says. -/
theorem at_ext2ReadInode (hD : Admits D) (hd : Divides priv) {inode : UInt32}
    (inodeBuf : UInt32) {k : Kernel δ} (hk : D.kernel.inv k)
    (hfirst : ∀ p, Simulates D.kernel (ext2ReadBlock ide device priv priv.firstBgd p)
      (ext2ReadBlock ide' device priv priv.firstBgd p))
    (hsecond : ∀ p k₁ k₂, (kmalloc 1).run k = .ok p k₁ →
      (ext2ReadBlock ide device priv priv.firstBgd p).run k₁ = .ok () k₂ →
      Simulates D.kernel
        (ext2ReadBlock ide device priv (k₂.mem.load32 (p + (inode - 1) /
          priv.sb.inodesInBlockgroup * sizeofBlockGroup + 8) + (inode - 1) %
          priv.sb.inodesInBlockgroup * sizeofInode / priv.blocksize) p)
        (ext2ReadBlock ide' device priv (k₂.mem.load32 (p + (inode - 1) /
          priv.sb.inodesInBlockgroup * sizeofBlockGroup + 8) + (inode - 1) %
          priv.sb.inodesInBlockgroup * sizeofInode / priv.blocksize) p)) :
    View.At D.kernel (ext2ReadInode ide device priv inode inodeBuf)
      (ext2ReadInode ide' device priv inode inodeBuf) k := by
  have hgroup := udiv_ok (a := inode - 1) hd.inodesInBlockgroup
  have hindex := umod_ok (a := inode - 1) hd.inodesInBlockgroup
  have hblock := udiv_ok (a := (inode - 1) % priv.sb.inodesInBlockgroup * sizeofInode)
    hd.blocksize
  refine (simulates_ofExcept hgroup k hk).after (Kern.ofExcept_run hgroup) ?_
  refine (simulates_kmalloc hD 1 k hk).bind_at fun p k₁ hrun₁ => ?_
  have hk₁ := ((simulates_kmalloc hD 1 k hk).of_ok hrun₁).1
  refine (hfirst p k₁ hk₁).bind_at fun _ k₂ hrun₂ => ?_
  have hk₂ := ((hfirst p k₁ hk₁).of_ok hrun₂).1
  refine at_kprintMsg hk₂ (at_kprintMsg hk₂ (at_kprintMsg hk₂ ?_))
  refine View.At.after (simulates_ofExcept hindex _ hk₂) (Kern.ofExcept_run hindex) ?_
  refine at_kprintMsg hk₂ (at_kprintMsg hk₂ (at_kprintMsg hk₂ ?_))
  refine View.At.after (simulates_ofExcept hblock _ hk₂) (Kern.ofExcept_run hblock) ?_
  refine View.At.after (simulates_read32 _ _ hk₂) (read32_run _ _) ?_
  refine at_kprintMsg hk₂ (at_kprintMsg hk₂ (at_kprintMsg hk₂ ?_))
  refine Simulates.bind (hsecond p k₁ k₂ hrun₁ hrun₂) (fun _ => ?_) _ hk₂
  exact .bind (simulates_ofExcept (umod_ok hd.inodesPerBlock)) fun _ => simulates_memoryCopy _ _ _

variable (h : Sees D ide ide' device priv)

include h

theorem simulates_ext2ReadBlock (block buf : UInt32) :
    Simulates D.kernel (ext2ReadBlock ide device priv block buf)
      (ext2ReadBlock ide' device priv block buf) := by
  refine .bind ?_ fun _ => .pure _
  unfold readSectors
  rcases Int.lt_or_le 0 priv.sectorsPerBlock.toInt32.toInt with hpos | hneg
  · exact simulates_sectorsLoop (h.sector hpos) _ _ _ _
  · rw [Int.toNat_of_nonpos hneg]
    exact .pure 0

theorem simulates_ext2ReadInode (inode inodeBuf : UInt32) :
    Simulates D.kernel (ext2ReadInode ide device priv inode inodeBuf)
      (ext2ReadInode ide' device priv inode inodeBuf) := fun _ hk =>
  at_ext2ReadInode h.toAdmits h.toDivides inodeBuf hk
    (fun p => simulates_ext2ReadBlock h priv.firstBgd p) fun p _ _ _ _ =>
      simulates_ext2ReadBlock h _ p

end

/-! ## Directories -/

section

variable (hD : Admits D)

include hD

theorem simulates_ext2EntryName [Layout] (dir : UInt32) :
    Simulates D.kernel (ext2EntryName dir) (ext2EntryName dir) := by
  refine .bind (simulates_kmalloc hD 1) fun name => .bind_get fun k hk => ?_
  refine Simulates.bind (simulates_memoryCopy _ _ _) (fun _ => ?_) k hk
  exact .bind (.modify (fun _ h => h) (fun _ h => h) fun _ => rfl) fun _ => .pure name

theorem simulates_ext2NameMatches (fuel : Nat) (filename name : UInt32) :
    Simulates D.kernel (ext2NameMatches fuel filename name)
      (ext2NameMatches fuel filename name) := by
  unfold ext2NameMatches
  refine .ite (.pure false) (.bind_get fun k hk => ?_)
  exact Simulates.bind (simulates_strcmp hD fuel _ _) (fun _ => .pure _) k hk

theorem simulates_ext2ReadDirectoryLoop [Layout] (fuel : Nat) (filename : UInt32)
    (rounds : Nat) (dir : UInt32) :
    Simulates D.kernel (ext2ReadDirectoryLoop fuel filename rounds dir)
      (ext2ReadDirectoryLoop fuel filename rounds dir) := by
  induction rounds generalizing dir with
  | zero => exact .throw (hD.stops _ (by simp) (by simp))
  | succ rounds ih =>
      unfold ext2ReadDirectoryLoop
      refine .bind (simulates_read32 dir) fun inode => .ite (.pure 0) ?_
      refine .bind (simulates_ext2EntryName hD dir) fun name => ?_
      refine .bind (simulates_ext2NameMatches hD fuel filename name) fun found => .ite ?_ ?_
      · refine .bind (simulates_kprint _) fun _ => .bind (simulates_kprintMsg _) fun _ =>
          .bind (simulates_kprint _) fun _ => .bind (simulates_read32 dir) fun inode => ?_
        exact .bind (simulates_kprintInt _) fun _ => .bind (simulates_kprint _) fun _ =>
          .bind (simulates_kfree hD name 1) fun _ => simulates_read32 dir
      · have hnext : Simulates D.kernel
            (do
              let size ← read16 (dir + 4)
              kfree name 1
              ext2ReadDirectoryLoop fuel filename rounds (dir + size.toUInt32))
            (do
              let size ← read16 (dir + 4)
              kfree name 1
              ext2ReadDirectoryLoop fuel filename rounds (dir + size.toUInt32)) :=
          .bind (simulates_read16 _) fun _ => .bind (simulates_kfree hD name 1) fun _ => ih _
        exact .ite (.bind (simulates_kprintMsg _) fun _ =>
          .bind (simulates_kprint _) fun _ => hnext) hnext

omit hD in
theorem simulates_forDirectBlocks {α : Type} (inode : UInt32)
    {body : UInt32 → Kern δ (Option α)} {body' : UInt32 → Kern δ' (Option α)}
    (h : ∀ b, Simulates D.kernel (body b) (body' b)) (n i : Nat) :
    Simulates D.kernel (forDirectBlocks inode body n i) (forDirectBlocks inode body' n i) := by
  induction n generalizing i with
  | zero => exact .pure none
  | succ n ih =>
      unfold forDirectBlocks
      refine .bind (simulates_read32 _) fun b => .ite (.pure none) (.bind (h b) fun left => ?_)
      cases left with
      | some a => exact .pure (some a)
      | none => exact ih _

theorem simulates_ext2FindRelease [Layout] (filename inode rootBuf : UInt32) :
    Simulates D.kernel (ext2FindRelease filename inode rootBuf)
      (ext2FindRelease filename inode rootBuf) :=
  .bind (simulates_kfree hD _ _) fun _ => .bind (simulates_kfree hD _ _) fun _ =>
    simulates_kfree hD _ _

end

/-! ## The search -/

section

variable [Layout] {ide : Ide δ} {ide' : Ide δ'} {device : DeviceInfo} {priv : Ext2PrivData}

/-- A round of the search, if its block and the inode that is found there are read as on the
other device. -/
theorem at_ext2FindInBlock (hD : Admits D) {fuel : Nat} {inode rootBuf filename b : UInt32}
    (ff retnode : UInt32) {k : Kernel δ}
    (hblock : View.At D.kernel (ext2ReadBlock ide device priv b rootBuf)
      (ext2ReadBlock ide' device priv b rootBuf) k)
    (hinode : ∀ rc k₁ k₂, (ext2ReadBlock ide device priv b rootBuf).run k = .ok () k₁ →
      (ext2ReadDirectory fuel filename rootBuf).run k₁ = .ok rc k₂ → rc ≠ 0 →
      View.At D.kernel (ext2ReadInode ide device priv rc inode)
        (ext2ReadInode ide' device priv rc inode) k₂) :
    View.At D.kernel (ext2FindInBlock ide device priv fuel ff inode rootBuf filename retnode b)
      (ext2FindInBlock ide' device priv fuel ff inode rootBuf filename retnode b) k := by
  refine hblock.bind_at fun _ k₁ hrun₁ => ?_
  have hk₁ := (hblock.of_ok hrun₁).1
  have hdir := simulates_ext2ReadDirectoryLoop hD fuel filename fuel rootBuf k₁ hk₁
  refine hdir.bind_at fun rc k₂ hrun₂ => ?_
  have hk₂ := (hdir.of_ok hrun₂).1
  have hmissing : Simulates D.kernel
      (do
        kprint "File not found: "
        kprintMsg (.mem filename)
        kprint "\n"
        ext2FindRelease filename inode rootBuf
        pure (some (.error 0 : Except UInt8 UInt32)))
      (do
        kprint "File not found: "
        kprintMsg (.mem filename)
        kprint "\n"
        ext2FindRelease filename inode rootBuf
        pure (some (.error 0))) :=
    .bind (simulates_kprint _) fun _ => .bind (simulates_kprintMsg _) fun _ =>
      .bind (simulates_kprint _) fun _ =>
        .bind (simulates_ext2FindRelease hD filename inode rootBuf) fun _ => .pure _
  by_cases hrc : rc = 0
  · rw [if_pos hrc, if_pos hrc]
    refine Simulates.bind_get (fun k hk => ?_) k₂ hk₂
    refine Simulates.bind (simulates_strcmp hD fuel _ _) (fun cmp => .ite ?_ hmissing) k hk
    refine .bind (simulates_ext2FindRelease hD filename inode rootBuf) fun _ => ?_
    refine .bind_get fun k hk => Simulates.bind (simulates_strcmp hD fuel _ _) (fun _ => ?_) k hk
    exact .ite (.pure _) (.pure _)
  · rw [if_neg hrc, if_neg hrc]
    exact (hinode rc k₁ k₂ hrun₁ hrun₂ hrc).bind fun _ => .pure _

/-- A lookup reaches the device in one of its two searches. -/
theorem simulates_lookup (hD : Admits D) (fuel : Nat) (ff inodeBuf : UInt32)
    (hpath : ∀ inode rootBuf filename n, Simulates D.kernel
      (ext2FindFromRoot ide device priv fuel ff inodeBuf inode rootBuf filename n)
      (ext2FindFromRoot ide' device priv fuel ff inodeBuf inode rootBuf filename n))
    (hname : ∀ filename inode, Simulates D.kernel
      (ext2ReadRootDirectory ide device priv fuel filename inode)
      (ext2ReadRootDirectory ide' device priv fuel filename inode)) :
    Simulates D.kernel (ext2FindFileInode ide device priv fuel ff inodeBuf)
      (ext2FindFileInode ide' device priv fuel ff inodeBuf) := by
  refine .bind (simulates_kmalloc hD 1) fun inode => ?_
  refine .bind (simulates_kmalloc hD 1) fun rootBuf => ?_
  refine .bind (simulates_kmalloc hD 1) fun filename => .bind_get fun k hk => ?_
  refine Simulates.bind (simulates_strlen hD fuel _) (fun len => ?_) k hk
  refine .bind (simulates_memoryCopy ff filename (len + 1)) fun _ => ?_
  refine .bind (simulates_strsplit hD fuel filename slash) fun n => .ite ?_ ?_
  · exact hpath inode rootBuf (filename + 1) _
  · refine .bind (hname (filename + 1) inode) fun _ => ?_
    exact .bind (simulates_memoryCopy inode inodeBuf 128) fun _ =>
      .bind (simulates_ext2FindRelease hD (filename + 1) inode rootBuf) fun _ => .pure 0

variable (h : Sees D ide ide' device priv)

include h

theorem simulates_ext2ReadRootDirectory (fuel : Nat) (filename rootBuf : UInt32) :
    Simulates D.kernel (ext2ReadRootDirectory ide device priv fuel filename rootBuf)
      (ext2ReadRootDirectory ide' device priv fuel filename rootBuf) := by
  have hD := h.toAdmits
  refine .bind (simulates_kmalloc hD 1) fun inode => ?_
  refine .bind (simulates_ext2ReadInode h 2 inode) fun _ => ?_
  refine .bind (simulates_read16 inode) fun type => .ite ?_ ?_
  · exact .bind (simulates_kprint _) fun _ => .bind (simulates_kfree hD inode 1) fun _ => .pure 0
  refine .bind (simulates_forDirectBlocks inode (fun b => ?_) 12 0) fun left => ?_
  · refine .bind (simulates_ext2ReadBlock h b rootBuf) fun _ => ?_
    refine .bind (simulates_ext2ReadDirectoryLoop hD fuel filename fuel rootBuf) fun found => ?_
    exact .ite (.pure none) (.bind (simulates_kfree hD inode 1) fun _ => .pure (some 1))
  · cases left with
    | some r => exact .pure r
    | none => exact .bind (simulates_kfree hD inode 1) fun _ => .ite (.pure 0) (.pure 1)

theorem simulates_ext2FindInBlock (fuel : Nat) (ff inode rootBuf filename retnode b : UInt32) :
    Simulates D.kernel
      (ext2FindInBlock ide device priv fuel ff inode rootBuf filename retnode b)
      (ext2FindInBlock ide' device priv fuel ff inode rootBuf filename retnode b) := by
  have hD := h.toAdmits
  intro k hk
  have hblock := simulates_ext2ReadBlock h b rootBuf k hk
  refine at_ext2FindInBlock hD ff retnode hblock fun rc k₁ k₂ hrun₁ hrun₂ _ => ?_
  have hk₁ := (hblock.of_ok hrun₁).1
  have hdir := simulates_ext2ReadDirectoryLoop hD fuel filename fuel rootBuf k₁ hk₁
  exact simulates_ext2ReadInode h rc inode k₂ (hdir.of_ok hrun₂).1

theorem simulates_ext2FindLoop (fuel : Nat) (ff inode rootBuf : UInt32) (n : Nat)
    (filename retnode : UInt32) :
    Simulates D.kernel (ext2FindLoop ide device priv fuel ff inode rootBuf n filename retnode)
      (ext2FindLoop ide' device priv fuel ff inode rootBuf n filename retnode) := by
  have hD := h.toAdmits
  induction n generalizing filename retnode with
  | zero => exact .pure _
  | succ n ih =>
      have hnext : ∀ node, Simulates D.kernel
          (do
            let s ← strlen fuel (chars (← get).mem filename)
            ext2FindLoop ide device priv fuel ff inode rootBuf n
              (filename + (s.toUInt32 + 1)) node)
          (do
            let s ← strlen fuel (chars (← get).mem filename)
            ext2FindLoop ide' device priv fuel ff inode rootBuf n
              (filename + (s.toUInt32 + 1)) node) := fun node =>
        .bind_get fun k hk =>
          Simulates.bind (simulates_strlen hD fuel _) (fun s => ih _ node) k hk
      unfold ext2FindLoop
      refine .bind (simulates_kprint _) fun _ => .bind (simulates_kprintMsg _) fun _ =>
        .bind (simulates_kprint _) fun _ => ?_
      refine .bind (simulates_forDirectBlocks inode
        (simulates_ext2FindInBlock h fuel ff inode rootBuf filename retnode) 12 0) fun left => ?_
      match left with
      | some (.error r) => exact .pure _
      | some (.ok rc) => exact hnext rc
      | none => exact hnext retnode

theorem simulates_ext2FindFromRoot (fuel : Nat) (ff inodeBuf inode rootBuf filename : UInt32)
    (n : Nat) :
    Simulates D.kernel
      (ext2FindFromRoot ide device priv fuel ff inodeBuf inode rootBuf filename n)
      (ext2FindFromRoot ide' device priv fuel ff inodeBuf inode rootBuf filename n) := by
  refine .bind (simulates_ext2ReadInode h 2 inode) fun _ => ?_
  refine .bind (simulates_ext2FindLoop h fuel ff inode rootBuf n filename 0) fun r => ?_
  match r with
  | .error r => exact .pure r
  | .ok (filename, retnode) =>
      exact .bind (simulates_memoryCopy inode inodeBuf 128) fun _ =>
        .bind (simulates_ext2FindRelease h.toAdmits filename inode rootBuf) fun _ => .pure _

/-- The whole lookup, for every path and whatever the device holds. -/
theorem simulates_ext2FindFileInode (fuel : Nat) (ff inodeBuf : UInt32) :
    Simulates D.kernel (ext2FindFileInode ide device priv fuel ff inodeBuf)
      (ext2FindFileInode ide' device priv fuel ff inodeBuf) :=
  simulates_lookup h.toAdmits fuel ff inodeBuf (simulates_ext2FindFromRoot h fuel ff inodeBuf)
    (simulates_ext2ReadRootDirectory h fuel)

end

/-! ## A record of the requests -/

/-- The program with a record of the physical sector it was asked for. -/
def recordRequest {α : Type} (lba : UInt32) (x : Exec Halt (Machine δ) α) :
    Exec Halt (Machine (δ × List UInt32)) α := fun s =>
  match x.run ⟨s.mem, s.console, s.dev.1⟩ with
  | .ok a t => .ok a ⟨t.mem, t.console, (t.dev, s.dev.2 ++ [lba])⟩
  | .error e t => .error e ⟨t.mem, t.console, (t.dev, s.dev.2 ++ [lba])⟩

/-- The same driver, with a record of the physical sectors it was asked for. -/
def Ide.recorded (ide : Ide δ) : Ide (δ × List UInt32) where
  readSectors drive numsects lba es edi :=
    recordRequest lba (ide.readSectors drive numsects lba es edi)
  writeSectors drive numsects lba es edi :=
    recordRequest lba (ide.writeSectors drive numsects lba es edi)

/-- The kernel with an empty record. -/
def Kernel.recording (k : Kernel δ) : Kernel (δ × List UInt32) :=
  ⟨⟨k.mem, k.console, (k.dev, [])⟩, k.kMemoryMap, k.cr3⟩

/-- The memory after a request. -/
def Disk.delivered (d : Disk) (numsects : UInt8) (lba edi : UInt32) (m : Mem) : Mem :=
  if d.answer lba = 0 then
    m.write edi (numsects.toNat * d.sectorSize) fun i => d.content (lba.toNat * d.sectorSize + i)
  else m

theorem Disk.readSectors_run (drive numsects : UInt8) (lba : UInt32) (es : UInt16) (edi : UInt32)
    (s : Machine Disk) :
    (Disk.ide.readSectors drive numsects lba es edi).run s =
      .ok (s.dev.answer lba) { s with mem := s.dev.delivered numsects lba edi s.mem } := by
  refine (Exec.bind_ok (EStateM.run_get s)).trans ?_
  by_cases h : s.dev.answer lba = 0
  · simp only [Disk.delivered, if_pos h]
    rfl
  · simp only [Disk.delivered, if_neg h]
    rfl

theorem Disk.recorded_run (drive numsects : UInt8) (lba : UInt32) (es : UInt16) (edi : UInt32)
    (s : Machine (Disk × List UInt32)) :
    (Disk.ide.recorded.readSectors drive numsects lba es edi).run s =
      .ok (s.dev.1.answer lba) ⟨s.dev.1.delivered numsects lba edi s.mem, s.console,
        (s.dev.1, s.dev.2 ++ [lba])⟩ := by
  show recordRequest lba _ s = _
  rw [recordRequest, Disk.readSectors_run]

theorem Disk.recorded_delivers {d : Disk} {lba : UInt32} (h : d.answer lba = 0)
    (log : List UInt32) :
    Delivers Disk.ide.recorded (d, log) (d, log ++ [lba]) lba d.sectorSize d.content := by
  intro drive edi k hk
  refine (Kern.ofMachine_ok (Disk.recorded_run drive 1 lba 0 edi k.toMachine)).trans ?_
  have hone : (1 : UInt8).toNat * d.sectorSize = d.sectorSize := Nat.one_mul _
  simp only [hk, Disk.delivered, h, if_true, hone]

end Bedrock
