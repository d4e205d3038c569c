import Bedrock.Proofs.DeviceViews
import Bedrock.Proofs.Mounting

/-!
# Superblocks that are not checked

`ext2_init` computes with the superblock before it looks at the signature, and
the signature is all it looks at. For every superblock a drive may deliver, this
says whether the run divides by zero, whether it reads blocks that do not fit in
the page they are read to, and whether a missing signature is reported.

The sectors asked for are counted by a record: the first two are the
superblock's, and every other one belongs to a block.
-/

namespace Bedrock

open Lib Lib.Exec Image

/-! ## What mounting computes -/

theorem toNat_blocksize (hint : UInt32) :
    (1024 : UInt32) <<< hint = UInt32.ofNat (2 ^ (10 + hint.toNat % 32)) := by
  rw [← UInt32.toNat_inj, UInt32.toNat_shiftLeft, UInt32.toNat_ofNat', Nat.shiftLeft_eq,
    show (1024 : UInt32).toNat = 2 ^ 10 from rfl, ← Nat.pow_add]

/-- The block sizes that can be computed: the sectors of a block, as a number and
as the `int` that is passed on. -/
theorem blocksize_cases : ∀ j < 32,
    (UInt32.ofNat (2 ^ (10 + j)) = 0 ↔ 22 ≤ j) ∧
    (j ≤ 21 → 0 < (UInt32.ofNat (2 ^ (10 + j)) / sizeofInode).toNat) ∧
    (j ≤ 2 → ((UInt32.ofNat (2 ^ (10 + j))).toInt32 / 512).toUInt32.toNat * 512 ≤ 4096) ∧
    (3 ≤ j → j ≤ 20 →
      4096 < ((UInt32.ofNat (2 ^ (10 + j))).toInt32 / 512).toUInt32.toNat * 512 ∧
      0 < ((UInt32.ofNat (2 ^ (10 + j))).toInt32 / 512).toUInt32.toInt32.toInt) ∧
    (j = 21 → ((UInt32.ofNat (2 ^ (10 + j))).toInt32 / 512).toUInt32.toInt32.toInt ≤ 0) := by
  decide

/-- What of it the file system computes with. -/
theorem fillPrivData_fields {sb : Superblock} {priv : Ext2PrivData}
    (h : fillPrivData sb = .ok priv) : priv.sb = sb ∧
      priv.blocksize = (1024 : UInt32) <<< sb.blocksizeHint ∧
      priv.sectorsPerBlock = (((1024 : UInt32) <<< sb.blocksizeHint).toInt32 / 512).toUInt32 ∧
      priv.inodesPerBlock = (1024 : UInt32) <<< sb.blocksizeHint / sizeofInode := by
  rw [fillPrivData] at h
  dsimp only at h
  cases hfirst : udiv sizeofSuperblock ((1024 : UInt32) <<< sb.blocksizeHint) with
  | error e => rw [hfirst] at h; cases h
  | ok q =>
      cases hgroups : udiv sb.blocks sb.blocksInBlockgroup with
      | error e => rw [hfirst, hgroups] at h; cases h
      | ok g =>
          rw [hfirst, hgroups] at h
          injection h with h
          rw [← h]
          exact ⟨rfl, rfl, rfl, rfl⟩

/-- It divides by the block size and by the number of blocks in a group. -/
theorem fillPrivData_ok {sb : Superblock} (hsize : (1024 : UInt32) <<< sb.blocksizeHint ≠ 0)
    (hgroup : sb.blocksInBlockgroup ≠ 0) : ∃ priv, fillPrivData sb = .ok priv := by
  rw [fillPrivData]
  simp only [udiv, if_neg hsize, if_neg hgroup]
  exact ⟨_, rfl⟩

theorem fillPrivData_error {sb : Superblock}
    (h : ¬ ((1024 : UInt32) <<< sb.blocksizeHint ≠ 0 ∧ sb.blocksInBlockgroup ≠ 0)) :
    fillPrivData sb = .error .divideError := by
  rw [fillPrivData]
  by_cases hsize : (1024 : UInt32) <<< sb.blocksizeHint = 0
  · simp only [udiv, hsize, if_true]
    rfl
  · have hgroup : sb.blocksInBlockgroup = 0 := by
      by_contra hgroup
      exact h ⟨hsize, hgroup⟩
    simp only [udiv, if_neg hsize, hgroup, if_true]
    rfl

/-! ## The condition -/

/-- The superblocks `ext2_init` gets on with: the shift leaves a block size, no
divisor is 0, and a block of a volume with the signature fits in a page, or has
a negative number of sectors, so that none is read. -/
structure Mountable (c : Image) : Prop where
  hint : (superblock c).blocksizeHint.toNat % 32 ≤ 21
  blocksInBlockgroup : (superblock c).blocksInBlockgroup ≠ 0
  signed : le16 c (1024 + 56) = 0xEF53 → (superblock c).inodesInBlockgroup ≠ 0 ∧
    ((superblock c).blocksizeHint.toNat % 32 ≤ 2 ∨
      (superblock c).blocksizeHint.toNat % 32 = 21)

theorem blocksize_ne_zero {hint : UInt32} :
    (1024 : UInt32) <<< hint ≠ 0 ↔ hint.toNat % 32 ≤ 21 := by
  rw [toNat_blocksize, ne_eq, (blocksize_cases _ (Nat.mod_lt _ (by decide))).1]
  omega

/-! ## Runs -/

section

variable {δ δ' : Type} [Layout] {ide : Ide δ} {ide' : Ide δ'} {device : DeviceInfo}
  {priv : Ext2PrivData} {D : DeviceView δ δ'}

/-- What follows the search does not reach the device. -/
theorem at_searched (hD : Admits D) {fuel : Nat} {sysCfg syscfgInode : UInt32} {k : Kernel δ}
    (hfind : View.At D.kernel (ext2FindFileInode ide device priv fuel sysCfg syscfgInode)
      (ext2FindFileInode ide' device priv fuel sysCfg syscfgInode) k) (sb privPage : UInt32) :
    View.At D.kernel (ext2InitSearch ide device fuel sysCfg sb privPage priv syscfgInode)
      (ext2InitSearch ide' device fuel sysCfg sb privPage priv syscfgInode) k := by
  refine hfind.bind fun _ => ?_
  refine .bind (simulates_read16 syscfgInode) fun type => ?_
  have hrelease : Simulates D.kernel
      (do kfree syscfgInode 1; kfree sb 1; kfree privPage 1)
      (do kfree syscfgInode 1; kfree sb 1; kfree privPage 1) :=
    .bind (simulates_kfree hD _ 1) fun _ => .bind (simulates_kfree hD _ 1) fun _ =>
      simulates_kfree hD _ 1
  refine .ite ?_ hrelease
  exact .bind (simulates_kprint _) fun _ => .bind (simulates_kprint _) fun _ =>
    .bind (simulates_kprint _) fun _ => .bind (simulates_kernelExit hD 3) fun _ => hrelease

theorem simulates_searched (hD : Admits D) {fuel : Nat} {sysCfg syscfgInode : UInt32}
    (hfind : Simulates D.kernel (ext2FindFileInode ide device priv fuel sysCfg syscfgInode)
      (ext2FindFileInode ide' device priv fuel sysCfg syscfgInode)) (sb privPage : UInt32) :
    Simulates D.kernel (ext2InitSearch ide device fuel sysCfg sb privPage priv syscfgInode)
      (ext2InitSearch ide' device fuel sysCfg sb privPage priv syscfgInode) :=
  fun k hk => at_searched hD (hfind k hk) sb privPage

theorem simulates_ext2InitSearch (h : Sees D ide ide' device priv) (fuel : Nat)
    (sysCfg sb privPage syscfgInode : UInt32) :
    Simulates D.kernel (ext2InitSearch ide device fuel sysCfg sb privPage priv syscfgInode)
      (ext2InitSearch ide' device fuel sysCfg sb privPage priv syscfgInode) :=
  simulates_searched h.toAdmits (simulates_ext2FindFileInode h fuel sysCfg syscfgInode) sb privPage

end

/-- The same driver, which never answers once it was asked `n` times. -/
def Ide.stopping {δ : Type} (n : Nat) (ide : Ide δ) : Ide (δ × List UInt32) where
  readSectors drive numsects lba es edi := do
    if n ≤ (← get).dev.2.length then
      throw .noAnswer
    ide.recorded.readSectors drive numsects lba es edi
  writeSectors := ide.recorded.writeSectors

/-- Runs with `n` requests at most, seen with this driver. -/
def countView (n : Nat) : DeviceView (Disk × List UInt32) (Disk × List UInt32) where
  map d := d
  inv _ := True
  good d := d.2.length ≤ n
  stops e := e ≠ .noAnswer

/-- Runs that do not divide by zero, and ask for nothing more if a block has no
sectors. -/
def quietView (priv : Ext2PrivData) : DeviceView (Disk × List UInt32) (Disk × List UInt32) where
  map d := d
  inv d := priv.sectorsPerBlock.toInt32.toInt ≤ 0 → d.2.length ≤ 2
  good _ := True
  stops e := e ≠ .divideError

theorem stopping_run {n : Nat} {drive numsects : UInt8} {lba : UInt32} {es : UInt16}
    {edi : UInt32} {s : Machine (Disk × List UInt32)} (h : s.dev.2.length < n) :
    ((Disk.ide.stopping n).readSectors drive numsects lba es edi).run s =
      (Disk.ide.recorded.readSectors drive numsects lba es edi).run s := by
  refine (Exec.bind_ok (EStateM.run_get s)).trans ?_
  rw [if_neg (Nat.not_le.mpr h)]

theorem stopping_error {n : Nat} {drive numsects : UInt8} {lba : UInt32} {es : UInt16}
    {edi : UInt32} {s : Machine (Disk × List UInt32)} (h : n ≤ s.dev.2.length) :
    ((Disk.ide.stopping n).readSectors drive numsects lba es edi).run s =
      .error .noAnswer s := by
  refine (Exec.bind_ok (EStateM.run_get s)).trans ?_
  rw [if_pos h]
  rfl

theorem simulates_stopping (n : Nat) (drive numsects : UInt8) (lba : UInt32) (es : UInt16)
    (edi : UInt32) : Simulates (countView n).machine
      (Disk.ide.recorded.readSectors drive numsects lba es edi)
      ((Disk.ide.stopping n).readSectors drive numsects lba es edi) := by
  intro s _
  have hrun := Disk.recorded_run drive numsects lba es edi s
  refine at_ok hrun trivial fun hgood => ?_
  have hlen : s.dev.2.length + 1 ≤ n := by
    have hgood : (s.dev.2 ++ [lba]).length ≤ n := hgood
    rwa [List.length_append, List.length_singleton] at hgood
  exact ⟨Nat.le_of_succ_le hlen, (stopping_run hlen).trans hrun⟩

/-- A request that is not forbidden by its view. -/
theorem simulates_quiet {priv : Ext2PrivData} (h : 0 < priv.sectorsPerBlock.toInt32.toInt)
    (drive numsects : UInt8) (lba : UInt32) (es : UInt16) (edi : UInt32) :
    Simulates (quietView priv).machine
      (Disk.ide.recorded.readSectors drive numsects lba es edi)
      (Disk.ide.recorded.readSectors drive numsects lba es edi) := fun s _ =>
  have hrun := Disk.recorded_run drive numsects lba es edi s
  at_ok hrun (fun hneg => absurd h (Int.not_lt.mpr hneg)) fun _ => ⟨trivial, hrun⟩

section

variable [Layout] {dev : DeviceInfo} {rel : Nat} {priv : Ext2PrivData}

theorem sees_stopping (hg : Geometry dev rel) (hd : Divides priv) (n : Nat) :
    Sees (countView n) Disk.ide.recorded (Disk.ide.stopping n) dev priv where
  stops _ _ h := h
  toDivides := hd
  sector _ _ buffer :=
    simulates_readSector (⟨fun _ _ h => h⟩ : Admits (countView n)) hg
      (fun drive edi => simulates_stopping n drive 1 _ 0 edi) buffer

theorem sees_quiet (hg : Geometry dev rel) (hd : Divides priv) :
    Sees (quietView priv) Disk.ide.recorded Disk.ide.recorded dev priv where
  stops _ h _ := h
  toDivides := hd
  sector hpos _ buffer :=
    simulates_readSector (⟨fun _ h _ => h⟩ : Admits (quietView priv)) hg
      (fun drive edi => simulates_quiet hpos drive 1 _ 0 edi) buffer

/-- Where groups have no inodes, the first division by their number traps. -/
theorem ext2ReadInode_divideError {δ : Type} {ide : Ide δ} {k : Kernel δ} {inode buf : UInt32}
    (h : priv.sb.inodesInBlockgroup = 0) :
    (ext2ReadInode ide dev priv inode buf).run k = .error .divideError k := by
  rw [ext2ReadInode, udiv, if_pos h]
  rfl

/-- With a driver that is through with its answers, the first block is waited for. -/
theorem ext2ReadInode_noAnswer {n : Nat} {k : Kernel (Disk × List UInt32)} {inode buf : UInt32}
    (hg : Geometry dev rel) (hd : Divides priv)
    (hpos : 0 < priv.sectorsPerBlock.toInt32.toInt) (hfree : 2 ≤ freeCount k.kMemoryMap)
    (hlog : n ≤ k.dev.2.length) :
    ∃ k', (ext2ReadInode (Disk.ide.stopping n) dev priv inode buf).run k =
      .error .noAnswer k' := by
  obtain ⟨i, k₁, h₁⟩ := kmalloc_takes (k := k) (by omega)
  have hcount := h₁.count
  obtain ⟨j, k₂, h₂⟩ := kmalloc_takes (k := k₁) (by omega)
  have hdev : k₂.dev = k.dev := h₂.dev.trans h₁.dev
  obtain ⟨m, hm⟩ := Nat.exists_eq_add_one_of_ne_zero
    (n := priv.sectorsPerBlock.toInt32.toInt.toNat) (by omega)
  refine ⟨k₂, ?_⟩
  rw [ext2ReadInode, Exec.bind_ok (Kern.ofExcept_run (udiv_ok hd.inodesInBlockgroup)),
    Exec.bind_ok h₁.run]
  refine Exec.bind_error (Exec.bind_error ?_)
  rw [readSectors, hm, sectorsLoop]
  refine Exec.bind_error ?_
  rw [readSector, Exec.bind_ok h₂.run, Exec.bind_ok (locate_run hg)]
  exact Exec.bind_error (Kern.ofMachine_error (stopping_error (by
    show n ≤ k₂.dev.2.length
    rw [hdev]
    exact hlog)))

/-! ## Every superblock -/

variable (dev rel) (fuel : Nat) (k : Kernel Disk) (sysCfg : UInt32)

/-- The kernel when it calls `ext2_init`: the drive delivers the two sectors of
the superblock, and nine pages are free. -/
structure Mounts : Prop where
  holds : Holds dev rel k.dev
  first : k.dev.answer (placeOf rel 2).realSector = 0
  second : k.dev.answer (placeOf rel 3).realSector = 0
  pages : 9 ≤ freeCount k.kMemoryMap
  sysCfg : HoldsSysCfg k sysCfg

/-- `ext2_init` does not divide by zero; it asks for more than the superblock only
if a block fits in a page; and it reports a missing signature and returns. -/
structure MountsSafely : Prop where
  divides : ∀ k', (ext2Init Disk.ide.recorded dev fuel sysCfg).run k.recording ≠
    .error .divideError k'
  fits : ∀ priv, fillPrivData (superblock k.dev.content) = .ok priv →
    2 < (final ((ext2Init Disk.ide.recorded dev fuel sysCfg).run k.recording)).dev.2.length →
    priv.sectorsPerBlock.toNat * 512 ≤ 4096
  reports : le16 k.dev.content (1024 + 56) ≠ 0xEF53 → ∃ k',
    (ext2Init Disk.ide.recorded dev fuel sysCfg).run k.recording = .ok () k' ∧
      k'.console.getLast? = some (.str "\\ error: invalid ext2 signature\n")

variable {dev rel fuel k sysCfg}

theorem Mounts.delivers₁ (h : Mounts dev rel k sysCfg) :
    Delivers Disk.ide.recorded k.recording.dev (k.dev, [(placeOf rel 2).realSector])
      (placeOf rel 2).realSector (512 * rel) k.dev.content :=
  h.holds.sectorSize ▸ Disk.recorded_delivers h.first []

theorem Mounts.delivers₂ (h : Mounts dev rel k sysCfg) :
    Delivers Disk.ide.recorded (k.dev, [(placeOf rel 2).realSector])
      (k.dev, [(placeOf rel 2).realSector, (placeOf rel 3).realSector])
      (placeOf rel 3).realSector (512 * rel) k.dev.content :=
  h.holds.sectorSize ▸ Disk.recorded_delivers h.second [(placeOf rel 2).realSector]

/-- With the signature, the search for `sys.cfg` begins after two requests. -/
theorem ext2Init_signed (h : Mounts dev rel k sysCfg)
    (hpriv : fillPrivData (superblock k.dev.content) = .ok priv)
    (hsig : le16 k.dev.content (1024 + 56) = 0xEF53) (fuel : Nat) :
    ∃ s p n k', k'.dev = (k.dev, [(placeOf rel 2).realSector, (placeOf rel 3).realSector]) ∧
      6 ≤ freeCount k'.kMemoryMap ∧ HoldsSysCfg k' sysCfg ∧
      (ext2Init Disk.ide.recorded dev fuel sysCfg).run k.recording =
        (ext2InitSearch Disk.ide.recorded dev fuel sysCfg s p priv n).run k' := by
  have hpages := h.pages
  obtain ⟨s, p, k₁, -, -, hmap₁, hdev₁, hsb, hfree₁, hoff₁, hrun⟩ := ext2Init_checked
    (k := k.recording) fuel sysCfg h.holds.geometry (show 2 ≤ freeCount k.kMemoryMap by omega)
    h.delivers₁ h.delivers₂ hpriv
  obtain ⟨k₂, hmem₂, hmap₂, hdev₂, hvalid⟩ := ext2InitChecked_valid Disk.ide.recorded dev
    fuel sysCfg (blockAddr p) priv hsb hsig
  have hcount : freeCount k₁.kMemoryMap + 2 = freeCount k.kMemoryMap := by
    rw [hmap₁]
    exact freeCount_taken_taken (show 2 ≤ freeCount k.kMemoryMap by omega)
  obtain ⟨n, k₃, h₃⟩ := kmalloc_takes (k := k₂) (by rw [hmap₂]; omega)
  have hcount₃ := h₃.count
  rw [hmap₂] at hcount₃
  have hcfg : HoldsSysCfg k.recording sysCfg := ⟨h.sysCfg.string, h.sysCfg.apart⟩
  have hcfg₂ : HoldsSysCfg k₂ sysCfg := (hcfg.congr hfree₁ hoff₁).congr
    (fun a ha => hmap₂ ▸ ha) fun a _ => congrFun hmem₂ a
  refine ⟨blockAddr s, blockAddr p, blockAddr n, k₃, ?_, by omega,
    hcfg₂.congr h₃.freeAt h₃.sameOff, hrun.trans (hvalid.trans (Exec.bind_ok h₃.run))⟩
  rw [h₃.dev, hdev₂, hdev₁]

/-- Without the signature, two sectors are asked for and the run returns. -/
theorem ext2Init_unsigned (h : Mounts dev rel k sysCfg)
    (hpriv : fillPrivData (superblock k.dev.content) = .ok priv)
    (hsig : le16 k.dev.content (1024 + 56) ≠ 0xEF53) (fuel : Nat) :
    ∃ k', (ext2Init Disk.ide.recorded dev fuel sysCfg).run k.recording = .ok () k' ∧
      k'.dev.2.length = 2 ∧
      k'.console.getLast? = some (.str "\\ error: invalid ext2 signature\n") := by
  have hpages := h.pages
  obtain ⟨s, p, k₁, -, -, -, hdev₁, hsb, -, -, hrun⟩ := ext2Init_checked (k := k.recording) fuel
    sysCfg h.holds.geometry (show 2 ≤ freeCount k.kMemoryMap by omega) h.delivers₁ h.delivers₂
    hpriv
  refine ⟨_, hrun.trans (ext2InitChecked_invalid fuel sysCfg (blockAddr p) priv hsb hsig), ?_, ?_⟩
  · rw [Kernel.print_dev, hdev₁]
    rfl
  · exact List.getLast?_concat

omit [Layout] in
/-- Behind the signature the one divisor left is the number of inodes in a group. -/
theorem divides_of_fill {sb : Superblock} (hpriv : fillPrivData sb = .ok priv)
    (hinodes : sb.inodesInBlockgroup ≠ 0) : Divides priv := by
  obtain ⟨hsb, hsize, -, hper⟩ := fillPrivData_fields hpriv
  have hhint : sb.blocksizeHint.toNat % 32 ≤ 21 := by
    by_contra hhint
    rw [fillPrivData_error fun h => hhint (blocksize_ne_zero.mp h.1)] at hpriv
    cases hpriv
  refine ⟨?_, ?_, ?_⟩
  · rw [hsb]
    exact Nat.pos_of_ne_zero fun h0 => hinodes (UInt32.toNat_inj.mp h0)
  · rw [hsize]
    exact Nat.pos_of_ne_zero fun h0 => blocksize_ne_zero.mpr hhint (UInt32.toNat_inj.mp h0)
  · rw [hper, toNat_blocksize]
    exact (blocksize_cases _ (Nat.mod_lt _ (by decide))).2.1 hhint

/-- With the signature and inodes in a group, the run does not divide by zero, and
asks for a block exactly if a block has sectors. -/
theorem ext2Init_requests (h : Mounts dev rel k sysCfg) (hfuel : 8 ≤ fuel)
    (hpriv : fillPrivData (superblock k.dev.content) = .ok priv)
    (hsig : le16 k.dev.content (1024 + 56) = 0xEF53)
    (hinodes : (superblock k.dev.content).inodesInBlockgroup ≠ 0) :
    (∀ k', (ext2Init Disk.ide.recorded dev fuel sysCfg).run k.recording ≠
      .error .divideError k') ∧
    (2 < (final ((ext2Init Disk.ide.recorded dev fuel sysCfg).run k.recording)).dev.2.length ↔
      0 < priv.sectorsPerBlock.toInt32.toInt) := by
  have hg := h.holds.geometry
  have hd := divides_of_fill hpriv hinodes
  obtain ⟨s, p, n, k₁, hdev, hfree, hcfg, hrun⟩ := ext2Init_signed h hpriv hsig fuel
  have hlog : k₁.dev.2.length = 2 := by
    rw [hdev]
    rfl
  have hquiet := simulates_ext2InitSearch (sees_quiet hg hd) fuel sysCfg s p n k₁
    fun _ => Nat.le_of_eq hlog
  rw [hrun]
  refine ⟨fun k' herror => hquiet.stops _ k' herror rfl, fun hmore => ?_, fun hpos => ?_⟩
  · by_contra hneg
    exact Nat.not_le.mpr hmore (hquiet.inv (Int.not_lt.mp hneg))
  · -- otherwise a driver that answers twice could not be told from this one
    by_contra hfew
    have hcount := simulates_ext2InitSearch (sees_stopping hg hd 2) fuel sysCfg s p n k₁ trivial
    obtain ⟨-, hseen⟩ := hcount.seen (Nat.not_lt.mp hfew)
    obtain ⟨k₂, hstop⟩ := findSysCfg_error (Disk.ide.stopping 2) dev priv n hcfg hfuel
      (by omega) fun inode k' hdev hpages => ext2ReadInode_noAnswer hg hd hpos (by omega)
        (by rw [hdev, hlog])
    have hstopped : (ext2InitSearch (Disk.ide.stopping 2) dev fuel sysCfg s p priv n).run k₁ =
        .error .noAnswer k₂ := Exec.bind_error hstop
    rw [show (countView 2).kernel.map k₁ = k₁ from rfl, hstopped] at hseen
    cases hfinal : (ext2InitSearch Disk.ide.recorded dev fuel sysCfg s p priv n).run k₁ with
    | ok a k' =>
        rw [hfinal] at hseen
        cases hseen
    | error e k' =>
        rw [hfinal] at hseen
        injection hseen with he
        exact hcount.stops e k' hfinal he.symm

/-- The superblocks that mount safely. -/
theorem ext2Init_iff (h : Mounts dev rel k sysCfg) (hfuel : 8 ≤ fuel) :
    MountsSafely dev fuel k sysCfg ↔ Mountable k.dev.content := by
  have hpages := h.pages
  have hj := Nat.mod_lt (superblock k.dev.content).blocksizeHint.toNat (show 32 > 0 by decide)
  obtain ⟨hzero, -, hsmall, hlarge, hnegative⟩ := blocksize_cases _ hj
  rw [← toNat_blocksize] at hzero hsmall hlarge hnegative
  constructor
  · intro hsafe
    by_cases hfill : (1024 : UInt32) <<< (superblock k.dev.content).blocksizeHint ≠ 0 ∧
        (superblock k.dev.content).blocksInBlockgroup ≠ 0
    · obtain ⟨priv, hpriv⟩ := fillPrivData_ok hfill.1 hfill.2
      obtain ⟨hsb, -, hsectors, -⟩ := fillPrivData_fields hpriv
      refine ⟨blocksize_ne_zero.mp hfill.1, hfill.2, fun hsig => ?_⟩
      have hinodes : (superblock k.dev.content).inodesInBlockgroup ≠ 0 := by
        intro h0
        obtain ⟨s, p, n, k₁, -, hfree, hcfg, hrun⟩ := ext2Init_signed h hpriv hsig fuel
        obtain ⟨k₂, hstop⟩ := findSysCfg_error Disk.ide.recorded dev priv n hcfg hfuel
          (by omega) fun inode k' _ _ => ⟨k', ext2ReadInode_divideError (by rw [hsb]; exact h0)⟩
        exact hsafe.divides k₂ (hrun.trans (Exec.bind_error hstop))
      refine ⟨hinodes, ?_⟩
      by_contra hmiddle
      obtain ⟨-, hrequests⟩ := ext2Init_requests h hfuel hpriv hsig hinodes
      have hhint := blocksize_ne_zero.mp hfill.1
      obtain ⟨hbig, hpos⟩ := hlarge (by omega) (by omega)
      rw [← hsectors] at hbig hpos
      exact Nat.not_le.mpr hbig (hsafe.fits priv hpriv (hrequests.mpr hpos))
    · obtain ⟨k', herror⟩ := ext2Init_error (k := k.recording) fuel sysCfg h.holds.geometry
        (show 2 ≤ freeCount k.kMemoryMap by omega) h.delivers₁ h.delivers₂
        (fillPrivData_error hfill)
      exact absurd herror (hsafe.divides k')
  · rintro ⟨hhint, hgroup, hsigned⟩
    obtain ⟨priv, hpriv⟩ := fillPrivData_ok (blocksize_ne_zero.mpr hhint) hgroup
    obtain ⟨-, -, hsectors, -⟩ := fillPrivData_fields hpriv
    have hsame : ∀ priv', fillPrivData (superblock k.dev.content) = .ok priv' → priv' = priv := by
      intro priv' h'
      rw [hpriv] at h'
      injection h' with h'
      exact h'.symm
    by_cases hsig : le16 k.dev.content (1024 + 56) = 0xEF53
    · obtain ⟨hinodes, hfits⟩ := hsigned hsig
      obtain ⟨hdivides, hrequests⟩ := ext2Init_requests h hfuel hpriv hsig hinodes
      refine ⟨hdivides, fun priv' h' hmore => ?_, fun hne => absurd hsig hne⟩
      rw [hsame priv' h', hsectors]
      rcases hfits with hle | hlast
      · exact hsmall hle
      · have hpos := hrequests.mp hmore
        rw [hsectors] at hpos
        exact absurd (hnegative hlast) (Int.not_le.mpr hpos)
    · obtain ⟨k', hrun, hlog, hmsg⟩ := ext2Init_unsigned h hpriv hsig fuel
      refine ⟨fun k'' herror => ?_, fun priv' _ hmore => ?_, fun _ => ⟨k', hrun, hmsg⟩⟩
      · rw [hrun] at herror
        cases herror
      · rw [hrun, final_ok, hlog] at hmore
        exact absurd hmore (by decide)

end

theorem mountState_mounts [Layout] (c : Image) :
    Mounts ⟨0, 0, 0, 512⟩ 1 (mountState c) 0x1000 where
  holds := ⟨⟨.inl rfl, rfl⟩, rfl⟩
  first := show (Disk.blank 1 32).answer (placeOf 1 2).realSector = 0 by decide
  second := show (Disk.blank 1 32).answer (placeOf 1 3).realSector = 0 by decide
  pages := show 9 ≤ freeCount (Kernel.zero ()).kMemoryMap by simp
  sysCfg := mountState_holdsSysCfg c

/-- A superblock with the signature and 16 blocks and inodes in a group. -/
def signedVolume : Image := .ofBytes [(1056, 16), (1064, 16), (1080, 0x53), (1081, 0xEF)]

theorem ext2Init_iff_signed : ∃ _ : Layout,
    Mounts ⟨0, 0, 0, 512⟩ 1 (mountState signedVolume) 0x1000 ∧
      MountsSafely ⟨0, 0, 0, 512⟩ 0x1000 (mountState signedVolume) 0x1000 := by
  let _ := bootLayout
  have hm := mountState_mounts signedVolume
  refine ⟨bootLayout, hm, (ext2Init_iff hm (by decide)).mpr ⟨?_, ?_, fun _ => ⟨?_, .inl ?_⟩⟩⟩
  · exact show (superblock signedVolume).blocksizeHint.toNat % 32 ≤ 21 by decide
  · exact show (superblock signedVolume).blocksInBlockgroup ≠ 0 by decide
  · exact show (superblock signedVolume).inodesInBlockgroup ≠ 0 by decide
  · exact show (superblock signedVolume).blocksizeHint.toNat % 32 ≤ 2 by decide

/-- On a drive of zeros the division by the number of blocks in a group traps before
the signature is looked at. -/
theorem ext2Init_zeros : ∃ _ : Layout,
    Mounts ⟨0, 0, 0, 512⟩ 1 (mountState fun _ => 0) 0x1000 ∧
      ¬ MountsSafely ⟨0, 0, 0, 512⟩ 0x1000 (mountState fun _ => 0) 0x1000 := by
  let _ := bootLayout
  have hm := mountState_mounts fun _ => 0
  have hpages := hm.pages
  have hzero : (superblock fun _ => 0).blocksInBlockgroup = 0 := by decide
  obtain ⟨k', herror⟩ := ext2Init_error (k := (mountState fun _ => 0).recording) 0x1000 0x1000
    hm.holds.geometry (Nat.le_trans (by decide) hpages) hm.delivers₁ hm.delivers₂
    (fillPrivData_error fun h => h.2 hzero)
  exact ⟨bootLayout, hm, fun hsafe => hsafe.divides k' herror⟩

end Bedrock
