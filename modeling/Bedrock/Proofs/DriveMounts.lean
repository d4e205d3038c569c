import Bedrock.Proofs.DriveVolumes
import Bedrock.Proofs.MountReads

/-!
# Mounting a drive

`ext2_init` through the driver, the way it is called at boot: whatever the superblock says,
it is `ext2_init` on the disk (`ext2Init_drive`). Here a divide error must be seen as well,
for nothing is known of the medium. Of what mounting computes only the number of inodes in a
group can be zero without a trap in `fill_priv_data`, and then the first inode traps. A drive
that has the sectors of mounting ready makes the run end well (`ext2Init_prompt`), so what a
volume decides at boot is decided on such a drive (`ext2Init_volume`).
-/

namespace Bedrock

open Lib Lib.Exec Image

/-! ## Arithmetic that traps -/

section

variable {δ δ' : Type} {D : DeviceView δ δ'}

/-- Arithmetic that may trap. -/
theorem simulates_ofExcept_stops {α : Type} (hstops : ∀ e, D.stops e) (x : Except Halt α) :
    Simulates D.kernel (Kern.ofExcept x) (Kern.ofExcept x) := by
  cases x with
  | ok a => exact .pure a
  | error e => exact .throw (hstops e)

theorem simulates_storePrivData (hstops : ∀ e, D.stops e) (sb priv : UInt32) :
    Simulates D.kernel (storePrivData sb priv) (storePrivData sb priv) := by
  refine .bind_get fun k hk => ?_
  refine Simulates.bind (simulates_ofExcept_stops hstops _) (fun data => ?_) k hk
  refine .bind (.modify (fun _ h => h) (fun _ h => h) fun _ => rfl) fun _ => ?_
  exact .bind (simulates_memoryCopy _ _ _) fun _ => .pure data

theorem storePrivData_inv {k k' : Kernel δ} {sb p : UInt32} {priv : Ext2PrivData}
    (h : (storePrivData sb p).run k = .ok priv k') :
    ∃ s : Superblock, fillPrivData s = .ok priv := by
  rw [storePrivData, Exec.bind_ok (EStateM.run_get k)] at h
  obtain ⟨data, k₁, hdata, h⟩ := Exec.bind_inv h
  obtain ⟨_, k₂, -, h⟩ := Exec.bind_inv h
  obtain ⟨_, k₃, -, h⟩ := Exec.bind_inv h
  obtain ⟨rfl, -⟩ := Exec.pure_inv h
  refine ⟨loadSuperblock k.mem sb, ?_⟩
  cases hfill : fillPrivData (loadSuperblock k.mem sb) with
  | ok s =>
      rw [hfill] at hdata
      cases hdata
      rfl
  | error e =>
      rw [hfill] at hdata
      cases hdata

variable [Layout] {ide : Ide δ} {ide' : Ide δ'} {device : DeviceInfo} {priv : Ext2PrivData}

/-- No inode is in a group without inodes. -/
theorem ext2ReadInode_groupless (ide : Ide δ) (device : DeviceInfo) (inode inodeBuf : UInt32)
    (hinodes : priv.sb.inodesInBlockgroup = 0) (k : Kernel δ) :
    (ext2ReadInode ide device priv inode inodeBuf).run k = .error .divideError k := by
  have hdiv : (Kern.ofExcept (udiv (inode - 1) priv.sb.inodesInBlockgroup) :
      Kern δ UInt32).run k = .error .divideError k := by
    rw [udiv, if_pos hinodes]
    rfl
  rw [ext2ReadInode, Exec.bind_error hdiv]

section

variable (hstops : ∀ e, D.stops e) (hinodes : priv.sb.inodesInBlockgroup = 0)

include hstops hinodes

/-- The search ends at the first inode. -/
theorem simulates_groupless {α : Type} (inode inodeBuf : UInt32) (f : Unit → Kern δ α)
    (g : Unit → Kern δ' α) :
    Simulates D.kernel (ext2ReadInode ide device priv inode inodeBuf >>= f)
      (ext2ReadInode ide' device priv inode inodeBuf >>= g) := by
  intro k hk
  refine at_error (Exec.bind_error (ext2ReadInode_groupless ide device inode inodeBuf hinodes k))
    hk (hstops _) fun hgood => ⟨hgood, ?_⟩
  exact Exec.bind_error (ext2ReadInode_groupless ide' device inode inodeBuf hinodes _)

theorem simulates_ext2FindFileInode_groupless (fuel : Nat) (ff inodeBuf : UInt32) :
    Simulates D.kernel (ext2FindFileInode ide device priv fuel ff inodeBuf)
      (ext2FindFileInode ide' device priv fuel ff inodeBuf) := by
  have hD : Admits D := ⟨fun e _ _ => hstops e⟩
  refine simulates_lookup hD fuel ff inodeBuf (fun inode rootBuf filename n => ?_)
    fun filename inode => ?_
  · exact simulates_groupless hstops hinodes _ _ _ _
  · exact .bind (simulates_kmalloc hD 1) fun root => simulates_groupless hstops hinodes _ _ _ _

end

/-! ## `ext2_init` -/

variable (hstops : ∀ e, D.stops e)
  (hsector : ∀ sector buffer, Simulates D.kernel (readSector ide device sector buffer)
    (readSector ide' device sector buffer))

include hstops hsector

theorem simulates_ext2InitSearch_filled (fuel : Nat) (sysCfg sb privPage syscfgInode : UInt32)
    {s : Superblock} (hpriv : fillPrivData s = .ok priv) :
    Simulates D.kernel (ext2InitSearch ide device fuel sysCfg sb privPage priv syscfgInode)
      (ext2InitSearch ide' device fuel sysCfg sb privPage priv syscfgInode) := by
  have hD : Admits D := ⟨fun e _ _ => hstops e⟩
  by_cases hinodes : s.inodesInBlockgroup = 0
  · rw [← (fillPrivData_fields hpriv).1] at hinodes
    exact simulates_searched hD
      (simulates_ext2FindFileInode_groupless hstops hinodes fuel sysCfg syscfgInode) sb privPage
  · exact simulates_ext2InitSearch ⟨hD, divides_of_fill hpriv hinodes, fun _ => hsector⟩ fuel
      sysCfg sb privPage syscfgInode

/-- Mounting, whatever the device holds. -/
theorem simulates_ext2Init (fuel : Nat) (sysCfg : UInt32) :
    Simulates D.kernel (ext2Init ide device fuel sysCfg) (ext2Init ide' device fuel sysCfg) := by
  have hD : Admits D := ⟨fun e _ _ => hstops e⟩
  refine .bind (simulates_kprint _) fun _ => .bind (simulates_kprint _) fun _ => ?_
  refine .bind (simulates_kmalloc hD 1) fun sb => ?_
  refine .bind (simulates_sectorsLoop hsector _ _ _ _) fun _ => ?_
  refine .bind (simulates_kmalloc hD 1) fun privPage => fun k hk => ?_
  have hstore := simulates_storePrivData hstops sb privPage k hk
  refine hstore.bind_at fun priv k' hrun => ?_
  obtain ⟨s, hpriv⟩ := storePrivData_inv hrun
  refine Simulates.bind (simulates_read16 _) (fun sig => .ite ?_ ?_) k' (hstore.of_ok hrun).1
  · exact .bind (simulates_kprint _) fun _ => .pure ()
  refine .bind (simulates_kprint _) fun _ => .bind (simulates_kprint _) fun _ =>
    .bind (simulates_read32 _) fun _ => .bind (simulates_kprintInt _) fun _ =>
      .bind (simulates_kprint _) fun _ => ?_
  exact .bind (simulates_kmalloc hD 1) fun syscfgInode =>
    simulates_ext2InitSearch_filled hstops hsector fuel sysCfg sb privPage syscfgInode hpriv

end

/-! ## On a drive -/

section

variable [Layout] {junk : UInt8} {C : Cable} {device : DeviceInfo} {priv : Ext2PrivData}
  {k : Kernel Ata} {fuel : Nat} {sysCfg : UInt32}

/-- On a drive that moved its blocks as drives do, `ext2_init` through the driver does what it
does on the disk, from any state and whatever the medium holds. -/
theorem ext2Init_drive (hC : C.Backs device) (hattached : C.Attached k.dev)
    (hgood : C.Good (final ((ext2Init (Ata.ide junk) device fuel sysCfg).run k)).dev) :
    (ext2Init Disk.ide device fuel sysCfg).run (C.view.kernel.map k) =
      C.view.kernel.result ((ext2Init (Ata.ide junk) device fuel sysCfg).run k) :=
  ((simulates_ext2Init (fun _ => trivial) (fun _ _ => Cable.simulates_readSector hC) fuel sysCfg
    k hattached).seen hgood).2

end

/-! ## On a drive that answers promptly -/

section

variable [Layout] {C : Cable} {device : DeviceInfo} {priv : Ext2PrivData} {k : Kernel Ata}
  {fuel : Nat} {sysCfg : UInt32} {lbas : List UInt32}

/-- Where the drive answers the requests of mounting promptly, nothing goes wrong. -/
theorem ext2Init_prompt (junk : UInt8) (hC : C.Backs device)
    (hboots : Boots device 1 C.device.size.toNat priv (C.view.kernel.map k) sysCfg)
    (hfuel : 0x1000 ≤ fuel) (hfree : 9 ≤ freeCount k.kMemoryMap) (hprompt : C.Prompt lbas k.dev)
    (hlog : (final ((ext2Init Disk.ide.recorded device fuel sysCfg).run
      (C.view.kernel.map k).recording)).dev.2 = lbas) :
    C.Good (final ((ext2Init (Ata.ide junk) device fuel sysCfg).run k)).dev := by
  have hrequests := ext2Init_requests_mem hboots hfuel hfree
  rw [hlog] at hrequests
  have hin : ∀ lba ∈ lbas, lba.toNat < C.device.size.toNat := fun lba hlba =>
    (hboots.mounted.serves.answers lba).mp
      (mountSectors_answered hboots.mounted lba (hrequests lba hlba))
  exact Cable.prompt_good hC.toUsable hprompt hin (simulates_ext2Init (fun _ => trivial)
    (Cable.simulates_servedSector hC hprompt hin junk) fuel sysCfg) hlog

end

/-- The kernel of `mountState`, over a drive that has these sectors ready. -/
def mountKernel (name : List UInt8) (lbas : List UInt32) : Kernel Ata :=
  promptKernel (mountState (bootVolume name)) lbas

section

variable [Layout] {name : List UInt8} {lbas : List UInt32}

omit [Layout] in
theorem mountKernel_content :
    ((promptCable (bootVolume name) lbas).disk (mountKernel name lbas).dev).content =
      bootVolume name := rfl

theorem mountKernel_boots (hname : name = [97] ∨ name = sysCfgName) :
    Boots ⟨0, 0, 0, 512⟩ 1 (promptCable (bootVolume name) lbas).device.size.toNat
      ⟨superblock (bootVolume name), 2, 1, 1024, 2, 8⟩
      ((promptCable (bootVolume name) lbas).view.kernel.map (mountKernel name lbas)) 0x1000 :=
  have hcfg := mountState_holdsSysCfg (bootVolume name)
  bootVolume_boots hname ((promptCable_backs _ lbas).serves (mountKernel name lbas).dev) rfl
    (show 32 ≤ 1000 by decide) ⟨hcfg.string, hcfg.apart⟩

omit [Layout] in
theorem mountKernel_free (name : List UInt8) (lbas : List UInt32) :
    9 ≤ freeCount (mountKernel name lbas).kMemoryMap :=
  show 9 ≤ freeCount (Kernel.zero ()).kMemoryMap by simp

/-- Some sectors are those it asks for, and with them ready it ends well. -/
theorem mountKernel_good (hname : name = [97] ∨ name = sysCfgName) (junk : UInt8) :
    ∃ lbas, (promptCable (bootVolume name) lbas).Attached (mountKernel name lbas).dev ∧
      (promptCable (bootVolume name) lbas).Good (final ((ext2Init (Ata.ide junk)
        ⟨0, 0, 0, 512⟩ 0x1000 0x1000).run (mountKernel name lbas))).dev := by
  obtain ⟨lbas, hlbas⟩ : ∃ lbas, (final ((ext2Init Disk.ide.recorded ⟨0, 0, 0, 512⟩
      0x1000 0x1000).run (promptState (mountState (bootVolume name))).recording)).dev.2 = lbas :=
    ⟨_, rfl⟩
  have hprompt : (promptCable (bootVolume name) lbas).Prompt lbas (mountKernel name lbas).dev :=
    promptKernel_prompt (mountState (bootVolume name)) lbas
  have hmap : (promptCable (bootVolume name) lbas).view.kernel.map (mountKernel name lbas) =
      promptState (mountState (bootVolume name)) := promptKernel_map _ _
  rw [← hmap] at hlbas
  exact ⟨lbas, hprompt.toAttached, ext2Init_prompt junk (promptCable_backs _ lbas)
    (mountKernel_boots hname) (Nat.le_refl 0x1000) (mountKernel_free name lbas) hprompt hlbas⟩

end

/-- A drive with a volume is mounted as the disk is, and stops where it does. -/
theorem ext2Init_drive_mounted : ∃ (_ : Layout) (lbas : List UInt32) (k' : Kernel Ata),
    let C := promptCable (bootVolume [97]) lbas
    let k := mountKernel [97] lbas
    (ext2Init (Ata.ide 0) ⟨0, 0, 0, 512⟩ 0x1000 0x1000).run k = .error (.exit 3) k' ∧
      (ext2Init Disk.ide ⟨0, 0, 0, 512⟩ 0x1000 0x1000).run (C.view.kernel.map k) =
        .error (.exit 3) (C.view.kernel.map k') := by
  let _ := bootLayout
  obtain ⟨lbas, hattached, hgood⟩ := mountKernel_good (.inl rfl) 0
  have hdrive := ext2Init_drive (promptCable_backs (bootVolume [97]) lbas) hattached hgood
  have hboots : Boots ⟨0, 0, 0, 512⟩ 1 (promptCable (bootVolume [97]) lbas).device.size.toNat _
      ((promptCable (bootVolume [97]) lbas).view.kernel.map (mountKernel [97] lbas)) 0x1000 :=
    mountKernel_boots (.inl rfl)
  obtain ⟨k₁, hrun⟩ := ext2Init_passes hboots (Nat.le_refl 0x1000) (mountKernel_free [97] lbas)
  have hpasses : ¬ PassesFor (bootVolume [97]) sysCfgName.tail := by decide
  have hcontent : ((promptCable (bootVolume [97]) lbas).view.kernel.map
    (mountKernel [97] lbas)).dev.content = bootVolume [97] := mountKernel_content
  rw [hcontent, if_neg hpasses] at hrun
  obtain ⟨k', hstop, rfl⟩ := View.of_result_error (hdrive.symm.trans hrun)
  exact ⟨bootLayout, lbas, k', hstop, hrun⟩

section

variable [Layout] {junk : UInt8} {C : Cable} {device : DeviceInfo} {priv : Ext2PrivData}
  {k : Kernel Ata} {fuel : Nat} {sysCfg : UInt32}

/-- So the check for `sys.cfg` on a drive with a volume is decided by the volume: by the first
two bytes of the root block where the search for the rest of the name stops. -/
theorem ext2Init_volume (hC : C.Backs device) (hattached : C.Attached k.dev)
    (hboots : Boots device 1 C.device.size.toNat priv (C.view.kernel.map k) sysCfg)
    (hfuel : 0x1000 ≤ fuel)
    (hgood : C.Good (final ((ext2Init (Ata.ide junk) device fuel sysCfg).run k)).dev) :
    ∃ k', (ext2Init (Ata.ide junk) device fuel sysCfg).run k =
      if freeCount k.kMemoryMap < 9 then .error (.exit 2) k'
      else if PassesFor (C.disk k.dev).content sysCfgName.tail then .ok () k'
      else .error (.exit 3) k' := by
  have hseen := ((simulates_ext2Init (fun _ => trivial)
    (fun _ _ => Cable.simulates_readSector hC) fuel sysCfg k hattached).seen hgood).2
  by_cases hfew : freeCount k.kMemoryMap < 9
  · obtain ⟨k₁, hexit⟩ := ext2Init_exit hboots (show 8 ≤ fuel by omega) hfew
    obtain ⟨k', hrun, -⟩ := View.of_result_error (hseen.symm.trans hexit)
    exact ⟨k', by rw [hrun, if_pos hfew]⟩
  obtain ⟨k₁, hpasses⟩ := ext2Init_passes hboots hfuel (Nat.not_lt.mp hfew)
  simp only [if_neg hfew]
  by_cases hpass : PassesFor (C.disk k.dev).content sysCfgName.tail
  · obtain ⟨k', hrun, -⟩ :=
      View.of_result_ok (hseen.symm.trans (hpasses.trans (if_pos hpass)))
    exact ⟨k', by rw [hrun, if_pos hpass]⟩
  · obtain ⟨k', hrun, -⟩ :=
      View.of_result_error (hseen.symm.trans (hpasses.trans (if_neg hpass)))
    exact ⟨k', by rw [hrun, if_neg hpass]⟩

end

/-- With `sys.cfg` on the volume of the drive, the volume's root blocks stop the kernel. -/
theorem ext2Init_volume_present : ∃ (_ : Layout) (lbas : List UInt32) (k' : Kernel Ata),
    HasFile (bootVolume sysCfgName) sysCfgName ∧
      (ext2Init (Ata.ide 0) ⟨0, 0, 0, 512⟩ 0x1000 0x1000).run (mountKernel sysCfgName lbas) =
        .error (.exit 3) k' := by
  let _ := bootLayout
  obtain ⟨lbas, hattached, hgood⟩ := mountKernel_good (.inr rfl) 0
  obtain ⟨k', hrun⟩ := ext2Init_volume (promptCable_backs (bootVolume sysCfgName) lbas) hattached
    (mountKernel_boots (.inr rfl)) (Nat.le_refl 0x1000) hgood
  have hpasses : ¬ PassesFor (bootVolume sysCfgName) sysCfgName.tail := by decide
  rw [if_neg (Nat.not_lt.mpr (mountKernel_free _ _)), mountKernel_content, if_neg hpasses] at hrun
  exact ⟨bootLayout, lbas, k', by decide, hrun⟩

end Bedrock
