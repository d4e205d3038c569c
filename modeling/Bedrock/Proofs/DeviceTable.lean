import Bedrock.Drivers.StorageInit
import Bedrock.Proofs.DriveDetection
import Bedrock.Proofs.DriveStorage
import Bedrock.Proofs.PageBalance

/-!
# What `storage_driver_init` leaves

The entries of `vdevices` are the drives that were found, each of a geometry
the storage layer knows and with its own page in `ide_devices`
(`storageDriverInit_devices`): what the reads of the later kernel assume of a
device holds of all of them. A device costs a page if its test read fails, and
only then (`storageDriverInit_pages`).
-/

namespace Bedrock

open Lib

/-! ## What reading leaves alone -/

/-- What the test reads must not change: the drives, and how many test reads
the console shows to have succeeded. -/
def tested (s : Machine Ata) : (UInt8 → IdeDevice) × Nat :=
  (s.dev.ideDevices, s.console.count readAccessOk)

abbrev KeepsTested {α : Type} (x : Drv α) : Prop := Exec.Keeps (Exec.Same tested) x

theorem KeepsSteps.tested {α : Type} {x : Drv α} (hx : KeepsSteps x) : KeepsTested x :=
  hx.mono fun s t h => by
    rw [Exec.Same, Bedrock.tested, Bedrock.tested, h.ideDevices, h.console]

theorem keepsTested_drvPrint {msg : Msg} (h : msg ≠ readAccessOk) :
    KeepsTested (drvPrint msg) := by
  refine .modify fun s => ?_
  rw [Exec.Same, tested, tested]
  simp only [Machine.print, List.count_append, List.count_singleton, beq_iff_eq, if_neg h,
    Nat.add_zero]

theorem steps_ideWaitIrq : KeepsSteps ideWaitIrq := by
  intro s
  rw [ideWaitIrq, EStateM.run_bind, EStateM.run_get]
  by_cases h : s.dev.ideIrqInvoked = 0 ∧ s.dev.irqs = 0
  · simp only [if_pos h]
    exact Steps.refl s
  · simp only [if_neg h]
    exact ⟨rfl, rfl, rfl, fun _ => ⟨rfl, rfl⟩, ⟨[], rfl⟩,
      ⟨[], (List.append_nil _).symm, (skip_zero _).symm⟩⟩

variable (channel : Fin 2)

theorem steps_delay400 : KeepsSteps (delay400 channel) :=
  .bind (steps_altStatus _) fun _ => .bind (steps_altStatus _) fun _ =>
    .bind (steps_altStatus _) fun _ => .bind (steps_altStatus _) fun _ => .pure _

theorem steps_atapiReceive (bus : UInt16) (n : Nat) (edi : UInt32) :
    KeepsSteps (atapiReceive channel bus n edi) := by
  induction n generalizing edi with
  | zero =>
      exact .bind steps_ideWaitIrq fun _ => .bind (steps_waitWhile _ _) fun _ => .pure _
  | succ n ih =>
      exact .bind steps_ideWaitIrq fun _ => .bind (steps_idePolling _ _) fun err =>
        .ite (.pure _) (.bind (steps_repInsw _ _ _) fun _ => ih _)

theorem steps_ideAtapiRead (drive : UInt8) (lba : UInt32) (numsects : UInt8)
    (selector : UInt16) (edi : UInt32) :
    KeepsSteps (ideAtapiRead drive lba numsects selector edi) := by
  refine .bind .get fun s => .bind (steps_setNIEN _ _) fun _ => ?_
  refine .bind (steps_ideWrite _ _ _) fun _ => .bind (steps_ideWrite _ _ _) fun _ => ?_
  refine .bind (steps_delay400 _) fun _ => .bind (steps_ideWrite _ _ _) fun _ => ?_
  refine .bind (steps_ideWrite _ _ _) fun _ => .bind (steps_ideWrite _ _ _) fun _ => ?_
  refine .bind (steps_ideWrite _ _ _) fun _ => .bind (steps_idePolling _ _) fun err => ?_
  exact .ite (.pure _) (.bind (steps_repOutsw _ _) fun _ => steps_atapiReceive _ _ _ _)

theorem steps_atapiSectors (drive : UInt8) (lba : UInt32) (es : UInt16) (edi : UInt32)
    (n i : Nat) (err : UInt8) : KeepsSteps (atapiSectors drive lba es edi n i err) := by
  induction n generalizing i err with
  | zero => exact .pure _
  | succ n ih => exact .bind (steps_ideAtapiRead _ _ _ _ _) fun err => ih _ _

theorem keepsTested_printErrorRows (st : UInt8) {rows : List (UInt8 × String × UInt8)}
    (h : ∀ row ∈ rows, Msg.str row.2.1 ≠ readAccessOk) (err : UInt8) :
    KeepsTested (printErrorRows st rows err) := by
  induction rows generalizing err with
  | nil => exact .pure _
  | cons row rows ih =>
      obtain ⟨hrow, hrows⟩ := List.forall_mem_cons.mp h
      exact .ite (.bind (keepsTested_drvPrint hrow) fun _ => ih hrows _) (ih hrows _)

theorem keepsTested_printDevice (device : IdeDevice) : KeepsTested (printDevice device) := by
  refine .bind (keepsTested_drvPrint (by decide)) fun _ => .bind ?_ fun _ =>
    .bind (keepsTested_drvPrint (by decide)) fun _ => .bind ?_ fun _ =>
    .bind (keepsTested_drvPrint (by decide)) fun _ =>
    .bind (keepsTested_drvPrint nofun) fun _ => keepsTested_drvPrint (by decide)
  · refine keepsTested_drvPrint ?_
    split <;> decide
  · refine keepsTested_drvPrint ?_
    split <;> decide

theorem steps_errorRegister : KeepsSteps (ideRead channel 0x01) :=
  steps_ideRead channel (by decide) fun c => ⟨_, rfl⟩

theorem keepsTested_idePrintError (drive err : UInt8) :
    KeepsTested (idePrintError drive err) := by
  have hend : ∀ (device : IdeDevice) (err : UInt8), KeepsTested (do
      printDevice device
      return err) := fun device err => .bind (keepsTested_printDevice device) fun _ => .pure err
  refine .ite (.pure _) (.bind .get fun s => .bind (keepsTested_drvPrint (by decide)) fun _ => ?_)
  refine .ite ?_ (.ite ?_ (.ite ?_ (.ite ?_ (.bind (.pure _) fun err => hend _ err))))
  · exact .bind (keepsTested_drvPrint (by decide)) fun _ => .bind (.pure _) fun err => hend _ err
  · exact .bind (steps_errorRegister _).tested fun st =>
      .bind (keepsTested_printErrorRows st (by decide) _) fun err => hend _ err
  · exact .bind (keepsTested_drvPrint (by decide)) fun _ => .bind (.pure _) fun err => hend _ err
  · exact .bind (keepsTested_drvPrint (by decide)) fun _ => .bind (.pure _) fun err => hend _ err

theorem keepsTested_ideReadSectors (junk drive numsects : UInt8) (lba : UInt32)
    (es : UInt16) (edi : UInt32) :
    KeepsTested (ideReadSectors junk drive numsects lba es edi) := by
  have hset : ∀ v, KeepsTested (setPackage0 v) := fun v => .modify fun _ => rfl
  have hend : KeepsTested getPackage0 := .bind .get fun _ => .pure _
  refine .bind .get fun s => ?_
  by_cases habsent : DriveAbsent s.dev drive
  · rw [if_pos habsent]
    exact .bind (hset 1) fun _ => hend
  rw [if_neg habsent]
  by_cases hrange : OutOfRange s.dev drive lba numsects
  · rw [if_pos hrange]
    exact .bind (hset 2) fun _ => hend
  rw [if_neg hrange]
  cases htype : (s.dev.ideDevices drive).type with
  | ata => exact .bind (steps_ideAtaAccess _ _ _ _ _ _).tested fun _ => hend
  | atapi =>
      exact .bind (steps_atapiSectors _ _ _ _ _ _ _).tested fun err =>
        .bind (keepsTested_idePrintError _ _) fun err => .bind (hset _) fun _ => hend

/-! ## One test read -/

section

variable [Layout] {δ : Type} {k k' : Kernel δ} {map : Vector UInt8 kMemoryMapEntries}

omit [Layout] in
theorem freeCount_freed {i : Nat} (hi : i < kMemoryMapEntries) (h : map[i] ≠ 0) :
    freeCount (mapRange map i 1 0) = freeCount map + 1 := by
  rw [mapRange_one hi]
  simp only [freeCount, Vector.toList_set]
  rw [List.count_set (by rw [Vector.length_toList]; exact hi), Vector.getElem_toList]
  simp [h]

/-- A `read_sector` that returns is one call of the IDE driver. The page it
takes for that is given back if the driver reported no error. -/
theorem readSector_inv {ide : Ide δ} {device : DeviceInfo} {sector r : Int32}
    {buffer : UInt32} (h : (readSector ide device sector buffer).run k = .ok r k') :
    ∃ lba edi err s s', 0 < freeCount k.kMemoryMap ∧ s.dev = k.dev ∧ s.console = k.console ∧
      (ide.readSectors device.ataId.toUInt32.toUInt8 1 lba 0 edi).run s = .ok err s' ∧
      k'.dev = s'.dev ∧ k'.console = s'.console ∧
      (r = 0 ∧ k'.kMemoryMap = k.kMemoryMap ∨
        r ≠ 0 ∧ k'.kMemoryMap = taken k.kMemoryMap) := by
  obtain ⟨p, k₁, hpage, h⟩ := Exec.bind_inv h
  obtain ⟨hfree, rfl, hmap, hdev, hconsole⟩ := kmalloc_page_inv hpage
  obtain ⟨place, k₂, hplace, h⟩ := Exec.bind_inv h
  have hdiv : ∀ a b : Int32, Exec.Keeps (Exec.Same id) (idiv a b : Kern δ Int32) :=
    fun a b => .ite (.throw _) (.pure _)
  have hlocate : Exec.Keeps (Exec.Same id) (locate device sector : Kern δ Place) :=
    .bind (hdiv _ _) fun _ => .bind (hdiv _ _) fun _ => .pure _
  have hsame : k₂ = k₁ := hlocate.of_ok hplace
  rw [hsame] at h
  obtain ⟨err, k₃, hread, h⟩ := Exec.bind_inv h
  obtain ⟨s', hide, rfl⟩ := Kern.ofMachine_inv hread
  refine ⟨_, _, err, _, s', hfree, hdev, hconsole, hide, ?_⟩
  by_cases herr : err ≠ 0
  · rw [if_pos herr] at h
    obtain ⟨rfl, rfl⟩ := Exec.pure_inv h
    exact ⟨rfl, rfl, .inr ⟨by decide, hmap⟩⟩
  · rw [if_neg herr] at h
    obtain ⟨_, k₄, hcopy, h⟩ := Exec.bind_inv h
    cases hcopy
    obtain ⟨_, k₅, hback, h⟩ := Exec.bind_inv h
    obtain ⟨rfl, rfl⟩ := Exec.pure_inv h
    cases hback.symm.trans (kfree_scratch k.kMemoryMap hfree hmap)
    exact ⟨rfl, rfl, .inl ⟨rfl, rfl⟩⟩

end

section

variable [Layout] {junk : UInt8} {k k' : Kernel Ata}

/-- A test read changes neither the drives nor what the console counts. -/
theorem readSector_tested {device : DeviceInfo} {sector r : Int32} {buffer : UInt32}
    (h : (readSector (Ata.ide junk) device sector buffer).run k = .ok r k') :
    0 < freeCount k.kMemoryMap ∧ tested k'.toMachine = tested k.toMachine ∧
      (r = 0 ∧ k'.kMemoryMap = k.kMemoryMap ∨
        r ≠ 0 ∧ k'.kMemoryMap = taken k.kMemoryMap) := by
  obtain ⟨lba, edi, err, s, s', hfree, hdev, hconsole, hide, hdev', hconsole', hend⟩ :=
    readSector_inv h
  refine ⟨hfree, ?_, hend⟩
  have hsame := Exec.Keeps.of_ok (keepsTested_ideReadSectors junk _ 1 lba 0 edi) hide
  rw [Exec.Same, tested, tested] at hsame
  rw [tested, tested, hdev', hconsole', hsame, hdev, hconsole]

/-- `failed` devices failed their test read and `passed` passed it. -/
structure Costs (failed passed : Nat) (k k' : Kernel Ata) : Prop where
  pages : freeCount k'.kMemoryMap + failed = freeCount k.kMemoryMap
  console : k'.console.count readAccessOk = k.console.count readAccessOk + passed
  ideDevices : k'.dev.ideDevices = k.dev.ideDevices

omit [Layout] in
theorem Costs.trans {m n m' n' : Nat} {k₁ k₂ k₃ : Kernel Ata} (h : Costs m n k₁ k₂)
    (h' : Costs m' n' k₂ k₃) : Costs (m' + m) (n + n') k₁ k₃ := by
  refine ⟨?_, ?_, h'.ideDevices.trans h.ideDevices⟩
  · rw [← h.pages, ← h'.pages, Nat.add_assoc]
  · rw [h'.console, h.console, Nat.add_assoc]

omit [Layout] in
theorem costs_print {msg : Msg} (h : msg ≠ readAccessOk) (k : Kernel Ata) :
    Costs 0 0 k (k.print msg) := by
  refine ⟨rfl, ?_, rfl⟩
  simp only [Kernel.print, List.count_append, List.count_singleton, beq_iff_eq, if_neg h]

/-- One device: its test read succeeds, or a page is lost. -/
theorem testReadAccess_costs {device : DeviceInfo}
    (h : (testReadAccess (Ata.ide junk) device).run k = .ok () k') :
    Costs 0 1 k k' ∨ Costs 1 0 k k' := by
  obtain ⟨p, k₁, hpage, h⟩ := Exec.bind_inv h
  obtain ⟨hfree, rfl, hmap, hdev, hconsole⟩ := kmalloc_page_inv hpage
  have hfirst := firstFree_lt hfree
  obtain ⟨⟨⟩, k₁', hprint, h⟩ := Exec.bind_inv h
  cases hprint
  obtain ⟨r, k₂, hread, h⟩ := Exec.bind_inv h
  obtain ⟨hfree', htested, hend⟩ := readSector_tested hread
  simp only [tested, Prod.mk.injEq] at htested
  have hcount : k₂.console.count readAccessOk = k.console.count readAccessOk := by
    rw [htested.2, ← hconsole]
    exact (costs_print (by decide) k₁).console
  have htable : k₂.dev.ideDevices = k.dev.ideDevices := by
    rw [htested.1, ← hdev]
    rfl
  rcases hend with ⟨rfl, hmap₂⟩ | ⟨hr, hmap₂⟩
  · left
    cases h.symm.trans (kfree_scratch k.kMemoryMap hfree (hmap₂.trans hmap))
    refine ⟨rfl, ?_, htable⟩
    rw [← hcount]
    simp [Kernel.print]
  · right
    simp only [if_neg hr] at h
    rw [scratch, kfree_block hfirst] at h
    cases h
    have hbusy : (taken (taken k.kMemoryMap))[firstFree k.kMemoryMap] ≠ 0 := by
      refine busy_taken hfirst ?_
      rw [taken, getElem_mapRange, if_pos ⟨Nat.le_refl _, Nat.lt_succ_self _⟩]
      decide
    have hfreed := freeCount_freed hfirst hbusy
    have hcount₁ := freeCount_taken hfree
    have hfree₁ : 0 < freeCount (taken k.kMemoryMap) := by rwa [← hmap]
    have hcount₂ := freeCount_taken hfree₁
    refine ⟨?_, hcount, htable⟩
    have hmap₃ : k₂.kMemoryMap = taken (taken k.kMemoryMap) := by
      rw [hmap₂]
      exact congrArg taken hmap
    simp only [hmap₃]
    omega

end

/-! ## All devices -/

section

variable {α β : Type}

/-- A return of the program has read from `n` devices. -/
def Spends (n : Nat) (x : Kern Ata α) : Prop :=
  ∀ ⦃k a k'⦄, x.run k = .ok a k' →
    ∃ failed passed, failed + passed = n ∧ Costs failed passed k k'

theorem Spends.pure (a : α) : Spends 0 (Pure.pure a : Kern Ata α) := by
  intro k b k' h
  obtain ⟨-, rfl⟩ := Exec.pure_inv h
  exact ⟨0, 0, rfl, rfl, rfl, rfl⟩

theorem Spends.bind {m n : Nat} {x : Kern Ata α} {f : α → Kern Ata β} (hx : Spends m x)
    (hf : ∀ a, Spends n (f a)) : Spends (m + n) (x >>= f) := by
  intro k b k' h
  obtain ⟨a, k₁, hfirst, hrest⟩ := Exec.bind_inv h
  obtain ⟨failed, passed, rfl, hcosts⟩ := hx hfirst
  obtain ⟨failed', passed', rfl, hcosts'⟩ := hf a hrest
  exact ⟨failed' + failed, passed + passed', by omega, hcosts.trans hcosts'⟩

/-- Anything else that is printed costs nothing. -/
theorem Spends.print {n : Nat} {msg : Msg} {x : Kern Ata α} (h : msg ≠ readAccessOk)
    (hx : Spends n x) : Spends n (kprintMsg msg >>= fun _ => x) := by
  intro k a k' hrun
  rw [Exec.bind_ok (kprintMsg_run msg k)] at hrun
  obtain ⟨failed, passed, hn, hcosts⟩ := hx hrun
  exact ⟨failed, passed, hn, by simpa using (costs_print h k).trans hcosts⟩

variable [Layout] (junk : UInt8)

theorem spends_testReadAccess (device : DeviceInfo) :
    Spends 1 (testReadAccess (Ata.ide junk) device) := by
  intro k a k' h
  rcases testReadAccess_costs h with hpassed | hfailed
  · exact ⟨0, 1, rfl, hpassed⟩
  · exact ⟨1, 0, rfl, hfailed⟩

theorem spends_describeDevice (c : Nat) (device : DeviceInfo) :
    Spends 1 (describeDevice (Ata.ide junk) c device) := by
  have hname : ∀ i : Nat, Msg.str (deviceTypeNames[i]?.getD "") ≠ readAccessOk := by
    intro i
    rcases i with _ | _ | _ | i
    · decide
    · decide
    · decide
    · exact (by decide : Msg.str "" ≠ readAccessOk)
  exact .print (by decide) (.print nofun (.print (by decide) (.print (by decide)
    (.print (hname _) (.print (by decide) (.print nofun (.print (by decide)
      (.print nofun (.print (by decide) (spends_testReadAccess junk device))))))))))

theorem spends_describeDevices (vdevices : List DeviceInfo) (c : Nat) :
    Spends vdevices.length (describeDevices (Ata.ide junk) vdevices c) := by
  induction vdevices generalizing c with
  | nil => exact .pure ()
  | cons device devices ih =>
      rw [List.length_cons, Nat.add_comm]
      exact .bind (spends_describeDevice junk c device) fun _ => ih (c + 1)

end

/-! ## The devices found -/

section

variable {k k' : Kernel Ata}

/-- The entry of `vdevices` for the drive that was found as number `i`. -/
def foundDevice (i : Nat) (d : FoundDrive) : DeviceInfo := deviceInfoOf i i d.type

/-- Behind the drives that were found there is nothing to add. -/
theorem addDevices_none {n i : Nat} (vdevices : List DeviceInfo)
    (h : ∀ j < n, (k.dev.ideDevices (UInt8.ofNat (i + j))).reserved = 0) :
    (addDevices n i vdevices).run k = .ok vdevices k := by
  induction n generalizing i with
  | zero => rfl
  | succ n ih =>
      rw [addDevices, Exec.bind_ok (EStateM.run_get k)]
      simp only [show (k.dev.ideDevices (UInt8.ofNat i)).reserved = 0 from h 0 (Nat.succ_pos n),
        ne_eq, not_true_eq_false, if_false]
      refine ih fun j hj => ?_
      rw [show i + 1 + j = i + (j + 1) by omega]
      exact h (j + 1) (Nat.succ_lt_succ hj)

/-- `IDE_init` appends the drives that were found, one after the other. -/
theorem addDevices_found {ds : List FoundDrive} {n i : Nat} {vdevices : List DeviceInfo}
    (hi : i = vdevices.length) (hn : ds.length ≤ n)
    (hfound : ∀ j d, ds[j]? = some d →
      (k.dev.ideDevices (UInt8.ofNat (i + j))).reserved ≠ 0 ∧
        (k.dev.ideDevices (UInt8.ofNat (i + j))).type = d.type)
    (hnone : ∀ j < n, ds.length ≤ j →
      (k.dev.ideDevices (UInt8.ofNat (i + j))).reserved = 0) :
    (addDevices n i vdevices).run k =
      .ok (vdevices ++ ds.mapIdx fun j d => foundDevice (i + j) d) k := by
  induction ds generalizing n i vdevices with
  | nil =>
      rw [List.mapIdx_nil, List.append_nil]
      exact addDevices_none vdevices fun j hj => hnone j hj (Nat.zero_le j)
  | cons d ds ih =>
      obtain ⟨n, rfl⟩ := Nat.exists_eq_add_one_of_ne_zero (Nat.ne_of_gt (Nat.lt_of_lt_of_le
        (Nat.succ_pos _) hn))
      obtain ⟨hreserved, htype⟩ := hfound 0 d rfl
      rw [Nat.add_zero] at hreserved htype
      have hstep : ∀ j, i + 1 + j = i + (j + 1) := by omega
      rw [addDevices, Exec.bind_ok (EStateM.run_get k)]
      simp only [if_pos hreserved, htype]
      rw [ih (by rw [List.length_append, hi]; rfl) (Nat.le_of_succ_le_succ hn),
        List.append_assoc, List.mapIdx_cons, ← hi]
      · simp only [hstep]
        rfl
      · intro j e hj
        rw [hstep]
        exact hfound (j + 1) e hj
      · intro j hj hle
        rw [hstep]
        exact hnone (j + 1) (Nat.succ_lt_succ hj) (Nat.succ_le_succ hle)

/-- The summary does not look like a test read that succeeded. -/
theorem readAccessOk_summary (table : UInt8 → IdeDevice) (ns : List Nat) :
    (summary table ns).count readAccessOk = 0 := by
  have hlines : ∀ device, readAccessOk ∉ foundLines device := by
    intro device
    have hsize : readAccessOk ∉
        (if device.size = 0 then [Msg.str "empty"]
        else if device.size / 1024 / 1024 / 2 = 0 then [.int device.size, .str " sectors"]
        else [.int (device.size / 1024 / 1024 / 2), .str " GB"]) := by
      split
      · decide
      · split <;> simp [readAccessOk]
    have hname : readAccessOk ≠ .str device.type.name := by
      cases device.type <;> decide
    rw [foundLines, List.mem_append, List.mem_append]
    rintro ((h | h) | h)
    · rcases List.mem_cons.mp h with h | h
      · exact absurd h (by decide)
      · rcases List.mem_cons.mp h with h | h
        · exact hname h
        · exact absurd h (by decide)
    · exact hsize h
    · simp [readAccessOk] at h
  refine List.count_eq_zero_of_not_mem fun h => ?_
  obtain ⟨i, -, hi⟩ := List.mem_flatMap.mp h
  split at hi
  · exact hlines _ hi
  · exact List.not_mem_nil hi

theorem addDevices_same (n i : Nat) (vdevices : List DeviceInfo) :
    Exec.Keeps (Exec.Same id) (addDevices n i vdevices) := by
  induction n generalizing i vdevices with
  | zero => exact .pure _
  | succ n ih => exact .bind .get fun k => .ite (ih _ _) (ih _ _)

/-- A return of `IDE_init` has found the drives and appended them. -/
theorem ideInit_inv {vdevices vdevices' : List DeviceInfo}
    (h : (ideInit vdevices).run k = .ok vdevices' k') :
    ∃ σs rest k₁, Surveyed σs rest k.toMachine ∧
      Recorded σs k.dev.words k.dev.ideDevices k₁.dev.ideDevices ∧
      (addDevices 4 0 vdevices).run k₁ = .ok vdevices' k₁ ∧ k'.dev = k₁.dev ∧
      k'.kMemoryMap = k.kMemoryMap ∧
      k'.console.count readAccessOk = k.console.count readAccessOk := by
  obtain ⟨_, k₀, hprint, h⟩ := Exec.bind_inv h
  cases hprint
  obtain ⟨_, k₁, hinit, h⟩ := Exec.bind_inv h
  obtain ⟨s, hrun, rfl⟩ := Kern.ofMachine_inv hinit
  obtain ⟨σs, rest, hsurveyed, rfl⟩ := ideInitialize_run_iff.mp hrun
  obtain ⟨vs, k₂, hadd, h⟩ := Exec.bind_inv h
  have hsame := (addDevices_same 4 0 vdevices).of_ok hadd
  rw [Exec.Same, id, id] at hsame
  subst hsame
  obtain ⟨_, k₃, hprint, h⟩ := Exec.bind_inv h
  cases hprint
  obtain ⟨rfl, rfl⟩ := Exec.pure_inv h
  refine ⟨σs, rest, _, ⟨hsurveyed.places, hsurveyed.valid, hsurveyed.tape⟩, ?_, hadd, rfl, rfl,
    ?_⟩
  · exact hsurveyed.recorded
  simp only [Kernel.print, Machine.initialized, List.count_append, readAccessOk_summary]
  simp [readAccessOk]

/-- 512-byte sectors to a sector of the drive. -/
def DriveType.sectors : DriveType → Nat
  | .ata => 1
  | .atapi => 4

theorem foundDevice_geometry (i : Nat) (d : FoundDrive) :
    Geometry (foundDevice i d) d.type.sectors := by
  cases h : d.type with
  | ata => exact ⟨.inl rfl, by rw [foundDevice, h]; rfl⟩
  | atapi => exact ⟨.inr rfl, by rw [foundDevice, h]; rfl⟩

theorem foundDevice_ataId {i : Nat} (hi : i < 4) (d : FoundDrive) :
    (foundDevice i d).ataId.toUInt32.toUInt8 = UInt8.ofNat i := by
  have hall : ∀ j : Fin 4, (Int32.ofNat j.val).toUInt32.toUInt8 = UInt8.ofNat j.val := by decide
  exact hall ⟨i, hi⟩

section

variable {σs : List Sighting} {words : Nat → UInt16} {old table : UInt8 → IdeDevice}

theorem Recorded.reserved_found (h : Recorded σs words old table) {n : UInt8}
    (hn : n.toNat < (drivesOf σs).length) : (table n).reserved ≠ 0 := by
  have hfound := h.found n.toNat _ (List.getElem?_eq_getElem hn)
  rw [UInt8.ofNat_toNat] at hfound
  rw [hfound]
  exact (by decide : (1 : UInt8) ≠ 0)

/-- In a table that was empty nothing is left behind the drives. -/
theorem Recorded.reserved_behind (h : Recorded σs words old table) {n : UInt8}
    (hold : (old n).reserved = 0) (hn : (drivesOf σs).length ≤ n.toNat) :
    (table n).reserved = 0 := by
  rw [h.behind n hn]
  split
  · rfl
  · exact hold

/-- Present are the entries in front, and no others. -/
theorem Recorded.present_iff {a : Ata} (h : Recorded σs words old a.ideDevices)
    (hlen : (drivesOf σs).length ≤ 4) (hempty : ∀ n : UInt8, n ≤ 3 → (old n).reserved = 0)
    (n : UInt8) : ¬ DriveAbsent a n ↔ n.toNat < (drivesOf σs).length := by
  rw [DriveAbsent, not_or, gt_iff_lt, UInt8.not_lt]
  constructor
  · rintro ⟨hle, hreserved⟩
    by_contra hge
    exact hreserved (h.reserved_behind (hempty n hle) (Nat.not_lt.mp hge))
  · intro hlt
    refine ⟨?_, h.reserved_found hlt⟩
    rw [UInt8.le_iff_toNat_le]
    exact Nat.le_of_lt_succ (Nat.lt_of_lt_of_le hlt hlen)

/-- The loop of `IDE_init` after `ide_initialize`. -/
theorem addDevices_recorded (h : Recorded σs words old k.dev.ideDevices)
    (hlen : (drivesOf σs).length ≤ 4) (hempty : ∀ n : UInt8, n ≤ 3 → (old n).reserved = 0) :
    (addDevices 4 0 []).run k = .ok ((drivesOf σs).mapIdx foundDevice) k := by
  have hfound : ∀ j d, (drivesOf σs)[j]? = some d →
      (k.dev.ideDevices (UInt8.ofNat (0 + j))).reserved ≠ 0 ∧
        (k.dev.ideDevices (UInt8.ofNat (0 + j))).type = d.type := by
    intro j d hj
    rw [Nat.zero_add, h.found j d hj]
    exact ⟨(by decide : (1 : UInt8) ≠ 0), rfl⟩
  have hnone : ∀ j < 4, (drivesOf σs).length ≤ j →
      (k.dev.ideDevices (UInt8.ofNat (0 + j))).reserved = 0 := by
    intro j hj hge
    have hn : (UInt8.ofNat j).toNat = j := UInt8.toNat_ofNat_of_lt' (Nat.lt_trans hj (by decide))
    rw [Nat.zero_add]
    refine h.reserved_behind (hempty _ ?_) (by rwa [hn])
    rw [UInt8.le_iff_toNat_le, hn]
    exact Nat.le_of_lt_succ hj
  have hrun : (addDevices 4 0 []).run k =
      .ok ([] ++ (drivesOf σs).mapIdx fun j d => foundDevice (0 + j) d) k :=
    addDevices_found rfl hlen hfound hnone
  simpa only [Nat.zero_add, List.nil_append] using hrun

end

variable [Layout] {junk : UInt8} {vdevices : List DeviceInfo}

/-- A return of `storage_driver_init` in its parts: the drives are looked for,
their test reads are made, and two messages follow. -/
theorem storageDriverInit_inv {vdevices₀ : List DeviceInfo}
    (h : (storageDriverInit (Ata.ide junk) vdevices₀).run k = .ok vdevices k') :
    ∃ k₁, (ideInit vdevices₀).run (k.print (.str "loading storage drivers\n")) =
        .ok vdevices k₁ ∧
      ∃ failed passed, failed + passed = vdevices.length ∧ Costs failed passed k₁ k' := by
  obtain ⟨_, k₀, hprint, h⟩ := Exec.bind_inv h
  cases hprint
  obtain ⟨vs, k₁, hinit, h⟩ := Exec.bind_inv h
  have hall : Spends (vs.length + 0) (do
      kprint "\\ "
      kprintInt (UInt32.ofNat vs.length)
      kprint " recognized storage devices:\n"
      describeDevices (Ata.ide junk) vs 0
      kprint "\\ storage drivers loaded"
      kprintStatusOk
      return vs) :=
    .print (by decide) (.print nofun (.print (by decide)
      (.bind (spends_describeDevices junk vs 0) fun _ =>
        .print (by decide) (.print nofun (.pure vs)))))
  have hcosts := hall h
  obtain ⟨_, k₂, -, h⟩ := Exec.bind_inv h
  obtain ⟨_, k₃, -, h⟩ := Exec.bind_inv h
  obtain ⟨_, k₄, -, h⟩ := Exec.bind_inv h
  obtain ⟨_, k₅, -, h⟩ := Exec.bind_inv h
  obtain ⟨_, k₆, -, h⟩ := Exec.bind_inv h
  obtain ⟨_, k₇, -, h⟩ := Exec.bind_inv h
  obtain ⟨rfl, -⟩ := Exec.pure_inv h
  exact ⟨k₁, hinit, hcosts⟩

/-- Each device is a drive that was found: its numbers are that of the drive,
the storage layer knows its geometry, and `ide_devices` holds what the drive's
own page says. No other drive is present. -/
theorem storageDriverInit_devices
    (hempty : ∀ n : UInt8, n ≤ 3 → (k.dev.ideDevices n).reserved = 0)
    (h : (storageDriverInit (Ata.ide junk) []).run k = .ok vdevices k') :
    ∃ σs rest, Surveyed σs rest k.toMachine ∧
      vdevices = (drivesOf σs).mapIdx foundDevice ∧
      (∀ i d, (drivesOf σs)[i]? = some d →
        Geometry (foundDevice i d) d.type.sectors ∧
        k'.dev.ideDevices (foundDevice i d).ataId.toUInt32.toUInt8 =
          identified d.channel d.drive d.type (page (skip (256 * i) k.dev.words))) ∧
      ∀ n, ¬ DriveAbsent k'.dev n ↔ n.toNat < (drivesOf σs).length := by
  obtain ⟨k₁, hinit, failed, passed, -, hcosts⟩ := storageDriverInit_inv h
  obtain ⟨σs, rest, k₂, hsurveyed, hrecorded, hadd, hdev, -⟩ := ideInit_inv hinit
  have hsurveyed : Surveyed σs rest k.toMachine :=
    ⟨hsurveyed.places, hsurveyed.valid, hsurveyed.tape⟩
  have htable : k'.dev.ideDevices = k₂.dev.ideDevices := by rw [hcosts.ideDevices, hdev]
  have hlen := drivesOf_length_le σs
  rw [hsurveyed.length] at hlen
  rw [addDevices_recorded hrecorded hlen hempty] at hadd
  injection hadd with hadd
  rw [← htable] at hrecorded
  refine ⟨σs, rest, hsurveyed, hadd.symm, fun i d hi => ⟨foundDevice_geometry i d, ?_⟩,
    hrecorded.present_iff hlen hempty⟩
  have hlt := (List.getElem?_eq_some_iff.mp hi).1
  rw [foundDevice_ataId (by omega)]
  exact hrecorded.found i d hi

/-- A kernel before `storage_driver_init`: the first page to come is that of a
drive of 100 sectors. -/
def unprobedKernel (inbox : List UInt8) : Kernel Ata where
  toMachine :=
    { ataBoot ⟨0, ataPrimary, ataMaster, .ata, 0, 0, []⟩ inbox with
      dev.words := fun i => if i = 60 then 100 else 0 }
  kMemoryMap := (Kernel.zero ()).kMemoryMap
  cr3 := 0

omit [Layout] in
theorem unprobedKernel_empty (inbox : List UInt8) (n : UInt8) :
    ((unprobedKernel inbox).dev.ideDevices n).reserved = 0 := by
  show (if n = 0 then _ else _ : IdeDevice).reserved = 0
  split
  · rfl
  · rfl

omit [Layout] in
/-- A master on the primary channel, and nothing else; its first sector is read. -/
theorem storageDriverInit_devices_one : ∃ (_ : Layout) (vdevices : List DeviceInfo)
    (k' : Kernel Ata) (σs : List Sighting),
    (storageDriverInit (Ata.ide 0) []).run (unprobedKernel [0x50, 0xD0, 0x58, 0, 0, 0,
      0x50, 0xD0, 0xD0, 0xD0, 0xD0, 0x50, 0x58]) = .ok vdevices k' ∧
    vdevices = (drivesOf σs).mapIdx foundDevice ∧ vdevices.length = 1 := by
  let _ := bootLayout
  have hrun : (Exec.answer ((storageDriverInit (Ata.ide 0) []).run (unprobedKernel
      [0x50, 0xD0, 0x58, 0, 0, 0, 0x50, 0xD0, 0xD0, 0xD0, 0xD0, 0x50, 0x58]))).map
      List.length = some 1 := by
    decide +kernel
  obtain ⟨vdevices, hanswer, hlen⟩ := Option.map_eq_some_iff.mp hrun
  have hrun := Exec.ok_of_answer hanswer
  obtain ⟨σs, rest, -, hdevices, -⟩ :=
    storageDriverInit_devices (fun n _ => unprobedKernel_empty _ n) hrun
  exact ⟨bootLayout, vdevices, _, σs, hrun, hdevices, hlen⟩

/-- A device costs a page if its test read fails, and none if it succeeds. -/
theorem storageDriverInit_pages {vdevices₀ : List DeviceInfo}
    (h : (storageDriverInit (Ata.ide junk) vdevices₀).run k = .ok vdevices k') :
    ∃ failed passed, failed + passed = vdevices.length ∧
      freeCount k'.kMemoryMap + failed = freeCount k.kMemoryMap ∧
      k'.console.count readAccessOk = k.console.count readAccessOk + passed := by
  obtain ⟨k₁, hinit, failed, passed, hn, hcosts⟩ := storageDriverInit_inv h
  obtain ⟨σs, rest, k₂, -, -, -, -, hmap, hcount⟩ := ideInit_inv hinit
  refine ⟨failed, passed, hn, by rw [hcosts.pages, hmap]; rfl, ?_⟩
  rw [hcosts.console, hcount]
  simp [Kernel.print, readAccessOk]

omit [Layout] in
/-- Two drives, of which the second has no sectors. -/
theorem storageDriverInit_pages_two : ∃ (_ : Layout) (vdevices : List DeviceInfo)
    (k' : Kernel Ata) (failed passed : Nat),
    (storageDriverInit (Ata.ide 0) []).run (unprobedKernel [0x50, 0xD0, 0x58, 0, 0x50, 0x58, 0,
      0x50, 0xD0, 0xD0, 0xD0, 0xD0, 0x50, 0x58]) = .ok vdevices k' ∧
    failed + passed = 2 ∧
    freeCount k'.kMemoryMap + failed = freeCount (unprobedKernel []).kMemoryMap := by
  let _ := bootLayout
  have hrun : (Exec.answer ((storageDriverInit (Ata.ide 0) []).run (unprobedKernel
      [0x50, 0xD0, 0x58, 0, 0x50, 0x58, 0, 0x50, 0xD0, 0xD0, 0xD0, 0xD0, 0x50, 0x58]))).map
      List.length = some 2 := by
    decide +kernel
  obtain ⟨vdevices, hanswer, hlen⟩ := Option.map_eq_some_iff.mp hrun
  have hrun := Exec.ok_of_answer hanswer
  obtain ⟨failed, passed, hn, hpages, -⟩ := storageDriverInit_pages hrun
  exact ⟨bootLayout, vdevices, _, failed, passed, hrun, hn.trans hlen, hpages⟩

end

end Bedrock
