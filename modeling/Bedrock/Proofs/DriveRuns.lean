import Bedrock.Proofs.DriveTransfers

/-!
# What every run of the driver keeps

Two facts about `ide_ata_access` that do not depend on how a run ends. `Steps`:
the log only grows, the words that came out of the data ports are those that the
log took, and the device table, the ports, the console and `package[0]` stay as
they were. `Starves`: a run that stops, stops because the tape is empty.
-/

namespace Bedrock

open Lib

/-! ## Growing logs -/

/-- From `s` to `t` the driver used its ports and what came in through them. -/
structure Steps (s t : Machine Ata) : Prop where
  console : t.console = s.console
  ideDevices : t.dev.ideDevices = s.dev.ideDevices
  package0 : t.dev.package0 = s.dev.package0
  ports : ∀ channel, (t.dev.channels channel).base = (s.dev.channels channel).base ∧
    (t.dev.channels channel).ctrl = (s.dev.channels channel).ctrl
  tape : ∃ taken, s.dev.inbox = taken ++ t.dev.inbox
  log : ∃ es, t.dev.log = s.dev.log ++ es ∧ t.dev.words = skip (received es) s.dev.words

theorem Steps.refl (s : Machine Ata) : Steps s s :=
  ⟨rfl, rfl, rfl, fun _ => ⟨rfl, rfl⟩, ⟨[], rfl⟩,
    ⟨[], (List.append_nil _).symm, (skip_zero _).symm⟩⟩

theorem Steps.trans {s t u : Machine Ata} (h : Steps s t) (h' : Steps t u) : Steps s u := by
  obtain ⟨taken, htaken⟩ := h.tape
  obtain ⟨taken', htaken'⟩ := h'.tape
  obtain ⟨es, hlog, hwords⟩ := h.log
  obtain ⟨es', hlog', hwords'⟩ := h'.log
  refine ⟨h'.console.trans h.console, h'.ideDevices.trans h.ideDevices,
    h'.package0.trans h.package0, fun channel => ?_, ⟨taken ++ taken', ?_⟩, ⟨es ++ es', ?_, ?_⟩⟩
  · exact ⟨(h'.ports channel).1.trans (h.ports channel).1,
      (h'.ports channel).2.trans (h.ports channel).2⟩
  · rw [htaken, htaken', List.append_assoc]
  · rw [hlog', hlog, List.append_assoc]
  · rw [hwords', hwords, skip_skip, received_append]

instance : Std.Refl Steps := ⟨Steps.refl⟩

instance : IsTrans (Machine Ata) Steps := ⟨fun _ _ _ => Steps.trans⟩

/-- Accesses logged that bring nothing in. -/
theorem Steps.logged {s : Machine Ata} {e : PortEvent} (h : received [e] = 0) :
    Steps s (s.logged e) :=
  ⟨rfl, rfl, rfl, fun _ => ⟨rfl, rfl⟩, ⟨[], rfl⟩, ⟨[e], rfl, by rw [h, skip_zero]; rfl⟩⟩

/-- Every run of the code is such a step. -/
abbrev KeepsSteps {α : Type} (x : Drv α) : Prop := Exec.Keeps Steps x

section

variable (channel : Fin 2)

theorem steps_portByteOut (port : UInt16) (data : UInt8) : KeepsSteps (portByteOut port data) :=
  .modify fun _ => Steps.logged rfl

theorem steps_repInsw (port : UInt16) (n : Nat) (edi : UInt32) :
    KeepsSteps (repInsw port n edi) :=
  .modify fun _ => ⟨rfl, rfl, rfl, fun _ => ⟨rfl, rfl⟩, ⟨[], rfl⟩, ⟨[.insw port n], rfl, rfl⟩⟩

theorem steps_repOutsw (port : UInt16) (data : List UInt16) : KeepsSteps (repOutsw port data) :=
  .modify fun _ => Steps.logged rfl

theorem steps_setNIEN (v : UInt8) : KeepsSteps (setNIEN channel v) := by
  refine .modify fun s => ⟨rfl, rfl, rfl, fun channel' => ?_, ⟨[], rfl⟩,
    ⟨[], (List.append_nil _).symm, (skip_zero _).symm⟩⟩
  by_cases h : channel' = channel
  · subst h
    simp only [Function.update_self, and_self]
  · simp only [Function.update_of_ne h, and_self]

theorem steps_ideOut (reg data : UInt8) : KeepsSteps (ideOut channel reg data) := by
  refine .bind .get fun s => ?_
  split
  · exact steps_portByteOut _ _
  · exact .pure ()

theorem steps_ideWrite (reg data : UInt8) : KeepsSteps (ideWrite channel reg data) := by
  refine .bind .get fun s => ?_
  have hlast : KeepsSteps (do
      ideOut channel reg data
      if 0x07 < reg ∧ reg < 0x0C then
        ideOut channel 0x0C (s.dev.channels channel).nIEN) :=
    .bind (steps_ideOut _ _ _) fun _ => .ite (steps_ideOut _ _ _) (.pure ())
  exact .ite (.bind (steps_ideOut _ _ _) fun _ => hlast) hlast

theorem steps_ideRead {reg : UInt8} (hreg : ¬ (0x07 < reg ∧ reg < 0x0C))
    (hport : ∀ c, ∃ port, portOf c reg = some port) : KeepsSteps (ideRead channel reg) := by
  intro s
  obtain ⟨port, hport⟩ := hport (s.dev.channels channel)
  cases hbox : s.dev.inbox with
  | nil =>
      rw [ideRead_empty hreg hport hbox]
      exact Steps.refl s
  | cons b rest =>
      rw [ideRead_ok hreg hport hbox]
      exact ⟨rfl, rfl, rfl, fun _ => ⟨rfl, rfl⟩, ⟨[b], hbox⟩,
        ⟨[.inb port b], rfl, (skip_zero _).symm⟩⟩

theorem steps_status : KeepsSteps (ideRead channel 0x07) :=
  steps_ideRead channel (by decide) fun c => ⟨_, statusPort_eq c⟩

theorem steps_altStatus : KeepsSteps (ideRead channel 0x0C) :=
  steps_ideRead channel (by decide) fun c => ⟨_, altStatusPort_eq c⟩

theorem steps_waitWhile (mask : UInt8) : KeepsSteps (waitWhile channel mask) := by
  have hloop : ∀ n, KeepsSteps (waitWhileLoop channel mask n) := by
    intro n
    induction n with
    | zero => exact .throw _
    | succ n ih => exact .bind (steps_status _) fun _ => .ite ih (.pure _)
  exact .bind .get fun _ => hloop _

theorem steps_idePolling (advancedCheck : Bool) :
    KeepsSteps (idePolling channel advancedCheck) := by
  have hdelay : KeepsSteps (delay400 channel) :=
    .bind (steps_altStatus _) fun _ => .bind (steps_altStatus _) fun _ =>
      .bind (steps_altStatus _) fun _ => .bind (steps_altStatus _) fun _ => .pure _
  refine .bind hdelay fun _ => .bind (steps_waitWhile _ _) fun _ => .ite ?_ (.pure _)
  refine .bind (steps_status _) fun state => ?_
  exact .ite (.pure _) (.ite (.pure _) (.ite (.pure _) (.pure _)))

theorem steps_sendCommand (slavebit : Fin 2) (io : LbaIo) (numsects : UInt8)
    (direction : Direction) : KeepsSteps (sendCommand channel slavebit io numsects direction) := by
  intro s
  rw [sendCommand_sends slavebit io numsects direction s rfl]
  refine ⟨rfl, rfl, rfl, fun _ => ⟨rfl, rfl⟩, ⟨[], rfl⟩, ⟨_, rfl, ?_⟩⟩
  rw [received_notBlock (sendEvents_notBlock _ _ _ _ _), skip_zero]
  rfl

theorem steps_pioRead (bus : UInt16) (n : Nat) (edi : UInt32) :
    KeepsSteps (pioRead channel bus n edi) := by
  induction n generalizing edi with
  | zero => exact .pure _
  | succ n ih =>
      exact .bind (steps_idePolling _ _) fun err => .ite (.pure _)
        (.bind (steps_repInsw _ _ _) fun _ => ih _)

theorem steps_pioWrite (bus : UInt16) (n : Nat) (edi : UInt32) :
    KeepsSteps (pioWrite channel bus n edi) := by
  induction n generalizing edi with
  | zero => exact .pure _
  | succ n ih =>
      exact .bind (steps_idePolling _ _) fun _ => .bind .get fun s =>
        .bind (steps_repOutsw _ _) fun _ => ih _

theorem steps_ideAtaAccess (direction : Direction) (drive : UInt8) (lba : UInt32)
    (numsects : UInt8) (selector : UInt16) (edi : UInt32) :
    KeepsSteps (ideAtaAccess direction drive lba numsects selector edi) := by
  refine .bind .get fun s => ?_
  refine .bind (steps_setNIEN _ _) fun _ => .bind (steps_ideWrite _ _ _) fun _ => ?_
  refine .bind (steps_waitWhile _ _) fun _ => .bind (steps_sendCommand _ _ _ _ _) fun _ => ?_
  cases direction with
  | read => exact steps_pioRead _ _ _ _
  | write =>
      exact .bind (steps_pioWrite _ _ _ _) fun _ => .bind (steps_ideWrite _ _ _) fun _ =>
        .bind (steps_idePolling _ _) fun _ => .pure _

end

/-! ## Why a run stops -/

/-- A run that stops has come to the end of the tape. -/
def Starves {α : Type} (x : Drv α) : Prop :=
  ∀ s e t, x.run s = .error e t → t.dev.inbox = []

section

variable {α β : Type}

theorem Starves.bind {x : Drv α} {f : α → Drv β} (hx : Starves x) (hf : ∀ a, Starves (f a)) :
    Starves (x >>= f) := by
  intro s e t h
  cases hrun : x.run s with
  | ok a s' =>
      rw [Exec.bind_ok hrun] at h
      exact hf a s' e t h
  | error e' s' =>
      rw [Exec.bind_error hrun] at h
      injection h with he ht
      subst ht
      exact hx s _ _ hrun

/-- Code that never stops. -/
theorem Starves.of_ok {x : Drv α} (h : ∀ s, ∃ a t, x.run s = .ok a t) : Starves x := by
  intro s e t hrun
  obtain ⟨a, t', hok⟩ := h s
  rw [hok] at hrun
  cases hrun

theorem Starves.pure (a : α) : Starves (pure a : Drv α) := .of_ok fun s => ⟨a, s, rfl⟩

theorem Starves.get : Starves (get : Drv (Machine Ata)) := .of_ok fun s => ⟨s, s, rfl⟩

theorem Starves.modify (f : Machine Ata → Machine Ata) : Starves (modify f : Drv PUnit) :=
  .of_ok fun s => ⟨_, f s, rfl⟩

theorem Starves.ite {p : Prop} [Decidable p] {x y : Drv α} (hx : Starves x) (hy : Starves y) :
    Starves (if p then x else y) := by
  split
  · exact hx
  · exact hy

end

section

variable (channel : Fin 2)

theorem starves_ideRead {reg : UInt8} (hreg : ¬ (0x07 < reg ∧ reg < 0x0C))
    (hport : ∀ c, ∃ port, portOf c reg = some port) : Starves (ideRead channel reg) := by
  intro s e t h
  obtain ⟨port, hport⟩ := hport (s.dev.channels channel)
  cases hbox : s.dev.inbox with
  | nil =>
      rw [ideRead_empty hreg hport hbox] at h
      cases h
      exact hbox
  | cons b rest =>
      rw [ideRead_ok hreg hport hbox] at h
      cases h

theorem starves_status : Starves (ideRead channel 0x07) :=
  starves_ideRead channel (by decide) fun c => ⟨_, statusPort_eq c⟩

theorem starves_altStatus : Starves (ideRead channel 0x0C) :=
  starves_ideRead channel (by decide) fun c => ⟨_, altStatusPort_eq c⟩

theorem starves_waitWhile (mask : UInt8) : Starves (waitWhile channel mask) := by
  intro s e t h
  cases hbox : s.dev.inbox.dropWhile (masked mask) with
  | nil =>
      rw [waitWhile_stuck hbox] at h
      cases h
      rfl
  | cons b rest =>
      rw [waitWhile_ok hbox] at h
      cases h

theorem starves_ideWrite (reg data : UInt8) : Starves (ideWrite channel reg data) :=
  .of_ok fun s => ⟨(), _, ideWrite_sends reg data s rfl⟩

theorem starves_idePolling (advancedCheck : Bool) : Starves (idePolling channel advancedCheck) := by
  have hdelay : Starves (delay400 channel) :=
    .bind (starves_altStatus _) fun _ => .bind (starves_altStatus _) fun _ =>
      .bind (starves_altStatus _) fun _ => .bind (starves_altStatus _) fun _ => .pure _
  refine .bind hdelay fun _ => .bind (starves_waitWhile _ _) fun _ => .ite ?_ (.pure _)
  refine .bind (starves_status _) fun state => ?_
  exact .ite (.pure _) (.ite (.pure _) (.ite (.pure _) (.pure _)))

theorem starves_pioRead (bus : UInt16) (n : Nat) (edi : UInt32) :
    Starves (pioRead channel bus n edi) := by
  induction n generalizing edi with
  | zero => exact .pure _
  | succ n ih =>
      exact .bind (starves_idePolling _ _) fun err => .ite (.pure _)
        (.bind (.modify _) fun _ => ih _)

theorem starves_pioWrite (bus : UInt16) (n : Nat) (edi : UInt32) :
    Starves (pioWrite channel bus n edi) := by
  induction n generalizing edi with
  | zero => exact .pure _
  | succ n ih =>
      exact .bind (starves_idePolling _ _) fun _ => .bind .get fun s =>
        .bind (.modify _) fun _ => ih _

theorem starves_ideAtaAccess (direction : Direction) (drive : UInt8) (lba : UInt32)
    (numsects : UInt8) (selector : UInt16) (edi : UInt32) :
    Starves (ideAtaAccess direction drive lba numsects selector edi) := by
  refine .bind .get fun s => .bind (.modify _) fun _ => .bind (starves_ideWrite _ _ _) fun _ => ?_
  refine .bind (starves_waitWhile _ _) fun _ => .bind ?_ fun _ => ?_
  · exact .of_ok fun s => ⟨(), _, sendCommand_sends _ _ _ _ s rfl⟩
  · cases direction with
    | read => exact starves_pioRead _ _ _ _
    | write =>
        exact .bind (starves_pioWrite _ _ _ _) fun _ => .bind (starves_ideWrite _ _ _) fun _ =>
          .bind (starves_idePolling _ _) fun _ => .pure _

end

end Bedrock
