import Bedrock.Proofs.TaskFileDecode

/-!
# The read loop of `ide_ata_access`

The statuses a read comes across are a function of the tape alone (`pollStatus`), as
long as no poll has failed. The loop stores a sector for every poll that passes and
returns what the first one that fails makes of its status.
-/

namespace Bedrock

open Lib

/-! ## The polls of a tape -/

/-- The tape behind a poll with the advanced check, which reads the status once more. -/
def afterPoll (tape : List UInt8) : List UInt8 := (pollTape tape).drop 2

/-- The status that poll `i` checks, if the drive ends to be busy in it. -/
def pollStatus (tape : List UInt8) : Nat → Option UInt8
  | 0 => (pollTape tape)[1]?
  | i + 1 => pollStatus (afterPoll tape) i

/-- ERR and DF are clear, and DRQ is set. -/
def Ready (status : UInt8) : Prop :=
  status &&& 0x01 = 0 ∧ status &&& 0x20 = 0 ∧ status &&& 0x08 ≠ 0

instance (status : UInt8) : Decidable (Ready status) :=
  inferInstanceAs (Decidable (_ ∧ _ ∧ _))

/-- Poll `i` passes. -/
def Passes (tape : List UInt8) (i : Nat) : Prop := ∃ status ∈ pollStatus tape i, Ready status

/-- Poll `k` is the first that fails. -/
def FailsFirst (tape : List UInt8) (k : Nat) (status : UInt8) : Prop :=
  (∀ i < k, Passes tape i) ∧ pollStatus tape k = some status ∧ ¬ Ready status

/-- In every one of `n` polls that are made, the drive stops being busy. -/
def PollsEnd (tape : List UInt8) (n : Nat) : Prop :=
  ∀ k < n, (∀ i < k, Passes tape i) → (pollStatus tape k).isSome

theorem pollCode_eq_zero {status : UInt8} : pollCode status = 0 ↔ Ready status := by
  rw [pollCode, Ready]
  by_cases herr : status &&& 0x01 = 0
  · by_cases hdf : status &&& 0x20 = 0
    · by_cases hdrq : status &&& 0x08 = 0
      · simp [herr, hdf, hdrq]
      · simp [herr, hdf, hdrq]
    · simp [herr, hdf]
  · simp [herr]

theorem forall_passes_succ {tape : List UInt8} {k : Nat} :
    (∀ i < k + 1, Passes tape i) ↔ Passes tape 0 ∧ ∀ i < k, Passes (afterPoll tape) i := by
  constructor
  · exact fun h => ⟨h 0 (Nat.succ_pos k), fun i hi => h (i + 1) (Nat.succ_lt_succ hi)⟩
  · rintro ⟨h0, h⟩ i hi
    cases i with
    | zero => exact h0
    | succ i => exact h i (Nat.lt_of_succ_lt_succ hi)

theorem PollsEnd.tail {tape : List UInt8} {n : Nat} (h : PollsEnd tape (n + 1))
    (h0 : Passes tape 0) : PollsEnd (afterPoll tape) n := fun k hk hbefore =>
  h (k + 1) (Nat.succ_lt_succ hk) (forall_passes_succ.mpr ⟨h0, hbefore⟩)

/-! ## A poll -/

/-- A poll in which the drive stops being busy. -/
theorem idePolling_ok {s : Machine Ata} (channel : Fin 2) {status : UInt8}
    (h : pollStatus s.dev.inbox 0 = some status) :
    ∃ es, (idePolling channel true).run s =
      .ok (pollCode status) (s.heard es (afterPoll s.dev.inbox)) := by
  obtain ⟨b, rest, htape⟩ : ∃ b rest, pollTape s.dev.inbox = b :: status :: rest := by
    rw [pollStatus] at h
    match hpoll : pollTape s.dev.inbox with
    | [] => simp [hpoll] at h
    | [_] => simp [hpoll] at h
    | b :: status' :: rest =>
        rw [hpoll] at h
        cases h
        exact ⟨b, rest, rfl⟩
  obtain ⟨b₁, b₂, b₃, b₄, waiting, hbox⟩ : ∃ b₁ b₂ b₃ b₄ waiting,
      s.dev.inbox = b₁ :: b₂ :: b₃ :: b₄ :: waiting := by
    match hinbox : s.dev.inbox with
    | b₁ :: b₂ :: b₃ :: b₄ :: waiting => exact ⟨b₁, b₂, b₃, b₄, waiting, rfl⟩
    | [] | [_] | [_, _] | [_, _, _] => simp [hinbox, pollTape] at htape
  have hwaiting : waiting.dropWhile (masked 0x80) = b :: status :: rest := by
    rw [← htape, hbox]
    rfl
  have hrest : afterPoll s.dev.inbox = rest := by
    rw [afterPoll, htape]
    rfl
  rw [hrest]
  exact ⟨_, idePolling_run hbox hwaiting⟩

/-! ## The sectors -/

/-- `k` sectors of the drive's data are at `edi`, and nothing else has changed. -/
structure Received (words : Nat → UInt16) (edi : UInt32) (k : Nat) (m m' : Mem) : Prop where
  words : ∀ i < 256 * k, m'.load16 (edi + UInt32.ofNat (2 * i)) = words i
  rest : SameOff (Span edi (512 * k)) m m'

variable {words : Nat → UInt16} {edi : UInt32} {k : Nat} {m m' : Mem}

theorem Received.zero : Received words edi 0 m m :=
  ⟨fun i hi => absurd hi (by omega), SameOff.refl m⟩

/-- Both bytes of a word that was stored. -/
theorem load16_write {n i : Nat} (hi : i < n) (hn : 2 * n ≤ 2 ^ 32) :
    (m.write edi (2 * n) fun j => byteOf (words (j / 2)).toNat (j % 2)).load16
      (edi + UInt32.ofNat (2 * i)) = words i := by
  have hlt := (words i).toNat_lt
  have h0 : byteOf (words (2 * i / 2)).toNat (2 * i % 2) = byteOf (words i).toNat 0 := by
    rw [Nat.mul_div_cancel_left i (by decide), Nat.mul_mod_right]
  have h1 : byteOf (words ((2 * i + 1) / 2)).toNat ((2 * i + 1) % 2) =
      byteOf (words i).toNat 1 := by
    rw [show (2 * i + 1) / 2 = i by omega, show (2 * i + 1) % 2 = 1 by omega]
  have hnext : edi + UInt32.ofNat (2 * i) + 1 = edi + UInt32.ofNat (2 * i + 1) := by
    rw [UInt32.add_assoc, UInt32.ofNat_add]
    rfl
  rw [Mem.load16, hnext, Mem.write_at (by omega) hn, Mem.write_at (by omega) hn, h0, h1]
  apply UInt16.toNat_inj.mp
  rw [byteOf, byteOf, UInt8.toNat_ofNat', UInt8.toNat_ofNat', UInt16.toNat_ofNat']
  omega

/-- A first sector and the ones behind it. -/
theorem Received.cons (hk : 512 * (k + 1) ≤ 2 ^ 32)
    (h : Received (fun i => words (256 + i)) (edi + 512) k
      (m.write edi (2 * 256) fun j => byteOf (words (j / 2)).toNat (j % 2)) m') :
    Received words edi (k + 1) m m' := by
  have hsub : ∀ a, Span (edi + 512) (512 * k) a → Span edi (512 * (k + 1)) a := fun a ha =>
    Span.sub (i := 512) ha (by omega) hk
  refine ⟨fun i hi => ?_, ?_⟩
  · rcases Nat.lt_or_ge i 256 with hlt | hge
    · -- the first sector is not written again
      rw [Mem.load16_congr fun a ha => h.rest a ?_, load16_write hlt (by decide)]
      intro hin
      exact ha.disjoint_parts (i := 2 * i) (j := 512) (by omega) (by omega) hin
    · obtain ⟨j, rfl⟩ := Nat.exists_eq_add_of_le hge
      rw [← h.words j (by omega), Nat.mul_add, UInt32.ofNat_add, UInt32.add_assoc]
      rfl
  · exact (sameOff_write.mono fun a ha => ha.mono (by omega)).trans (h.rest.mono hsub)

/-! ## The loop -/

section

theorem FailsFirst.not_passes {tape : List UInt8} {k : Nat} {status : UInt8}
    (h : FailsFirst tape k status) : ¬ Passes tape k := by
  rintro ⟨status', hstatus, hready⟩
  rw [h.2.1] at hstatus
  cases hstatus
  exact h.2.2 hready

theorem FailsFirst.unique {tape : List UInt8} {k k' : Nat} {status status' : UInt8}
    (h : FailsFirst tape k status) (h' : FailsFirst tape k' status') :
    k = k' ∧ status = status' := by
  obtain rfl : k = k' := by
    rcases Nat.lt_trichotomy k k' with hlt | heq | hgt
    · exact absurd (h'.1 k hlt) h.not_passes
    · exact heq
    · exact absurd (h.1 k' hgt) h'.not_passes
  exact ⟨rfl, Option.some_inj.mp (h.2.1.symm.trans h'.2.1)⟩

variable (channel : Fin 2) (bus : UInt16)

/-- Either every poll passes and every sector arrives, or the sectors before the first poll
that fails. -/
theorem pioRead_run {s : Machine Ata} {n : Nat} (edi : UInt32) (hn : 512 * n ≤ 2 ^ 32)
    (hends : PollsEnd s.dev.inbox n) :
    ∃ r k t, (pioRead channel bus n edi).run s = .ok r t ∧
      Received s.dev.words edi k s.mem t.mem ∧
      ((k = n ∧ r = 0 ∧ ∀ i < n, Passes s.dev.inbox i) ∨
        k < n ∧ ∃ status, FailsFirst s.dev.inbox k status ∧ r = pollCode status) := by
  induction n generalizing s edi with
  | zero =>
      exact ⟨0, 0, s, rfl, .zero, .inl ⟨rfl, rfl, fun i hi => absurd hi (Nat.not_lt_zero i)⟩⟩
  | succ n ih =>
      obtain ⟨status, hstatus⟩ := Option.isSome_iff_exists.mp
        (hends 0 (Nat.succ_pos n) fun i hi => absurd hi (Nat.not_lt_zero i))
      obtain ⟨es, hpoll⟩ := idePolling_ok channel hstatus
      rw [pioRead, Exec.bind_ok hpoll]
      by_cases hready : Ready status
      · have h0 : Passes s.dev.inbox 0 := ⟨status, hstatus, hready⟩
        obtain ⟨s₁, hs₁⟩ : ∃ s₁, (repInsw bus 256 edi).run
            (s.heard es (afterPoll s.dev.inbox)) = .ok () s₁ := ⟨_, rfl⟩
        have hinbox : s₁.dev.inbox = afterPoll s.dev.inbox := by
          cases hs₁
          rfl
        obtain ⟨r, k, t, hrun, hreceived, hend⟩ := ih (s := s₁) (edi + 512) (by omega)
          (hinbox ▸ hends.tail h0)
        rw [if_neg (not_not.mpr (pollCode_eq_zero.mpr hready)), Exec.bind_ok hs₁, hrun]
        rw [hinbox] at hend
        have hk : k ≤ n := by
          rcases hend with ⟨rfl, -, -⟩ | ⟨hlt, -⟩
          · exact Nat.le_refl k
          · exact Nat.le_of_lt hlt
        refine ⟨r, k + 1, t, rfl, Received.cons (by omega) ?_, ?_⟩
        · cases hs₁
          exact hreceived
        · rcases hend with ⟨rfl, hr, hall⟩ | ⟨hlt, status', ⟨hbefore, hfirst, hnot⟩, hr⟩
          · exact .inl ⟨rfl, hr, forall_passes_succ.mpr ⟨h0, hall⟩⟩
          · exact .inr ⟨Nat.succ_lt_succ hlt, status',
              ⟨forall_passes_succ.mpr ⟨h0, hbefore⟩, hfirst, hnot⟩, hr⟩
      · rw [if_pos (mt pollCode_eq_zero.mp hready)]
        exact ⟨_, 0, _, rfl, .zero, .inr ⟨Nat.succ_pos n, status,
          ⟨fun i hi => absurd hi (Nat.not_lt_zero i), hstatus, hready⟩, rfl⟩⟩

end

/-! ## Main result -/

/-- The code of a status that fails. -/
theorem pollCode_of_not_ready {status : UInt8} (h : ¬ Ready status) :
    pollCode status =
      if status &&& 0x01 ≠ 0 then 2 else if status &&& 0x20 ≠ 0 then 1 else 3 := by
  rw [pollCode]
  by_cases herr : status &&& 0x01 = 0
  · by_cases hdf : status &&& 0x20 = 0
    · have hdrq : status &&& 0x08 = 0 := by
        by_contra hset
        exact h ⟨herr, hdf, hset⟩
      rw [if_neg (not_not.mpr herr), if_neg (not_not.mpr herr), if_neg (not_not.mpr hdf),
        if_neg (not_not.mpr hdf), if_pos hdrq]
    · rw [if_neg (not_not.mpr herr), if_neg (not_not.mpr herr), if_pos hdf, if_pos hdf]
  · rw [if_pos herr, if_pos herr]

/-- A read on a tape on which the drive stops being busy before the command and in every
poll. -/
theorem ideAtaAccess_read {s : Machine Ata} (drive : UInt8) (lba : UInt32) (numsects : UInt8)
    (selector : UInt16) (edi : UInt32) {b : UInt8} {tape : List UInt8}
    (hready : s.dev.inbox.dropWhile (masked 0x80) = b :: tape)
    (hends : PollsEnd tape numsects.toNat) :
    ∃ r t, (ideAtaAccess .read drive lba numsects selector edi).run s = .ok r t ∧
      (r = 0 ↔ ∀ i < numsects.toNat, Passes tape i) ∧
      ((∀ i < numsects.toNat, Passes tape i) →
        Received s.dev.words edi numsects.toNat s.mem t.mem) ∧
      ∀ k < numsects.toNat, ∀ status, FailsFirst tape k status →
        r = (if status &&& 0x01 ≠ 0 then 2 else if status &&& 0x20 ≠ 0 then 1 else 3) ∧
        Received s.dev.words edi k s.mem t.mem := by
  have hlt := numsects.toNat_lt
  obtain ⟨-, -, ⟨hbusy, -⟩ | ⟨b', rest, u, hbox, hrun, hinbox, -, -, hmem, hwords, -⟩⟩ :=
    ideAtaAccess_cases s .read drive lba numsects selector edi rfl rfl
  · rw [hbusy] at hready
    cases hready
  · rw [hready] at hbox
    cases hbox
    obtain ⟨r, k, t, hpio, hreceived, hend⟩ := pioRead_run
      (s.dev.ideDevices drive).channel (s.dev.channels (s.dev.ideDevices drive).channel).base
      (s := u) (n := numsects.toNat) edi (by omega) (hinbox ▸ hends)
    rw [hinbox] at hend
    rw [hwords, hmem] at hreceived
    refine ⟨r, t, hrun.trans hpio, ?_⟩
    rcases hend with ⟨rfl, rfl, hall⟩ | ⟨hk, status, hfirst, rfl⟩
    · exact ⟨iff_of_true rfl hall, fun _ => hreceived,
        fun k hk status hfirst => absurd (hall k hk) hfirst.not_passes⟩
    · have hnotAll : ¬ ∀ i < numsects.toNat, Passes tape i := fun hall =>
        hfirst.not_passes (hall k hk)
      refine ⟨iff_of_false (mt pollCode_eq_zero.mp hfirst.2.2) hnotAll,
        fun hall => absurd hall hnotAll, fun k' _ status' hfirst' => ?_⟩
      obtain ⟨rfl, rfl⟩ := hfirst.unique hfirst'
      exact ⟨pollCode_of_not_ready hfirst.2.2, hreceived⟩

/-- Two sectors, and ERR is set in the status of the second. -/
theorem ideAtaAccess_read_two :
    let a := ataBoot ⟨1, 0, 0, .ata, 0x200, 1000, []⟩
      [0x50, 0xD0, 0xD0, 0xD0, 0xD0, 0xD0, 0x58, 0x58, 0xD0, 0xD0, 0xD0, 0xD0, 0x59, 0x59]
    let s := { a with dev.words := UInt16.ofNat }
    ∃ t, (ideAtaAccess .read 0 7 2 0x10 0x5000).run s = .ok 2 t ∧
      Received UInt16.ofNat 0x5000 1 s.mem t.mem := by
  intro a s
  have hends : PollsEnd [0xD0, 0xD0, 0xD0, 0xD0, 0xD0, 0x58, 0x58, 0xD0, 0xD0, 0xD0, 0xD0, 0x59,
      0x59] (2 : UInt8).toNat := by
    intro k hk _
    obtain rfl | rfl : k = 0 ∨ k = 1 := by
      have hlt : k < 2 := hk
      omega
    · decide
    · decide
  obtain ⟨r, t, hrun, -, -, hfails⟩ := ideAtaAccess_read (s := s) 0 7 2 0x10 0x5000 rfl hends
  obtain ⟨rfl, hreceived⟩ := hfails 1 (by decide) 0x59 ⟨fun i hi => by
    obtain rfl : i = 0 := by omega
    exact ⟨0x58, rfl, by decide⟩, rfl, by decide⟩
  exact ⟨t, hrun, hreceived⟩

end Bedrock
