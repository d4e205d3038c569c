import Bedrock.Proofs.DriveReplay

/-!
# What a transfer moves

`ide_ata_access` over a channel of drives. A read that returns 0 has delivered
the sectors of the medium, one that returns an error those before the one that
failed; a write has replaced them on the medium, up to the one that failed. The
channel is allowed to take its time before every block, to show anything while a
command settles, and to fail at any block.

The advanced check of `ide_polling` is what makes the read safe: on a channel of
drives it lets exactly the blocks through that the drive has ready. The write
goes on after a failure, and the drive ignores what it is sent.
-/

namespace Bedrock

open Lib

/-! ## Polls -/

/-- The advanced check lets a block through that the drive asks for. -/
theorem pollCode_wanted {p : Phase} {state : UInt8} (hshows : p.Shows state)
    (hwants : p.wantsData = true) : pollCode state = 0 := by
  have hne : p ≠ .failed := by
    rintro rfl
    cases hwants
  obtain ⟨-, hrest⟩ := hshows
  rw [if_neg hne] at hrest
  obtain ⟨herr, hdrq⟩ := hrest
  have hmask : ∀ m : UInt8, 0x21 &&& m = m → state &&& m = 0 := fun m hm => by
    rw [← hm, ← UInt8.and_assoc, herr, UInt8.zero_and]
  rw [pollCode, hmask 0x01 rfl, hmask 0x20 rfl]
  exact if_neg (hdrq.mpr hwants)

/-- And reports every failure, with one of two codes. -/
theorem pollCode_failed {state : UInt8} (hshows : Phase.failed.Shows state) :
    pollCode state = 1 ∨ pollCode state = 2 := by
  have hbits : ∀ b : Fin 256, UInt8.ofNat b.val &&& 0x21 ≠ 0 →
      pollCode (UInt8.ofNat b.val) = 1 ∨ pollCode (UInt8.ofNat b.val) = 2 := by
    decide +kernel
  have hstate := hbits ⟨state.toNat, state.toNat_lt⟩
  simp only [UInt8.ofNat_toNat] at hstate
  exact hstate hshows.2

/-- A poll ends with the block the drive was asked for, or with a failure. -/
theorem Polled.cases {ch ch' : Channel} {state : UInt8} (h : Polled ch ch' state) :
    (ch'.phase = ch.phase ∧ ch'.failures = ch.failures) ∨
      (ch'.phase = .failed ∧ ch'.failures = ch.failures + 1) := by
  rcases h.outcome with ⟨hphase, hfail, -⟩ | ⟨-, -, hphase, hfail⟩
  · exact .inl ⟨hphase, hfail⟩
  · exact .inr ⟨hphase, hfail⟩

/-- Where a transfer of `n` blocks has got to when it ends, after `k` of them. -/
structure Ended (n k : Nat) (ch ch' : Channel) : Prop where
  drives : ch'.drives = ch.drives
  outcome : (k = n ∧ ch'.phase = .idle ∧ ch'.failures = ch.failures) ∨
    (k < n ∧ ch'.phase = .failed ∧ ch'.failures = ch.failures + 1)

theorem Ended.le {n k : Nat} {ch ch' : Channel} (h : Ended n k ch ch') : k ≤ n := by
  rcases h.outcome with ⟨hk, -⟩ | ⟨hk, -⟩
  · exact Nat.le_of_eq hk
  · exact Nat.le_of_lt hk

/-- One block more in front. -/
theorem Ended.succ {n k : Nat} {ch ch₁ ch' : Channel} (h : Ended n k ch₁ ch')
    (hdrives : ch₁.drives = ch.drives) (hfail : ch₁.failures = ch.failures) :
    Ended (n + 1) (k + 1) ch ch' := by
  refine ⟨h.drives.trans hdrives, ?_⟩
  rcases h.outcome with ⟨hk, hphase, hf⟩ | ⟨hk, hphase, hf⟩
  · exact .inl ⟨congrArg (· + 1) hk, hphase, hf.trans hfail⟩
  · exact .inr ⟨Nat.succ_lt_succ hk, hphase, by rw [hf, hfail]⟩

section

variable {channel : Fin 2} {c : IdeChannelRegisters} {s t : Machine Ata} {edi : UInt32}

/-! ## Blocks -/

/-- A block of words received. -/
theorem repInsw_replayed {n : Nat} (alt : UInt16)
    (h : (repInsw c.base n edi).run s = .ok () t) :
    Replayed c.base alt s t fun ch ch' =>
      ∀ unit pos k, ch.Ready → ch.phase = .sending unit pos (2 * n) k →
        ch' = ch.begin (.send unit (pos + 2 * n) (2 * n) k) ∧
        t.mem = s.mem.write edi (2 * n) fun i => ch.content unit (pos + i) := by
  cases h
  refine ⟨[.insw c.base n], rfl, rfl, fun ch ch' hplay unit pos k hready hphase => ?_⟩
  rw [accesses, if_pos rfl, accesses, Channel.play_cons] at hplay
  obtain ⟨ch₁, hstep, hend⟩ := Option.bind_eq_some_iff.mp hplay
  obtain rfl : ch₁ = ch' := Option.some.inj hend
  have hlen : ((List.range n).map s.dev.words).length = n := by
    rw [List.length_map, List.length_range]
  obtain ⟨hwords, hnext⟩ := hready.dataIn hphase (by rw [hlen]) hstep
  refine ⟨hnext, ?_⟩
  show s.mem.write edi (2 * n) (fun j => byteOf (s.dev.words (j / 2)).toNat (j % 2)) = _
  refine Mem.write_congr fun i hi => ?_
  have hword : ((List.range n).map s.dev.words).getD (i / 2) 0 = s.dev.words (i / 2) := by
    rw [List.getD_eq_getElem?_getD, List.getElem?_map, List.getElem?_range (by omega)]
    rfl
  rw [hlen] at hwords
  have hbyte : blockByte ((List.range n).map s.dev.words) i = ch.content unit (pos + i) := by
    rw [hwords, blockByte_mediumWords hi]
  rw [← hbyte, blockByte, hword]

/-- The words of memory hold its bytes. -/
theorem blockByte_wordsAt (m : Mem) (p : UInt32) {n i : Nat} (hi : i < 2 * n) :
    blockByte (wordsAt m p n) i = m (p + UInt32.ofNat i) := by
  have hword : wordsAt m p n = mediumWords (fun j => m (p + UInt32.ofNat j)) 0 n := by
    rw [wordsAt, mediumWords]
    refine List.map_congr_left fun j _ => ?_
    rw [Mem.load16, le16, Nat.zero_add, UInt32.ofNat_add, UInt32.add_assoc]
    rfl
  rw [hword, blockByte_mediumWords hi, Nat.zero_add]

/-- A block of words sent to a drive that asks for it. -/
theorem repOutsw_replayed {n : Nat} (alt : UInt16)
    (h : (repOutsw c.base (wordsAt s.mem edi n)).run s = .ok () t) :
    Replayed c.base alt s t fun ch ch' =>
      (∀ unit pos k, ch.Ready → ch.phase = .receiving unit pos (2 * n) k →
        ch' = { ch with
          content := Function.update ch.content unit
            (patch (ch.content unit) pos (2 * n) fun i =>
              s.mem (edi + UInt32.ofNat i)) }.begin
          (.receive unit (pos + 2 * n) (2 * n) k)) ∧
      (ch.phase = .failed → ch' = ch) := by
  cases h
  refine ⟨[.outsw c.base (wordsAt s.mem edi n)], rfl, ?_, fun ch ch' hplay => ?_⟩
  · funext i
    exact congrArg s.dev.words (Nat.zero_add i).symm
  rw [accesses, if_pos rfl, accesses, Channel.play_cons] at hplay
  obtain ⟨ch₁, hstep, hend⟩ := Option.bind_eq_some_iff.mp hplay
  obtain rfl : ch₁ = ch' := Option.some.inj hend
  have hlen : (wordsAt s.mem edi n).length = n := by
    rw [wordsAt, List.length_map, List.length_range]
  constructor
  · intro unit pos k hready hphase
    rw [hready.dataOut hphase (by rw [hlen]) hstep,
      patch_congr fun i hi => blockByte_wordsAt s.mem edi hi]
  · intro hfailed
    rw [Channel.step, Channel.take, hfailed] at hstep
    exact (Option.some.inj (by rwa [ite_self] at hstep)).symm

/-! ## The loops -/

/-- A poll that reports an error has met a failed command. -/
theorem refused_block {err : UInt8} (hc : s.dev.channels channel = c)
    (h : (idePolling channel true).run s = .ok err t) (herr : err ≠ 0) :
    t.mem = s.mem ∧ Replayed c.base (altStatusPort c) s t fun ch ch' =>
      ch.settle ≤ 4 → ch.phase.wantsData = true → (err = 1 ∨ err = 2) ∧
        ch'.drives = ch.drives ∧ ch'.content = ch.content ∧ ch'.phase = .failed ∧
        ch'.failures = ch.failures + 1 := by
  refine ⟨?_, (idePolling_checked_replayed hc h).mono fun ch ch' hch hsettle hwants => ?_⟩
  · obtain ⟨_, _, _, _, _, _, _, _, rfl⟩ := idePolling_checked_heard h
    rfl
  · obtain ⟨state, hcode, hend⟩ := hch hsettle
    rcases hend.cases with ⟨hsame, -⟩ | ⟨hfailed, hfailures⟩
    · exact absurd (hcode.trans (pollCode_wanted hend.shows (hsame ▸ hwants))) herr
    · have hshows : Phase.failed.Shows state := hfailed ▸ hend.shows
      exact ⟨hcode ▸ pollCode_failed hshows, hend.drives, hend.content, hfailed, hfailures⟩

/-- A channel that has failed and is told no more than blocks stays as it is. -/
structure Stays (ch ch' : Channel) : Prop where
  drives : ch'.drives = ch.drives
  content : ch'.content = ch.content
  phase : ch'.phase = .failed
  failures : ch'.failures = ch.failures
  settle : ch'.settle ≤ 4

/-- A poll of a channel that has failed reports it. -/
theorem failed_block {err : UInt8} (hc : s.dev.channels channel = c)
    (h : (idePolling channel true).run s = .ok err t) :
    t.mem = s.mem ∧ Replayed c.base (altStatusPort c) s t fun ch ch' =>
      ch.settle ≤ 4 → ch.phase = .failed → ch.busy = false →
        (err = 1 ∨ err = 2) ∧ Stays ch ch' := by
  refine ⟨?_, (idePolling_checked_replayed hc h).mono fun ch ch' hch hsettle hphase hbusy => ?_⟩
  · obtain ⟨_, _, _, _, _, _, _, _, rfl⟩ := idePolling_checked_heard h
    rfl
  · obtain ⟨state, hcode, hend⟩ := hch hsettle
    rcases hend.outcome with ⟨hsame, hfailures, -⟩ | ⟨hbusy', -⟩
    · have hshows : Phase.failed.Shows state := hphase ▸ hsame ▸ hend.shows
      exact ⟨hcode ▸ pollCode_failed hshows, hend.drives, hend.content, hsame.trans hphase,
        hfailures, by rw [hend.ready.2]; exact Nat.zero_le 4⟩
    · rw [hbusy] at hbusy'
      cases hbusy'

/-- A poll that reports none has found the drive with its data ready. -/
theorem granted_block (hc : s.dev.channels channel = c)
    (h : (idePolling channel true).run s = .ok 0 t) :
    t.mem = s.mem ∧ Replayed c.base (altStatusPort c) s t fun ch ch' =>
      ch.settle ≤ 4 → ch'.Ready ∧ ch'.drives = ch.drives ∧ ch'.capacity = ch.capacity ∧
        ch'.content = ch.content ∧ ch'.phase = ch.phase ∧ ch'.failures = ch.failures := by
  refine ⟨?_, (idePolling_checked_replayed hc h).mono fun ch ch' hch hsettle => ?_⟩
  · obtain ⟨_, _, _, _, _, _, _, _, rfl⟩ := idePolling_checked_heard h
    rfl
  · obtain ⟨state, hcode, hend⟩ := hch hsettle
    rcases hend.cases with ⟨hsame, hfailures⟩ | ⟨hfailed, -⟩
    · exact ⟨hend.ready, hend.drives, hend.capacity, hend.content, hsame, hfailures⟩
    · have hshows : Phase.failed.Shows state := hfailed ▸ hend.shows
      rcases pollCode_failed hshows with h1 | h2
      · rw [← hcode] at h1
        cases h1
      · rw [← hcode] at h2
        cases h2

/-- A block granted and received. -/
theorem received_block {n : Nat} {s₁ : Machine Ata} (hc : s.dev.channels channel = c)
    (hpoll : (idePolling channel true).run s = .ok 0 s₁)
    (hin : (repInsw c.base n edi).run s₁ = .ok () t) :
    t.dev.channels channel = c ∧ Replayed c.base (altStatusPort c) s t fun ch ch' =>
      ∀ unit pos k, ch.settle ≤ 4 → ch.phase = .sending unit pos (2 * n) k →
        ch'.drives = ch.drives ∧ ch'.content = ch.content ∧
        ch'.phase = .send unit (pos + 2 * n) (2 * n) k ∧ ch'.settle = 4 ∧
        ch'.failures = ch.failures ∧
        t.mem = s.mem.write edi (2 * n) fun i => ch.content unit (pos + i) := by
  have hlogs := (onlyReads_idePolling channel true).of_ok hpoll
  obtain ⟨hmem, hgranted⟩ := granted_block hc hpoll
  have hblock := repInsw_replayed (altStatusPort c) hin
  refine ⟨?_, (hgranted.trans hblock).mono fun ch ch' hch unit pos k hsettle hphase => ?_⟩
  · cases hin
    rw [← hc, ← hlogs.channels]
    rfl
  · obtain ⟨ch₁, hch₁, hch'⟩ := hch
    obtain ⟨hready, hdrives, -, hcontent, hsame, hfailures⟩ := hch₁ hsettle
    obtain ⟨rfl, hdata⟩ := hch' unit pos k hready (hsame.trans hphase)
    exact ⟨hdrives, hcontent, rfl, rfl, hfailures, by rw [hdata, hmem, hcontent]⟩

/-- A block in front of the others. -/
theorem write_block {m : Mem} {size k : Nat} {f : Nat → UInt8}
    (h : size * (k + 1) ≤ 2 ^ 32) :
    (m.write edi size f).write (edi + UInt32.ofNat size) (size * k) (fun i => f (size + i)) =
      m.write edi (size * (k + 1)) f := by
  rw [Nat.mul_add, Nat.add_comm, Nat.mul_one] at *
  rw [← Mem.write_write h]

/-- A read stops at the first block that fails. -/
theorem pioRead_replayed {n : Nat} {err : UInt8} (hc : s.dev.channels channel = c)
    (hn : 512 * n ≤ 2 ^ 32) (h : (pioRead channel c.base n edi).run s = .ok err t) :
    Replayed c.base (altStatusPort c) s t fun ch ch' =>
      ∀ unit pos, ch.settle ≤ 4 → ch.phase = .send unit pos 512 n →
        ∃ k, Ended n k ch ch' ∧ (k = n ∧ err = 0 ∨ k < n ∧ (err = 1 ∨ err = 2)) ∧
          ch'.content = ch.content ∧
          t.mem = s.mem.write edi (512 * k) fun i => ch.content unit (pos + i) := by
  induction n generalizing s edi with
  | zero =>
      obtain ⟨rfl, rfl⟩ := Exec.pure_inv h
      refine (Replayed.refl _).mono fun ch ch' hch unit pos _ hphase => ?_
      subst hch
      exact ⟨0, ⟨rfl, .inl ⟨rfl, hphase, rfl⟩⟩, .inl ⟨rfl, rfl⟩, rfl, Mem.write_zero.symm⟩
  | succ n ih =>
      rw [pioRead] at h
      obtain ⟨err₁, s₁, hpoll, h⟩ := Exec.bind_inv h
      split at h
      · rename_i herr
        obtain ⟨rfl, rfl⟩ := Exec.pure_inv h
        obtain ⟨hmem, hrefused⟩ := refused_block hc hpoll herr
        refine hrefused.mono fun ch ch' hch unit pos hsettle hphase => ?_
        obtain ⟨hcode, hdrives, hcontent, hfailed, hfailures⟩ :=
          hch hsettle (by rw [hphase]; rfl)
        exact ⟨0, ⟨hdrives, .inr ⟨Nat.succ_pos n, hfailed, hfailures⟩⟩,
          .inr ⟨Nat.succ_pos n, hcode⟩, hcontent, by rw [hmem, Nat.mul_zero, Mem.write_zero]⟩
      · rename_i herr
        rw [ne_eq, not_not] at herr
        subst herr
        obtain ⟨_, s₂, hin, h⟩ := Exec.bind_inv h
        obtain ⟨hc₂, hblock⟩ := received_block hc hpoll hin
        refine (hblock.trans (ih hc₂ (by omega) h)).mono ?_
        rintro ch ch' ⟨ch₁, hch₁, hch'⟩ unit pos hsettle hphase
        obtain ⟨hdrives, hcontent₁, hphase₁, hsettle₁, hfailures, hdata⟩ :=
          hch₁ unit pos n hsettle hphase
        obtain ⟨k, hended, hk, hcontent, hmem⟩ :=
          hch' unit (pos + 512) (Nat.le_of_eq hsettle₁) hphase₁
        have hle := hended.le
        refine ⟨k + 1, hended.succ hdrives hfailures,
          hk.imp (fun h => ⟨congrArg (· + 1) h.1, h.2⟩) (fun h => ⟨Nat.succ_lt_succ h.1, h.2⟩),
          hcontent.trans hcontent₁, ?_⟩
        rw [← write_block (by omega), hmem, hdata, hcontent₁]
        simp only [Nat.add_assoc]
        rfl

/-- On a channel that has failed it stops at once. -/
theorem pioRead_refused {n : Nat} {err : UInt8} (hc : s.dev.channels channel = c)
    (hn : 512 * n ≤ 2 ^ 32) (hpos : 0 < n)
    (h : (pioRead channel c.base n edi).run s = .ok err t) :
    Replayed c.base (altStatusPort c) s t fun ch ch' =>
      ch.settle ≤ 4 → ch.phase = .failed → ch.busy = false →
        (err = 1 ∨ err = 2) ∧ t.mem = s.mem ∧ Stays ch ch' := by
  obtain ⟨m, rfl⟩ : ∃ m, n = m + 1 := ⟨n - 1, by omega⟩
  rw [pioRead] at h
  obtain ⟨err₁, s₁, hpoll, h⟩ := Exec.bind_inv h
  obtain ⟨hmem, hfailed⟩ := failed_block hc hpoll
  split at h
  · obtain ⟨rfl, rfl⟩ := Exec.pure_inv h
    exact hfailed.mono fun ch ch' hch hsettle hphase hbusy =>
      ⟨(hch hsettle hphase hbusy).1, hmem, (hch hsettle hphase hbusy).2⟩
  · rename_i herr
    rw [ne_eq, not_not] at herr
    subst herr
    obtain ⟨_, s₂, hin, h⟩ := Exec.bind_inv h
    have hc₂ := (received_block hc hpoll hin).1
    have hrest := (repInsw_replayed (altStatusPort c) hin).trans
      (pioRead_replayed hc₂ (by omega) h)
    refine (hfailed.trans hrest).mono fun ch ch'' hch hsettle hphase hbusy => ?_
    obtain ⟨ch', hch', -⟩ := hch
    rcases (hch' hsettle hphase hbusy).1 with h1 | h2
    · cases h1
    · cases h2

/-- A round of a write, taken apart. -/
theorem pioWrite_succ {n : Nat} (hc : s.dev.channels channel = c)
    (h : (pioWrite channel c.base (n + 1) edi).run s = .ok () t) :
    ∃ s₁, s₁.mem = s.mem ∧ s₁.dev.channels channel = c ∧
      Replayed c.base (altStatusPort c) s s₁ (fun ch ch' =>
        ch.settle ≤ 4 → ∃ ch₁, (∃ state, Polled ch ch₁ state) ∧
          (∀ unit pos k, ch₁.phase = .receiving unit pos 512 k →
            ch' = { ch₁ with
              content := Function.update ch₁.content unit
                (patch (ch₁.content unit) pos 512 fun i =>
                  s.mem (edi + UInt32.ofNat i)) }.begin (.receive unit (pos + 512) 512 k)) ∧
          (ch₁.phase = .failed → ch' = ch₁)) ∧
      (pioWrite channel c.base n (edi + 512)).run s₁ = .ok () t := by
  rw [pioWrite] at h
  obtain ⟨_, s₁, hpoll, h⟩ := Exec.bind_inv h
  obtain ⟨_, _, hget, h⟩ := Exec.bind_inv h
  cases hget
  obtain ⟨_, s₂, hout, h⟩ := Exec.bind_inv h
  have hpolled := idePolling_replayed hc hpoll
  have hmem₁ : s₁.mem = s.mem := by
    obtain ⟨_, _, _, _, _, _, rfl⟩ := idePolling_heard hpoll
    rfl
  have hc₁ := ((onlyReads_idePolling channel false).of_ok hpoll).channels
  have hblock := repOutsw_replayed (altStatusPort c) hout
  have hend : s₂.mem = s₁.mem ∧ s₂.dev.channels = s₁.dev.channels := by
    cases hout
    exact ⟨rfl, rfl⟩
  refine ⟨s₂, hend.1.trans hmem₁, by rw [hend.2, hc₁, hc],
    (hpolled.trans hblock).mono fun ch ch' hch hsettle => ?_, h⟩
  obtain ⟨ch₁, hch₁, hch'⟩ := hch
  obtain ⟨state, hpoll'⟩ := hch₁ hsettle
  refine ⟨ch₁, ⟨state, hpoll'⟩, fun unit pos k hphase => ?_, hch'.2⟩
  rw [hch'.1 unit pos k hpoll'.ready hphase, hmem₁]

theorem pioWrite_failed {n : Nat} (hc : s.dev.channels channel = c)
    (h : (pioWrite channel c.base n edi).run s = .ok () t) :
    Replayed c.base (altStatusPort c) s t fun ch ch' =>
      ch.settle ≤ 4 → ch.phase = .failed → ch.busy = false → Stays ch ch' := by
  induction n generalizing s edi with
  | zero =>
      obtain ⟨-, rfl⟩ := Exec.pure_inv h
      refine (Replayed.refl _).mono fun ch ch' hch hsettle hphase _ => ?_
      subst hch
      exact ⟨rfl, rfl, hphase, rfl, hsettle⟩
  | succ n ih =>
      obtain ⟨s₁, -, hc₁, hround, hrest⟩ := pioWrite_succ hc h
      refine (hround.trans (ih hc₁ hrest)).mono fun ch ch' hch hsettle hphase hbusy => ?_
      obtain ⟨ch₂, hch₂, hch'⟩ := hch
      obtain ⟨ch₁, ⟨state, hpoll⟩, -, hsame⟩ := hch₂ hsettle
      rcases hpoll.outcome with ⟨hphase₁, hfail₁, -⟩ | ⟨hbusy₁, -⟩
      · obtain rfl := hsame (hphase₁.trans hphase)
        have hstays := hch' (by rw [hpoll.ready.2]; exact Nat.zero_le 4)
          (hphase₁.trans hphase) hpoll.ready.1
        exact ⟨hstays.drives.trans hpoll.drives, hstays.content.trans hpoll.content,
          hstays.phase, hstays.failures.trans hfail₁, hstays.settle⟩
      · rw [hbusy] at hbusy₁
        cases hbusy₁

/-- A block of a medium in front of the others. -/
theorem patch_block {f g : Nat → UInt8} {pos k : Nat} :
    patch (patch f pos 512 g) (pos + 512) (512 * k) (fun i => g (512 + i)) =
      patch f pos (512 * (k + 1)) g := by
  rw [patch_patch, Nat.mul_add, Nat.add_comm]

/-- A write replaces the blocks up to the one that fails. -/
theorem pioWrite_replayed {n : Nat} (hc : s.dev.channels channel = c)
    (h : (pioWrite channel c.base n edi).run s = .ok () t) :
    t.mem = s.mem ∧ Replayed c.base (altStatusPort c) s t fun ch ch' =>
      ∀ unit pos, ch.settle ≤ 4 → ch.phase = .receive unit pos 512 n →
        ∃ k, Ended n k ch ch' ∧ ch'.settle ≤ 4 ∧
          ch'.content = Function.update ch.content unit
            (patch (ch.content unit) pos (512 * k) fun i => s.mem (edi + UInt32.ofNat i)) := by
  induction n generalizing s edi with
  | zero =>
      obtain ⟨-, rfl⟩ := Exec.pure_inv h
      refine ⟨rfl, (Replayed.refl _).mono fun ch ch' hch unit pos hsettle hphase => ?_⟩
      subst hch
      refine ⟨0, ⟨rfl, .inl ⟨rfl, hphase, rfl⟩⟩, hsettle, ?_⟩
      rw [Nat.mul_zero, patch_zero, Function.update_eq_self]
  | succ n ih =>
      obtain ⟨s₁, hmem₁, hc₁, hround, hrest⟩ := pioWrite_succ hc h
      obtain ⟨hmem, hgood⟩ := ih hc₁ hrest
      have hbad := pioWrite_failed hc₁ hrest
      refine ⟨hmem.trans hmem₁, (hround.trans (hgood.and hbad)).mono
        fun ch ch' hch unit pos hsettle hphase => ?_⟩
      obtain ⟨ch₂, hch₂, hch'⟩ := hch
      obtain ⟨ch₁, ⟨state, hpoll⟩, hnext, hsame⟩ := hch₂ hsettle
      rcases hpoll.cases with ⟨hphase₁, hfail₁⟩ | ⟨hfailed, hfail₁⟩
      · -- the drive took the block
        obtain rfl := hnext unit pos n (hphase₁.trans hphase)
        obtain ⟨k, hended, hsettle', hcontent⟩ := hch'.1 unit (pos + 512) (Nat.le_refl 4) rfl
        refine ⟨k + 1, hended.succ hpoll.drives hfail₁, hsettle', ?_⟩
        rw [hcontent, hmem₁, ← hpoll.content, ← patch_block]
        simp only [Channel.begin, Function.update_self, Function.update_idem, UInt32.add_assoc,
          UInt32.ofNat_add]
        rfl
      · -- it failed, and ignores what is left
        obtain rfl := hsame hfailed
        have hstays := hch'.2 (by rw [hpoll.ready.2]; exact Nat.zero_le 4) hfailed
          hpoll.ready.1
        refine ⟨0, ⟨hstays.drives.trans hpoll.drives, .inr ⟨Nat.succ_pos n, hstays.phase,
          hstays.failures.trans hfail₁⟩⟩, hstays.settle, ?_⟩
        rw [hstays.content, hpoll.content, Nat.mul_zero, patch_zero, Function.update_eq_self]

end

/-! ## The command -/

section

variable {s t : Machine Ata} {direction : Direction} {drive numsects : UInt8} {lba : UInt32}
  {selector : UInt16} {edi : UInt32} {err : UInt8} {c : IdeChannelRegisters}

/-- The transfer that a request asks for. -/
def transferPhase (device : IdeDevice) (direction : Direction) (lba : UInt32) (n : Nat) : Phase :=
  let pos := 512 * lba.toNat
  match direction with
  | .read => .send device.drive.val pos 512 n
  | .write => .receive device.drive.val pos 512 n

theorem ofCommand_transfer (capacity : Nat → Nat) (device : IdeDevice) (direction : Direction)
    (lba : UInt32) (n space : Nat) :
    Phase.ofCommand capacity (.transfer direction device.drive.val lba.toNat n space) =
      if 512 * (lba.toNat + n) ≤ capacity device.drive.val then
        some (transferPhase device direction lba n)
      else none := by
  cases direction <;> rfl

/-- The channel when the command has been sent: on its way, or with a failure
where the medium ends before the last sector. -/
structure Sent (device : IdeDevice) (direction : Direction) (lba : UInt32) (n : Nat)
    (ch ch' : Channel) : Prop where
  content : ch'.content = ch.content
  settle : ch'.settle = 4
  failures : ch.failures ≤ ch'.failures
  outcome :
    (512 * (lba.toNat + n) ≤ ch.capacity device.drive.val ∧
      ch'.phase = transferPhase device direction lba n) ∨
    (ch'.phase = .failed ∧ ch'.busy = false ∧ ch.failures < ch'.failures)

/-- What comes before the command loads registers and reads the status. -/
theorem replayed_sent (hctrl : ControlApart c) (device : IdeDevice) (hn : numsects ≠ 0)
    (haddr : Addressable device lba) {u : Machine Ata} {waited : List PortEvent}
    (hwaited : ∀ e ∈ waited, e.IsRead) (hwords : u.dev.words = s.dev.words)
    (hlog : u.dev.log = s.dev.log ++ (writeEvents { c with nIEN := 2 } 0x0C 2 ++ (waited ++
      sendEvents { c with nIEN := 2 } device.drive (selectLba device.capabilities lba) numsects
        direction))) :
    Replayed c.base (altStatusPort c) s u (Sent device direction lba numsects.toNat) := by
  let c₂ : IdeChannelRegisters := { c with nIEN := 2 }
  have hctrl₂ : ControlApart c₂ := hctrl
  have hoff : ∀ e ∈ writeEvents c₂ 0x0C 2, e.Loads c₂.base :=
    writeEvents_loads hctrl₂ (by decide) (by decide) 2
  refine ⟨_, hlog, ?_, fun ch ch' hplay => ?_⟩
  · rw [received_notBlock (sent_notBlock hwaited _ _ _ _), skip_zero, hwords]
  · rw [accesses_append, accesses_append] at hplay
    obtain ⟨ch₁, h₁, hplay⟩ := Channel.play_append_inv hplay
    obtain ⟨ch₂, h₂, h₃⟩ := Channel.play_append_inv hplay
    have hload := (play_loads (altStatusPort c₂) hoff s.dev.words ch).symm.trans h₁
    injection hload with hload
    obtain ⟨bs, hbs⟩ := accesses_reads c.base (altStatusPort c) hwaited
      (skip (received (writeEvents c₂ 0x0C 2)) s.dev.words)
    rw [hbs] at h₂
    have hwait := (Channel.statuses_waited h₂).1
    have hsent := (play_sendEvents hctrl₂ device.drive (selectLba_head device.capabilities lba)
      numsects direction _ ch₂).symm.trans h₃
    injection hsent with hsent
    subst hload
    have hcount : announced (selectLba device.capabilities lba).lbaMode numsects =
        numsects.toNat := if_neg hn
    have hfailures : ch.failures ≤ ch₂.failures := hwait.failures_le
    rw [haddr.start, hcount, ofCommand_transfer, hwait.capacity] at hsent
    split at hsent
    · rename_i hroom
      subst hsent
      exact ⟨hwait.content, rfl, hfailures, .inl ⟨hroom, rfl⟩⟩
    · subst hsent
      exact ⟨hwait.content, rfl, Nat.le_succ_of_le hfailures,
        .inr ⟨rfl, rfl, Nat.lt_succ_of_le hfailures⟩⟩

/-- A returning access has sent its command, and then made its transfer. -/
theorem ideAtaAccess_sent (hc : s.dev.channels (s.dev.ideDevices drive).channel = c)
    (hctrl : ControlApart c) (hn : numsects ≠ 0)
    (haddr : Addressable (s.dev.ideDevices drive) lba)
    (h : (ideAtaAccess direction drive lba numsects selector edi).run s = .ok err t) :
    let device := s.dev.ideDevices drive
    ∃ u, u.mem = s.mem ∧ u.dev.channels device.channel = { c with nIEN := 2 } ∧
      Replayed c.base (altStatusPort c) s u (Sent device direction lba numsects.toNat) ∧
      (ataTransfer direction device.channel c.base
        (selectLba device.capabilities lba).lbaMode numsects.toNat edi).run u = .ok err t := by
  obtain ⟨waited, hwaited, ⟨-, _, hrun, -⟩ |
      ⟨b, rest, u, -, hrun, -, hc₂, -, hmem, hwords, hlog⟩⟩ :=
    ideAtaAccess_cases s direction drive lba numsects selector edi rfl hc
  · rw [hrun] at h
    cases h
  · rw [hrun] at h
    exact ⟨u, hmem, hc₂, replayed_sent hctrl _ hn haddr hwaited hwords hlog, h⟩

/-! ## The access -/

/-- How a read of `n` sectors went that returned `err` and delivered `k` of them:
it got them all, or those before one that failed. -/
structure Fetched (n k : Nat) (err : UInt8) (ch ch' : Channel) : Prop where
  content : ch'.content = ch.content
  outcome : (k = n ∧ err = 0) ∨ (k < n ∧ (err = 1 ∨ err = 2) ∧ ch'.phase = .failed)
  failures : ch.failures ≤ ch'.failures
  clean : ch'.failures = ch.failures → err = 0

/-- What a read of `n` sectors does that returns `err`, to memory and to the channel. -/
structure ReadDone (device : IdeDevice) (lba : UInt32) (n : Nat) (edi : UInt32) (err : UInt8)
    (s t : Machine Ata) (ch ch' : Channel) : Prop where
  room : err = 0 → 512 * (lba.toNat + n) ≤ ch.capacity device.drive.val
  fetched : ∃ k, Fetched n k err ch ch' ∧ t.mem = s.mem.write edi (512 * k) fun i =>
    ch.content device.drive.val (512 * lba.toNat + i)

theorem ideAtaAccess_read_replayed
    (hc : s.dev.channels (s.dev.ideDevices drive).channel = c) (hctrl : ControlApart c)
    (hn : numsects ≠ 0) (haddr : Addressable (s.dev.ideDevices drive) lba)
    (h : (ideAtaAccess .read drive lba numsects selector edi).run s = .ok err t) :
    Replayed c.base (altStatusPort c) s t
      (ReadDone (s.dev.ideDevices drive) lba numsects.toNat edi err s t) := by
  obtain ⟨u, hmem, hc₂, hsent, htransfer⟩ := ideAtaAccess_sent hc hctrl hn haddr h
  have hlt := numsects.toNat_lt
  have hpos : 0 < numsects.toNat := Nat.pos_of_ne_zero fun h0 => hn (UInt8.toNat_inj.mp h0)
  have hread := pioRead_replayed hc₂ (by omega) htransfer
  have hstop := pioRead_refused hc₂ (by omega) hpos htransfer
  refine (hsent.trans (hread.and hstop)).mono fun ch ch'' hch => ?_
  obtain ⟨ch', hch', hread, hstop⟩ := hch
  have hfirst := hch'.failures
  rcases hch'.outcome with ⟨hroom, hphase⟩ | ⟨hphase, hbusy, hmore⟩
  · obtain ⟨k, hended, hk, hcontent, hdata⟩ := hread (s.dev.ideDevices drive).drive.val
      (512 * lba.toNat) (Nat.le_of_eq hch'.settle) hphase
    refine ⟨fun _ => hroom, k, ⟨hcontent.trans hch'.content, ?_, ?_, fun hsame => ?_⟩,
      by rw [hdata, hmem, hch'.content]⟩
    · rcases hk with hall | ⟨hkn, herr⟩
      · exact .inl hall
      · rcases hended.outcome with ⟨hkn', -⟩ | ⟨-, hphase, -⟩
        · exact absurd hkn' (Nat.ne_of_lt hkn)
        · exact .inr ⟨hkn, herr, hphase⟩
    · rcases hended.outcome with ⟨-, -, hfail⟩ | ⟨-, -, hfail⟩ <;> omega
    · rcases hk with ⟨-, herr⟩ | ⟨hkn, -⟩
      · exact herr
      · rcases hended.outcome with ⟨hkn', -⟩ | ⟨-, -, hfail⟩
        · exact absurd hkn' (Nat.ne_of_lt hkn)
        · omega
  · obtain ⟨hcode, hdata, hstays⟩ := hstop (Nat.le_of_eq hch'.settle) hphase hbusy
    have hlast := hstays.failures
    refine ⟨fun h0 => ?_, 0, ⟨hstays.content.trans hch'.content, .inr ⟨hpos, hcode,
      hstays.phase⟩, by omega, fun hsame => by omega⟩, ?_⟩
    · subst h0
      rcases hcode with h1 | h2
      · cases h1
      · cases h2
    · rw [hdata, hmem, Nat.mul_zero, Mem.write_zero]

/-- The flush behind a write. -/
theorem replayed_flush (s : Machine Ata) (lbaMode : LbaMode) :
    Replayed c.base (altStatusPort c) s (s.loggedAll (writeEvents c 0x07 (flushOf lbaMode)))
      fun ch ch' => ch'.content = ch.content ∧ ch'.phase = .idle ∧ ch'.settle = 4 ∧
        ch'.failures = ch.failures := by
  refine ⟨_, rfl, ?_, fun ch ch' hplay => ?_⟩
  · rw [received_notBlock (writeEvents_notBlock _ _ _), skip_zero]
    rfl
  · rw [play_command] at hplay
    cases hplay
    cases lbaMode <;> exact ⟨rfl, rfl, rfl, rfl⟩

/-- What a write of `n` sectors does to the medium: it replaces the first `k` of them. -/
structure WriteDone (device : IdeDevice) (lba : UInt32) (n : Nat) (edi : UInt32)
    (s : Machine Ata) (ch ch' : Channel) (k : Nat) : Prop where
  le : k ≤ n
  clean : ch'.failures = ch.failures →
    k = n ∧ 512 * (lba.toNat + n) ≤ ch.capacity device.drive.val
  content : ch'.content = Function.update ch.content device.drive.val
    (patch (ch.content device.drive.val) (512 * lba.toNat) (512 * k) fun i =>
      s.mem (edi + UInt32.ofNat i))

theorem ideAtaAccess_write_replayed
    (hc : s.dev.channels (s.dev.ideDevices drive).channel = c) (hctrl : ControlApart c)
    (hn : numsects ≠ 0) (haddr : Addressable (s.dev.ideDevices drive) lba)
    (h : (ideAtaAccess .write drive lba numsects selector edi).run s = .ok err t) :
    t.mem = s.mem ∧ Replayed c.base (altStatusPort c) s t fun ch ch' =>
      ∃ k, WriteDone (s.dev.ideDevices drive) lba numsects.toNat edi s ch ch' k := by
  obtain ⟨u, hmem, hc₂, hsent, htransfer⟩ := ideAtaAccess_sent hc hctrl hn haddr h
  obtain ⟨v, r, hpio, hpoll⟩ := ataTransfer_write_inv htransfer
  obtain ⟨hmem', hwrite⟩ := pioWrite_replayed hc₂ hpio
  have hstop := pioWrite_failed hc₂ hpio
  have hcv : v.dev.channels (s.dev.ideDevices drive).channel = { c with nIEN := 2 } := by
    rw [((writesNone_pioWrite _ _ _ _).of_ok hpio).channels, hc₂]
  rw [hcv] at hpoll
  have hflush := replayed_flush (c := { c with nIEN := 2 }) v
    (selectLba (s.dev.ideDevices drive).capabilities lba).lbaMode
  have hpolled := idePolling_replayed (s := v.loggedAll _) hcv hpoll
  have hmem₃ : t.mem = v.mem := by
    obtain ⟨_, _, _, _, _, _, rfl⟩ := idePolling_heard hpoll
    rfl
  refine ⟨by rw [hmem₃, hmem', hmem],
    (((hsent.trans (hwrite.and hstop)).trans hflush).trans hpolled).mono fun ch ch₄ hch => ?_⟩
  obtain ⟨ch₃, ⟨ch₂, ⟨ch₁, hch₁, hwrite, hstop⟩, hcontent₃, hphase₃, hsettle₃, hfail₃⟩, hch₄⟩ :=
    hch
  obtain ⟨state, hpolled'⟩ := hch₄ (Nat.le_of_eq hsettle₃)
  have hfirst := hch₁.failures
  have hlast : ch₃.failures ≤ ch₄.failures := by
    rcases hpolled'.cases with ⟨-, hfail'⟩ | ⟨-, hfail'⟩ <;> omega
  rcases hch₁.outcome with ⟨hroom, hphase⟩ | ⟨hphase, hbusy, hmore⟩
  · obtain ⟨k, hended, -, hcontent⟩ := hwrite (s.dev.ideDevices drive).drive.val
      (512 * lba.toNat) (Nat.le_of_eq hch₁.settle) hphase
    refine ⟨k, hended.le, fun hsame => ⟨?_, hroom⟩, ?_⟩
    · rcases hended.outcome with ⟨hkn, -⟩ | ⟨-, -, hfail⟩
      · exact hkn
      · omega
    · rw [hpolled'.content, hcontent₃, hcontent, hch₁.content, hmem]
  · have hstays := hstop (Nat.le_of_eq hch₁.settle) hphase hbusy
    have hmiddle := hstays.failures
    refine ⟨0, Nat.zero_le _, fun hsame => by omega, ?_⟩
    rw [hpolled'.content, hcontent₃, hstays.content, hch₁.content, Nat.mul_zero, patch_zero,
      Function.update_eq_self]

/-! ## Main results -/

/-- A read over a channel of drives delivers the sectors it was asked for, and
where it returns an error, those before the one that failed. -/
theorem ideAtaAccess_delivers (hc : s.dev.channels (s.dev.ideDevices drive).channel = c)
    (hctrl : ControlApart c) (hn : numsects ≠ 0)
    (haddr : Addressable (s.dev.ideDevices drive) lba)
    (h : (ideAtaAccess .read drive lba numsects selector edi).run s = .ok err t) :
    Replayed c.base (altStatusPort c) s t fun ch ch' =>
      let unit := (s.dev.ideDevices drive).drive.val
      (err = 0 → 512 * (lba.toNat + numsects.toNat) ≤ ch.capacity unit) ∧
      ∃ k, Fetched numsects.toNat k err ch ch' ∧
        t.mem = s.mem.write edi (512 * k) fun i => ch.content unit (512 * lba.toNat + i) := by
  refine (ideAtaAccess_read_replayed hc hctrl hn haddr h).mono fun ch ch' hdone => ?_
  exact ⟨hdone.room, hdone.fetched⟩

/-- A write over a channel of drives replaces the sectors it was asked for, those
before the one that failed, and nothing else. It returns 0 in any case. -/
theorem ideAtaAccess_stores (hc : s.dev.channels (s.dev.ideDevices drive).channel = c)
    (hctrl : ControlApart c) (hn : numsects ≠ 0)
    (haddr : Addressable (s.dev.ideDevices drive) lba)
    (h : (ideAtaAccess .write drive lba numsects selector edi).run s = .ok err t) :
    err = 0 ∧ t.mem = s.mem ∧ Replayed c.base (altStatusPort c) s t fun ch ch' =>
      let unit := (s.dev.ideDevices drive).drive.val
      ∃ k ≤ numsects.toNat, (ch'.failures = ch.failures → k = numsects.toNat ∧
          512 * (lba.toNat + numsects.toNat) ≤ ch.capacity unit) ∧
        ch'.content = Function.update ch.content unit
          (patch (ch.content unit) (512 * lba.toNat) (512 * k) fun i =>
            s.mem (edi + UInt32.ofNat i)) := by
  obtain ⟨hmem, hreplayed⟩ := ideAtaAccess_write_replayed hc hctrl hn haddr h
  refine ⟨ideAtaAccess_write_zero h, hmem, hreplayed.mono fun ch ch' hdone => ?_⟩
  obtain ⟨k, hk⟩ := hdone
  exact ⟨k, hk.le, hk.clean, hk.content⟩

end

/-! ## One sector -/

/-- A drive before its first command. -/
def freshChannel (content : Nat → UInt8) : Channel where
  drives := ⟨⟨⟨0, 0⟩, ⟨0, 0⟩, ⟨0, 0⟩, ⟨0, 0⟩, 0⟩, []⟩
  capacity _ := 512 * 1000
  content _ := content
  phase := .idle
  busy := false
  settle := 0
  failures := 0

/-- A medium on which a sector tells its bytes and itself from the next one. -/
def numbered (i : Nat) : UInt8 := UInt8.ofNat (i / 512 + i)

/-- The drive is busy for a while, and sends sector 7. -/
theorem ideAtaAccess_delivers_one :
    let a := ataBoot ⟨1, 0, 0, .ata, 0x200, 1000, []⟩
      [0x50, 0xD0, 0xD0, 0xD0, 0xD0, 0xD0, 0xD0, 0x58, 0x58]
    let s := { a with dev.words := fun j => le16 numbered (512 * 7 + 2 * j) }
    let ch := freshChannel numbered
    ∃ t ch', (ideAtaAccess .read 0 7 1 0x10 0x5000).run s = .ok 0 t ∧
      ch.play (accesses 0x1F0 0x3F6 t.dev.log s.dev.words) = some ch' ∧
      ∃ k, Fetched 1 k 0 ch ch' ∧
        t.mem = s.mem.write 0x5000 (512 * k) fun i => ch.content 0 (512 * 7 + i) := by
  intro a s ch
  have hrun : (ideAtaAccess .read 0 7 1 0x10 0x5000).run s = .ok 0 _ :=
    Exec.ok_of_answer (by decide +kernel)
  have hplay : (ch.play (accesses 0x1F0 0x3F6 (Exec.final
      ((ideAtaAccess .read 0 7 1 0x10 0x5000).run s)).dev.log s.dev.words)).isSome := by
    decide +kernel
  obtain ⟨ch', hch'⟩ := Option.isSome_iff_exists.mp hplay
  have hdelivers := ideAtaAccess_delivers rfl (by decide) (by decide)
    (fun hchs => absurd hchs (by decide)) hrun
  exact ⟨_, ch', hrun, hch', (hdelivers.apply (List.nil_append _).symm hch').2⟩

/-- The drive takes sector 7, and then a flush. -/
theorem ideAtaAccess_stores_one :
    let s := ataBoot ⟨1, 0, 0, .ata, 0x200, 1000, []⟩
      [0x50, 0xD0, 0xD0, 0xD0, 0xD0, 0xD0, 0x58, 0xD0, 0xD0, 0xD0, 0xD0, 0xD0, 0x50]
    let ch := freshChannel numbered
    ∃ t ch', (ideAtaAccess .write 0 7 1 0x10 0x5000).run s = .ok 0 t ∧
      ch.play (accesses 0x1F0 0x3F6 t.dev.log s.dev.words) = some ch' ∧
      ch'.content = Function.update ch.content 0
        (patch (ch.content 0) (512 * 7) (512 * 1) fun i => s.mem (0x5000 + UInt32.ofNat i)) := by
  intro s ch
  have hrun : (ideAtaAccess .write 0 7 1 0x10 0x5000).run s = .ok 0 _ :=
    Exec.ok_of_answer (by decide +kernel)
  have hplay : (ch.play (accesses 0x1F0 0x3F6 (Exec.final
      ((ideAtaAccess .write 0 7 1 0x10 0x5000).run s)).dev.log s.dev.words)).map
        Channel.failures = some 0 := by
    decide +kernel
  obtain ⟨ch', hch', hclean⟩ := Option.map_eq_some_iff.mp hplay
  have hstores := (ideAtaAccess_stores rfl (by decide) (by decide)
    (fun hchs => absurd hchs (by decide)) hrun).2.2
  obtain ⟨k, -, hall, hcontent⟩ := hstores.apply (List.nil_append _).symm hch'
  obtain rfl : k = 1 := (hall hclean).1
  exact ⟨_, ch', hrun, hch', hcontent⟩

end Bedrock
