import Bedrock.Lib.TaskFile
import Bedrock.Lib.Bytes

/-!
# Drives that move data by programmed I/O

A channel with its drives, as the other end of the cable sees it. A command
starts a transfer of a number of blocks. Before each block the channel is busy
for as long as it likes; then it either asks for the block or reports that the
command has failed, and stays with its answer until the host acts. For the
first four reads after a command or a block the status is not yet valid and may
be anything: four reads take the 400 ns the drive has to become busy.

What the hardware is free to choose is in the accesses: the status bytes that
were read, and the words that came out of the data port. `Channel.step` answers
`none` where no such channel would have presented them. What the host does wrong
is no reason for `none`: a block at the wrong time is ignored, and one of the
wrong length makes the command fail.
-/

namespace Bedrock.Lib

/-- One access of the host to the channel. -/
inductive Access where
  | put (reg : Nat) (v : UInt8)
  | status (b : UInt8)
  | dataIn (ws : List UInt16)
  | dataOut (ws : List UInt16)

/-- Where the channel is in a command. A transfer goes on with the block of
`size` bytes at `pos`, and `n` more after it. -/
inductive Phase where
  | idle
  | sending (unit pos size n : Nat)
  | receiving (unit pos size n : Nat)
  /-- waiting for the twelve bytes of a packet command -/
  | packet (unit : Nat)
  | failed
deriving DecidableEq

namespace Phase

/-- A transfer of `n` blocks to the host. -/
def send (unit pos size : Nat) : Nat → Phase
  | 0 => idle
  | n + 1 => sending unit pos size n

/-- A transfer of `n` blocks from the host. -/
def receive (unit pos size : Nat) : Nat → Phase
  | 0 => idle
  | n + 1 => receiving unit pos size n

/-- Whether the drive has a block to move: `DRQ`. -/
def wantsData : Phase → Bool
  | sending _ _ _ _ => true
  | receiving _ _ _ _ => true
  | packet _ => true
  | idle => false
  | failed => false

/-- A status byte that belongs to the phase once the drive is not busy: an error
and nothing else after a failure, and otherwise no error, and `DRQ` for a
block. -/
def Shows (p : Phase) (b : UInt8) : Prop :=
  b &&& 0x80 = 0 ∧
    if p = failed then b &&& 0x21 ≠ 0
    else b &&& 0x21 = 0 ∧ (b &&& 0x08 ≠ 0 ↔ p.wantsData = true)

instance {p : Phase} {b : UInt8} : Decidable (p.Shows b) :=
  inferInstanceAs (Decidable (_ ∧ _))

/-- What a command begins on media of this many bytes. A drive knows the
transfers, the flush and `PACKET`, and refuses every other command, and a
transfer of more than there is. -/
def ofCommand (capacity : Nat → Nat) : Command → Option Phase
  | .transfer direction unit start count _ =>
      if 512 * (start + count) ≤ capacity unit then
        match direction with
        | .read => some (send unit (512 * start) 512 count)
        | .write => some (receive unit (512 * start) 512 count)
      else none
  | .flush _ => some idle
  | .other opcode unit => if opcode = 0xA0 then some (packet unit) else none

end Phase

/-- The `n` words of the medium from byte `pos` on. -/
def mediumWords (f : Nat → UInt8) (pos n : Nat) : List UInt16 :=
  (List.range n).map fun i => le16 f (pos + 2 * i)

@[simp] theorem length_mediumWords (f : Nat → UInt8) (pos n : Nat) :
    (mediumWords f pos n).length = n := by
  rw [mediumWords, List.length_map, List.length_range]

/-- Byte `i` of a block of words. -/
def blockByte (ws : List UInt16) (i : Nat) : UInt8 :=
  byteOf (ws.getD (i / 2) 0).toNat (i % 2)

/-- The words of a block hold its bytes. -/
theorem blockByte_mediumWords {f : Nat → UInt8} {pos n i : Nat} (hi : i < 2 * n) :
    blockByte (mediumWords f pos n) i = f (pos + i) := by
  have hlt : i / 2 < n := by omega
  have hword : (mediumWords f pos n).getD (i / 2) 0 = le16 f (pos + 2 * (i / 2)) := by
    rw [mediumWords, List.getD_eq_getElem?_getD, List.getElem?_map, List.getElem?_range hlt]
    rfl
  have h0 := (f (pos + 2 * (i / 2))).toNat_lt
  have h1 := (f (pos + 2 * (i / 2) + 1)).toNat_lt
  rw [blockByte, hword, le16, byteOf]
  apply UInt8.toNat_inj.mp
  rw [UInt8.toNat_ofNat', UInt16.toNat_ofNat']
  rcases Nat.mod_two_eq_zero_or_one i with heven | hodd
  · have hpos : pos + i = pos + 2 * (i / 2) := by omega
    rw [heven, hpos]
    omega
  · have hpos : pos + i = pos + 2 * (i / 2) + 1 := by omega
    rw [hodd, hpos]
    omega

/-- The transfer a packet asks for: `READ(12)`, in blocks of at most `limit`
bytes of a medium with sectors of 2048. -/
def Phase.ofPacket (capacity : Nat → Nat) (unit limit : Nat) (ws : List UInt16) :
    Option Phase :=
  let byte := fun i => (blockByte ws i).toNat
  let lba := 2 ^ 24 * byte 2 + 2 ^ 16 * byte 3 + 2 ^ 8 * byte 4 + byte 5
  let count := 2 ^ 24 * byte 6 + 2 ^ 16 * byte 7 + 2 ^ 8 * byte 8 + byte 9
  if byte 0 = 0xA8 ∧ 2048 * (lba + count) ≤ capacity unit then
    some (send unit (2048 * lba) limit (2048 * count / limit))
  else none

/-- The channel: the registers, the size of the media of its units and what is on
them, and where it is in its command. `settle` is the number of reads until the
status is valid, and `failures` the number of commands that have failed. -/
structure Channel where
  drives : DriveState
  capacity : Nat → Nat
  content : Nat → Nat → UInt8
  phase : Phase
  busy : Bool
  settle : Nat
  failures : Nat

namespace Channel

/-- The most bytes that a packet drive moves as one block. -/
def byteCount (c : Channel) : Nat :=
  c.drives.file.lbaMid.current.toNat + 2 ^ 8 * c.drives.file.lbaHigh.current.toNat

/-- Busy, on the way to a phase. -/
def begin (c : Channel) (p : Phase) : Channel :=
  { c with phase := p, busy := true, settle := 4 }

def fail (c : Channel) : Channel :=
  { c with phase := .failed, busy := false, failures := c.failures + 1 }

/-- What the channel makes of a request: it begins, or fails it at once. -/
def accept (c : Channel) : Option Phase → Channel
  | some p => c.begin p
  | none => { c.fail with settle := 4 }

/-- The channel shows `b` as its valid status. -/
def answer (c : Channel) (b : UInt8) : Option Channel :=
  if c.busy then
    if b &&& 0x80 ≠ 0 then some c
    else if b &&& 0x21 ≠ 0 then some c.fail
    else if c.phase.Shows b then some { c with busy := false }
    else none
  else if c.phase.Shows b then some c
  else none

/-- The drive is ready to move a block. -/
def Ready (c : Channel) : Prop := c.busy = false ∧ c.settle = 0

instance {c : Channel} : Decidable c.Ready := inferInstanceAs (Decidable (_ ∧ _))

def give (c : Channel) (ws : List UInt16) : Option Channel :=
  match c.phase with
  | .sending unit pos size n =>
      if 2 * ws.length ≠ size then some c.fail
      else if ws = mediumWords (c.content unit) pos ws.length then
        some (c.begin (.send unit (pos + size) size n))
      else none
  | _ => some c

def take (c : Channel) (ws : List UInt16) : Channel :=
  match c.phase with
  | .receiving unit pos size n =>
      if 2 * ws.length ≠ size then c.fail
      else
        { c with
          content := Function.update c.content unit
            (patch (c.content unit) pos size (blockByte ws)) }.begin
          (.receive unit (pos + size) size n)
  | .packet unit =>
      if ws.length ≠ 6 then c.fail
      else c.accept (Phase.ofPacket c.capacity unit c.byteCount ws)
  | _ => c

/-- One access, unless no channel in this state would have answered it so. -/
def step (c : Channel) : Access → Option Channel
  | .put reg v =>
      let c' := { c with drives := c.drives.write reg v }
      some (if reg = 7 then c'.accept (Phase.ofCommand c.capacity (c.drives.file.decode v)) else c')
  | .status b =>
      match c.settle with
      | 0 => c.answer b
      | k + 1 => some { c with settle := k }
  | .dataIn ws => if c.Ready then c.give ws else some c
  | .dataOut ws => some (if c.Ready then c.take ws else c)

/-- A whole sequence of accesses. -/
def play (c : Channel) (as : List Access) : Option Channel := as.foldlM step c

@[simp] theorem play_nil (c : Channel) : c.play [] = some c := rfl

@[simp] theorem play_cons (c : Channel) (a : Access) (as : List Access) :
    c.play (a :: as) = (c.step a).bind fun c' => c'.play as := rfl

theorem play_append (c : Channel) (as bs : List Access) :
    c.play (as ++ bs) = (c.play as).bind fun c' => c'.play bs := List.foldlM_append

theorem play_append_inv {c c'' : Channel} {as bs : List Access}
    (h : c.play (as ++ bs) = some c'') :
    ∃ c', c.play as = some c' ∧ c'.play bs = some c'' := by
  rw [play_append] at h
  exact Option.bind_eq_some_iff.mp h

/-! ## Waiting

A host that only reads the status can learn that the command has failed, and
that is all that can happen. -/

/-- What reading the status can do. -/
structure Waited (c c' : Channel) : Prop where
  drives : c'.drives = c.drives
  capacity : c'.capacity = c.capacity
  content : c'.content = c.content
  outcome :
    (c'.phase = c.phase ∧ c'.failures = c.failures ∧ (c'.busy = true → c.busy = true)) ∨
    (c.busy = true ∧ c'.busy = false ∧ c'.phase = .failed ∧ c'.failures = c.failures + 1)

theorem Waited.refl (c : Channel) : Waited c c := ⟨rfl, rfl, rfl, .inl ⟨rfl, rfl, id⟩⟩

theorem Waited.trans {c c' c'' : Channel} (h : Waited c c') (h' : Waited c' c'') :
    Waited c c'' := by
  refine ⟨h'.drives.trans h.drives, h'.capacity.trans h.capacity, h'.content.trans h.content, ?_⟩
  rcases h.outcome with ⟨hphase, hfail, hbusy⟩ | ⟨hbusy, hidle, hphase, hfail⟩
  · rcases h'.outcome with ⟨hphase', hfail', hbusy'⟩ | ⟨hbusy', hidle', hphase', hfail'⟩
    · exact .inl ⟨hphase'.trans hphase, hfail'.trans hfail, fun h => hbusy (hbusy' h)⟩
    · exact .inr ⟨hbusy hbusy', hidle', hphase', by rw [hfail', hfail]⟩
  · rcases h'.outcome with ⟨hphase', hfail', hbusy'⟩ | ⟨hbusy', -⟩
    · refine .inr ⟨hbusy, ?_, hphase'.trans hphase, hfail'.trans hfail⟩
      exact Bool.eq_false_iff.mpr fun h => absurd (hbusy' h) (by rw [hidle]; decide)
    · rw [hidle] at hbusy'
      cases hbusy'

theorem Waited.failures_le {c c' : Channel} (h : Waited c c') : c.failures ≤ c'.failures := by
  rcases h.outcome with ⟨-, hfail, -⟩ | ⟨-, -, -, hfail⟩ <;> omega

theorem answer_waited {c c' : Channel} {b : UInt8} (h : c.answer b = some c') :
    Waited c c' ∧ c'.settle = c.settle := by
  rw [answer] at h
  split at h
  · rename_i hbusy
    split at h
    · cases h
      exact ⟨.refl c, rfl⟩
    · split at h
      · cases h
        exact ⟨⟨rfl, rfl, rfl, .inr ⟨hbusy, rfl, rfl, rfl⟩⟩, rfl⟩
      · split at h
        · cases h
          exact ⟨⟨rfl, rfl, rfl, .inl ⟨rfl, rfl, fun _ => hbusy⟩⟩, rfl⟩
        · cases h
  · split at h
    · cases h
      exact ⟨.refl c, rfl⟩
    · cases h

/-- A valid status without `BSY` is the channel's answer: it stands from now on. -/
theorem answer_ready {c c' : Channel} {b : UInt8} (h : c.answer b = some c')
    (hb : b &&& 0x80 = 0) : c'.busy = false ∧ c'.phase.Shows b := by
  rw [answer] at h
  split at h
  · rw [if_neg (not_not_intro hb)] at h
    split at h
    · rename_i herr
      cases h
      exact ⟨rfl, hb, herr⟩
    · split at h
      · rename_i hshows
        cases h
        exact ⟨rfl, hshows⟩
      · cases h
  · rename_i hidle
    split at h
    · rename_i hshows
      cases h
      exact ⟨Bool.eq_false_iff.mpr hidle, hshows⟩
    · cases h

theorem status_waited {c c' : Channel} {b : UInt8} (h : c.step (.status b) = some c') :
    Waited c c' ∧ c'.settle = c.settle - 1 := by
  rw [step] at h
  split at h
  · rename_i hsettle
    obtain ⟨hw, hs⟩ := answer_waited h
    exact ⟨hw, by rw [hs, hsettle]⟩
  · rename_i k hsettle
    cases h
    exact ⟨⟨rfl, rfl, rfl, .inl ⟨rfl, rfl, id⟩⟩, by rw [hsettle]; rfl⟩

theorem statuses_waited {c c' : Channel} {bs : List UInt8}
    (h : c.play (bs.map .status) = some c') :
    Waited c c' ∧ c'.settle = c.settle - bs.length := by
  induction bs generalizing c with
  | nil =>
      obtain rfl : c = c' := Option.some.inj h
      exact ⟨.refl c, rfl⟩
  | cons b bs ih =>
      rw [List.map_cons, play_cons] at h
      obtain ⟨c₁, hstep, hrest⟩ := Option.bind_eq_some_iff.mp h
      obtain ⟨hw, hs⟩ := status_waited hstep
      obtain ⟨hw', hs'⟩ := ih hrest
      refine ⟨hw.trans hw', ?_⟩
      rw [hs', hs, List.length_cons, Nat.sub_sub, Nat.add_comm]

/-- A host that has read four times, and then until `BSY` is clear, has the
channel's answer. -/
theorem polled {c c' : Channel} {bs : List UInt8} {b : UInt8} (hsettle : c.settle ≤ bs.length)
    (h : c.play ((bs ++ [b]).map .status) = some c') (hb : b &&& 0x80 = 0) :
    Waited c c' ∧ c'.Ready ∧ c'.phase.Shows b := by
  rw [List.map_append] at h
  obtain ⟨c₁, hfirst, hlast⟩ := play_append_inv h
  obtain ⟨hw, hs⟩ := statuses_waited hfirst
  have hzero : c₁.settle = 0 := by omega
  rw [List.map_singleton, play_cons, step, hzero] at hlast
  obtain ⟨c₂, hanswer, hend⟩ := Option.bind_eq_some_iff.mp hlast
  cases hend
  obtain ⟨hw', hs'⟩ := answer_waited hanswer
  obtain ⟨hidle, hshows⟩ := answer_ready hanswer hb
  exact ⟨hw.trans hw', ⟨hidle, by rw [hs', hzero]⟩, hshows⟩

/-- A ready channel repeats its answer. -/
theorem Ready.status {c c' : Channel} {b : UInt8} (hc : c.Ready)
    (h : c.step (.status b) = some c') : c' = c ∧ c.phase.Shows b := by
  have hanswer : c.answer b = some c' := by
    simpa only [step, hc.2] using h
  rw [answer, if_neg (Bool.eq_false_iff.mp hc.1)] at hanswer
  split at hanswer
  · rename_i hshows
    cases hanswer
    exact ⟨rfl, hshows⟩
  · cases hanswer

/-! ## Blocks -/

/-- What every access keeps: no failure is forgotten, and the media are those
that they were. -/
structure Grows (c c' : Channel) : Prop where
  failures : c.failures ≤ c'.failures
  capacity : c'.capacity = c.capacity

theorem Grows.refl (c : Channel) : Grows c c := ⟨Nat.le_refl _, rfl⟩

theorem Grows.trans {c c' c'' : Channel} (h : Grows c c') (h' : Grows c' c'') : Grows c c'' :=
  ⟨Nat.le_trans h.failures h'.failures, h'.capacity.trans h.capacity⟩

theorem accept_grows (c : Channel) (p : Option Phase) : Grows c (c.accept p) := by
  cases p with
  | some p => exact ⟨Nat.le_refl _, rfl⟩
  | none => exact ⟨Nat.le_succ _, rfl⟩

theorem give_grows {c c' : Channel} {ws : List UInt16} (h : c.give ws = some c') :
    Grows c c' := by
  rw [give] at h
  split at h
  · split at h
    · cases h
      exact ⟨Nat.le_succ _, rfl⟩
    · split at h
      · cases h
        exact ⟨Nat.le_refl _, rfl⟩
      · cases h
  · cases h
    exact .refl c

theorem take_grows (c : Channel) (ws : List UInt16) : Grows c (c.take ws) := by
  rw [take]
  split
  · split
    · exact ⟨Nat.le_succ _, rfl⟩
    · exact ⟨Nat.le_refl _, rfl⟩
  · split
    · exact ⟨Nat.le_succ _, rfl⟩
    · exact accept_grows _ _
  · exact .refl c

theorem step_grows {c c' : Channel} {a : Access} (h : c.step a = some c') : Grows c c' := by
  cases a with
  | put reg v =>
      rw [step] at h
      cases h
      split
      · have hgrows := accept_grows { c with drives := c.drives.write reg v }
          (Phase.ofCommand c.capacity (c.drives.file.decode v))
        exact ⟨hgrows.failures, hgrows.capacity⟩
      · exact ⟨Nat.le_refl _, rfl⟩
  | status b =>
      obtain ⟨hw, -⟩ := status_waited h
      exact ⟨hw.failures_le, hw.capacity⟩
  | dataIn ws =>
      rw [step] at h
      split at h
      · exact give_grows h
      · cases h
        exact .refl c
  | dataOut ws =>
      rw [step] at h
      cases h
      split
      · exact take_grows c ws
      · exact .refl c

theorem play_grows {c c' : Channel} {as : List Access} (h : c.play as = some c') :
    Grows c c' := by
  induction as generalizing c with
  | nil => exact Option.some.inj h ▸ .refl c
  | cons a as ih =>
      rw [play_cons] at h
      obtain ⟨c₁, hstep, hrest⟩ := Option.bind_eq_some_iff.mp h
      exact (step_grows hstep).trans (ih hrest)

/-- The words of a block of the right length are those of the medium. -/
theorem Ready.dataIn {c c' : Channel} {ws : List UInt16} {unit pos size n : Nat}
    (hc : c.Ready) (hphase : c.phase = .sending unit pos size n)
    (hsize : 2 * ws.length = size) (h : c.step (.dataIn ws) = some c') :
    ws = mediumWords (c.content unit) pos ws.length ∧
      c' = c.begin (.send unit (pos + size) size n) := by
  rw [step, if_pos hc, give, hphase] at h
  simp only [if_neg (not_not_intro hsize)] at h
  split at h
  · rename_i hws
    cases h
    exact ⟨hws, rfl⟩
  · cases h

theorem Ready.dataOut {c c' : Channel} {ws : List UInt16} {unit pos size n : Nat}
    (hc : c.Ready) (hphase : c.phase = .receiving unit pos size n)
    (hsize : 2 * ws.length = size) (h : c.step (.dataOut ws) = some c') :
    c' = { c with
      content := Function.update c.content unit
        (patch (c.content unit) pos size (blockByte ws)) }.begin
      (.receive unit (pos + size) size n) := by
  rw [step, if_pos hc, take, hphase] at h
  simp only [if_neg (not_not_intro hsize)] at h
  exact (Option.some.inj h).symm

/-! ## Channels that answer promptly -/

/-- Idle, after everything went well. -/
structure Idled (c c' : Channel) : Prop where
  phase : c'.phase = .idle
  capacity : c'.capacity = c.capacity
  content : c'.content = c.content
  failures : c'.failures = c.failures

theorem Idled.trans {c c' c'' : Channel} (h : Idled c c') (h' : Idled c' c'') : Idled c c'' :=
  ⟨h'.phase, h'.capacity.trans h.capacity, h'.content.trans h.content,
    h'.failures.trans h.failures⟩

/-- An idle channel may show that it is ready. -/
theorem status_idle {c : Channel} (h : c.phase = .idle) :
    ∃ c', c.step (.status 0x50) = some c' ∧ Idled c c' := by
  obtain ⟨drives, capacity, content, phase, busy, settle, failures⟩ := c
  obtain rfl : phase = .idle := h
  cases settle with
  | succ n => exact ⟨_, rfl, rfl, rfl, rfl, rfl⟩
  | zero => cases busy <;> exact ⟨_, rfl, rfl, rfl, rfl, rfl⟩

/-- A channel that has begun to send a block may have it after the four reads. -/
theorem play_block (c : Channel) (unit pos : Nat) :
    (c.begin (.sending unit pos 512 0)).play
        ([0xD0, 0xD0, 0xD0, 0xD0, 0x58, 0x58].map .status ++
          [.dataIn (mediumWords (c.content unit) pos 256)]) = some (c.begin .idle) := by
  obtain ⟨c', hc'⟩ : ∃ c' : Channel,
      c' = { c.begin (.sending unit pos 512 0) with busy := false, settle := 0 } := ⟨_, rfl⟩
  have hready : c'.Ready := by
    rw [hc']
    exact ⟨rfl, rfl⟩
  have hstatus : (c.begin (.sending unit pos 512 0)).play
      ([0xD0, 0xD0, 0xD0, 0xD0, 0x58, 0x58].map .status) = some c' := by
    rw [hc']
    rfl
  rw [play_append, hstatus, Option.bind_some, play_cons, step, if_pos hready, hc', give]
  simp [begin, Phase.send]

end Channel

end Bedrock.Lib
