import CtuCanFd.Driver.Filters
import CtuCanFd.Driver.InsertFrame
import CtuCanFd.RxBuffer.Datapath

/-!
# Reception by the driver

`ctucan_rx_poll` takes frames from the RX buffer word by word. The buffer is the queue of
frames that `rx_buffer` refines; before every register access more frames may be stored. If
there is no socket buffer for a frame, the driver keeps its frame format word and goes on with
the second word in a later call.
-/

namespace Driver

open RxBuffer (Word rwcntOf FrameShape)
open FrameQueue

/-! ## The RX buffer behind its registers -/

/-- What happens between two register accesses. -/
structure Arrival where
  frames : List (List Word)
  overrun : Bool

/-- RX buffer in automatic mode, with what is going to arrive. `taken` and `stored` are the
words read and the frames stored so far. -/
structure RxSide where
  queue : Queue Word
  dor : Bool
  arrivals : List Arrival
  taken : List Word
  stored : List (List Word)

namespace RxSide

def access (h : RxSide) : RxSide :=
  match h.arrivals with
  | [] => h
  | a :: rest =>
    { h with
      queue := { h.queue with whole := h.queue.whole ++ a.frames }
      dor := h.dor || a.overrun
      arrivals := rest
      stored := h.stored ++ a.frames }

/-- A read of RX_DATA; an empty buffer gives zeros. -/
def readRxData (h : RxSide) : Word × RxSide :=
  let h := h.access
  (h.queue.unread.headD 0,
    { h with queue := h.queue.pop, taken := h.taken ++ h.queue.unread.head?.toList })

/-- RXFRC in RX_STATUS. -/
def readFrameCount (h : RxSide) : Nat × RxSide := (h.access.queue.frameCount, h.access)

/-- DOR in STATUS. -/
def readDor (h : RxSide) : Bool × RxSide := (h.access.dor, h.access)

/-- CDO in COMMAND. -/
def clearDor (h : RxSide) : RxSide := { h.access with dor := false }

end RxSide

/-! ## `ctucan_read_rx_frame` -/

/-- Number of data words, `RWCNT - 3`. -/
def rxWc (ffw : Word) : BitVec 32 := BitVec.ofNat 32 (rwcntOf ffw) - 3

def rxDlc (ffw : Word) : Nat := (ffw.extractLsb' 0 4).toNat

def rxLen (ffw : Word) : BitVec 32 :=
  if rxDlc ffw ≤ 8 then BitVec.ofNat 32 (rxDlc ffw)
  else if ffw.getLsbD 7 then rxWc ffw <<< 2
  else 8

/-- Length of the data that is read, not more than the words of the frame. -/
def rxDataLen (ffw : Word) : BitVec 32 := if rxWc ffw * 4 < rxLen ffw then rxWc ffw * 4 else rxLen ffw

/-- Identifier, flags and length. -/
def rxHeader (ffw idw : Word) (cf : CanfdFrame) : CanfdFrame :=
  let id := if ffw.getLsbD 6 then idw &&& canEffMask ||| 1#32 <<< 31 else idw >>> 18 &&& canSffMask
  let flags : BitVec 8 := (if ffw.getLsbD 9 then 1 else 0) ||| if ffw.getLsbD 10 then 2 else 0
  { cf with
    canId := if !ffw.getLsbD 7 && ffw.getLsbD 5 then id ||| 1#32 <<< 30 else id
    flags := if ffw.getLsbD 7 then flags else 0
    len := (rxLen ffw).truncate 8 }

/-- `cpu_to_le32` into four data bytes. -/
def CanfdFrame.setWord (cf : CanfdFrame) (i : Nat) (w : Word) : CanfdFrame :=
  { cf with
    data := fun k => if i ≤ k ∧ k < i + 4 then w.extractLsb' (8 * (k - i)) 8 else cf.data k }

/-- Data loop: `n` words from offset `i` on. -/
def readData : Nat → Nat → CanfdFrame → RxSide → CanfdFrame × RxSide
  | 0, _, cf, h => (cf, h)
  | n + 1, i, cf, h => readData n (i + 4) (cf.setWord i h.readRxData.1) h.readRxData.2

/-- Reads whose value is thrown away. -/
def skipWords : Nat → RxSide → RxSide
  | 0, h => h
  | n + 1, h => skipWords n h.readRxData.2

def dataReads (ffw : Word) : Nat := ((rxDataLen ffw).toNat + 3) / 4

/-- Words left after the data loop. -/
def padReads (ffw : Word) : Nat := ((rxWc ffw * 4).toNat - 4 * dataReads ffw + 3) / 4

def readRxFrame (cf : CanfdFrame) (ffw : Word) (h : RxSide) : CanfdFrame × RxSide :=
  let (idw, h) := h.readRxData
  let h := skipWords 2 h
  let (cf, h) := readData (dataReads ffw) 0 (rxHeader ffw idw cf) h
  (cf, skipWords (padReads ffw) h)

/-! ## `ctucan_rx` and `ctucan_rx_poll` -/

/-- A frame in a new socket buffer. -/
def blankFrame : CanfdFrame := ⟨0, 0, 0, fun _ => 0⟩

/-- Result of `ctucan_rx`: 1, 0 and `-EAGAIN`. -/
inductive RxResult where
  | passed
  | noSkb
  | again
deriving DecidableEq, Repr

/-- State of the driver. `allocs` are the results of the next allocations, which succeed
after that; `delivered` has the frames passed on, each with the words it was read from. -/
structure RxPriv where
  dev : RxSide
  firstWord : Option Word
  allocs : List Bool
  delivered : List (List Word × CanfdFrame)
  rbneiMasked : Bool

namespace RxPriv

def alloc (p : RxPriv) : Bool × RxPriv :=
  match p.allocs with
  | [] => (true, p)
  | a :: rest => (a, { p with allocs := rest })

/-- The frame format word, kept or read. -/
def takeFirstWord (p : RxPriv) : Word × RxPriv :=
  match p.firstWord with
  | some w => (w, { p with firstWord := none })
  | none => (p.dev.readRxData.1, { p with dev := p.dev.readRxData.2 })

/-- The frame goes to the network layer. -/
def deliver (p : RxPriv) (ffw : Word) : RxPriv :=
  let r := readRxFrame blankFrame ffw p.dev
  { p with
    dev := r.2
    delivered := p.delivered ++ [(ffw :: r.2.taken.drop p.dev.taken.length, r.1)] }

def rx (p : RxPriv) : RxResult × RxPriv :=
  let (ffw, p) := p.takeFirstWord
  if rwcntOf ffw = 0 then (.again, p)
  else
    let (skb, p) := p.alloc
    if skb then (.passed, p.deliver ffw)
    else (.noSkb, { p with firstWord := some ffw })

end RxPriv

/-- Variables of the poll loop. -/
structure PollLoop where
  res : RxResult
  workDone : Nat
  framecnt : Nat
  priv : RxPriv

namespace PollLoop

def start (p : RxPriv) : PollLoop :=
  ⟨.passed, 0, p.dev.readFrameCount.1, { p with dev := p.dev.readFrameCount.2 }⟩

def body (l : PollLoop) : PollLoop :=
  let (res, p) := l.priv.rx
  ⟨res, l.workDone + 1, p.dev.readFrameCount.1, { p with dev := p.dev.readFrameCount.2 }⟩

/-- The loop with some of the quota left. -/
def run : Nat → PollLoop → PollLoop
  | 0, l => l
  | n + 1, l => if l.framecnt ≠ 0 ∧ l.res = .passed then run n l.body else l

end PollLoop

/-- Check for an overflow of the RX buffer; the error frame for it may find no buffer. -/
def RxPriv.checkOverflow (p : RxPriv) : RxPriv :=
  let (dor, dev) := p.dev.readDor
  if dor then
    let (_, p) := { p with dev }.alloc
    { p with dev := p.dev.clearDor }
  else { p with dev }

/-- What a call of `ctucan_rx_poll` returns and does. -/
structure PollResult where
  workDone : Nat
  completed : Bool
  priv : RxPriv

/-- RBNEI is cleared and unmasked. -/
def RxPriv.enableRbnei (p : RxPriv) : RxPriv :=
  { p with dev := p.dev.access.access, rbneiMasked := false }

/-- `ctucan_rx_poll`; `done` is the result of `napi_complete_done`. -/
def rxPoll (quota : Nat) (done : Bool) (p : RxPriv) : PollResult :=
  let l := PollLoop.run quota (PollLoop.start p)
  let p := l.priv.checkOverflow
  if l.framecnt = 0 ∧ l.res ≠ .noSkb then
    ⟨l.workDone, true, if done then p.enableRbnei else p⟩
  else ⟨l.workDone, false, p⟩

/-! ## Words of a frame -/

/-- Data words written to consecutive offsets. -/
def CanfdFrame.setWords (cf : CanfdFrame) (i : Nat) : List Word → CanfdFrame
  | [] => cf
  | w :: ws => (cf.setWord i w).setWords (i + 4) ws

/-- The frame that the words of the buffer stand for. -/
def decode : List Word → CanfdFrame
  | ffw :: idw :: _ :: _ :: ws => (rxHeader ffw idw blankFrame).setWords 0 (ws.take (dataReads ffw))
  | _ => blankFrame

theorem rxWc_eq {ffw : Word} {n : Nat} (hcnt : rwcntOf ffw = n + 3) (hn : n ≤ 16) :
    rxWc ffw = BitVec.ofNat 32 n ∧ (rxWc ffw * 4).toNat = 4 * n := by
  have hwc : rxWc ffw = BitVec.ofNat 32 n := by
    apply BitVec.eq_of_toNat_eq
    rw [rxWc, hcnt, BitVec.toNat_sub]
    simp
    omega
  refine ⟨hwc, ?_⟩
  rw [hwc, BitVec.toNat_mul]
  simp
  omega

/-- Data and padding are all words that RWCNT counts after the timestamp. -/
theorem reads_add {ffw : Word} {n : Nat} (hcnt : rwcntOf ffw = n + 3) (hn : n ≤ 16) :
    dataReads ffw + padReads ffw = n := by
  have hmul := (rxWc_eq hcnt hn).2
  have hle : (rxDataLen ffw).toNat ≤ 4 * n := by
    unfold rxDataLen
    split_ifs with h
    · exact hmul.le
    · rw [BitVec.not_lt, BitVec.le_def, hmul] at h
      exact h
  rw [padReads, hmul]
  unfold dataReads
  omega

/-- The driver has read the frames `done` and the words `part` of the next one, of which
`rest` is left. Between frames both are empty. -/
structure Cursor (h : RxSide) (done : List (List Word)) (part rest : List Word) : Prop where
  taken : h.taken = done.flatten ++ part
  reading : h.queue.reading = rest
  stored : h.stored = done ++ (if part = [] then [] else [part ++ rest]) ++ h.queue.whole
  shapes : ∀ f ∈ h.stored, FrameShape f
  coming : ∀ a ∈ h.arrivals, ∀ f ∈ a.frames, FrameShape f

namespace Cursor

variable {h : RxSide} {done : List (List Word)} {part rest : List Word} {w : Word}

theorem access (hc : Cursor h done part rest) : Cursor h.access done part rest := by
  unfold RxSide.access
  cases ha : h.arrivals with
  | nil => exact hc
  | cons a as =>
    refine ⟨hc.taken, hc.reading, ?_, ?_, ?_⟩
    · simp [hc.stored]
    · intro f hf
      rcases List.mem_append.mp hf with hf | hf
      · exact hc.shapes f hf
      · exact hc.coming a (by simp [ha]) f hf
    · intro b hb f hf
      exact hc.coming b (by simp [ha, hb]) f hf

/-- The next word of an open frame. -/
theorem readNext (hc : Cursor h done part (w :: rest)) (hp : part ≠ []) :
    h.readRxData.1 = w ∧ Cursor h.readRxData.2 done (part ++ [w]) rest := by
  have ha := hc.access
  have hread := ha.reading
  have hun : h.access.queue.unread = w :: (rest ++ h.access.queue.whole.flatten) := by
    simp [Queue.unread, hread]
  have hpop : h.access.queue.pop = { h.access.queue with reading := rest } := by
    simp [Queue.pop, hread]
  refine ⟨by simp [RxSide.readRxData, hun], ?_, ?_, ?_, ha.shapes, ha.coming⟩
  · simp [RxSide.readRxData, hun, ha.taken]
  · simp [RxSide.readRxData, hpop]
  · simp [RxSide.readRxData, hpop, ha.stored, hp]

/-- The first word of the next frame. -/
theorem readFirst (hc : Cursor h done [] []) (hw : h.access.queue.whole ≠ []) :
    ∃ rest, rwcntOf h.readRxData.1 = rest.length ∧ FrameShape (h.readRxData.1 :: rest) ∧
      Cursor h.readRxData.2 done [h.readRxData.1] rest := by
  have ha := hc.access
  obtain ⟨f, fs, hwhole⟩ := List.exists_cons_of_ne_nil hw
  have hshape := ha.shapes f (by simp [ha.stored, hwhole])
  obtain ⟨w, rest, rfl, hcnt, hlen⟩ := hshape
  have hun : h.access.queue.unread = w :: (rest ++ fs.flatten) := by
    simp [Queue.unread, ha.reading, hwhole]
  have hpop : h.access.queue.pop = { h.access.queue with reading := rest, whole := fs } := by
    simp [Queue.pop, ha.reading, hwhole]
  have hval : h.readRxData.1 = w := by simp [RxSide.readRxData, hun]
  rw [hval]
  refine ⟨rest, hcnt, ⟨w, rest, rfl, hcnt, hlen⟩, ?_, ?_, ?_, ha.shapes, ha.coming⟩
  · simp [RxSide.readRxData, hun, ha.taken]
  · simp [RxSide.readRxData, hpop]
  · simp [RxSide.readRxData, hpop, ha.stored, hwhole]

/-- A frame with no words left is done. -/
theorem close (hc : Cursor h done part []) (hp : part ≠ []) : Cursor h (done ++ [part]) [] [] := by
  refine ⟨?_, hc.reading, ?_, hc.shapes, hc.coming⟩
  · simp [hc.taken]
  · simp [hc.stored, hp]

theorem skip (ws : List Word) (hc : Cursor h done part (ws ++ rest)) (hp : part ≠ []) :
    Cursor (skipWords ws.length h) done (part ++ ws) rest := by
  induction ws generalizing h part with
  | nil => simpa [skipWords] using hc
  | cons w ws ih =>
    have hnext := (hc.readNext hp).2
    have := ih hnext (by simp)
    rwa [List.append_assoc] at this

theorem data (ws : List Word) (i : Nat) (cf : CanfdFrame)
    (hc : Cursor h done part (ws ++ rest)) (hp : part ≠ []) :
    (readData ws.length i cf h).1 = cf.setWords i ws ∧
      Cursor (readData ws.length i cf h).2 done (part ++ ws) rest := by
  induction ws generalizing h part i cf with
  | nil => exact ⟨rfl, by simpa [readData] using hc⟩
  | cons w ws ih =>
    obtain ⟨hval, hnext⟩ := hc.readNext hp
    obtain ⟨hframe, hcur⟩ := ih (i + 4) (cf.setWord i h.readRxData.1) hnext (by simp)
    rw [List.append_assoc] at hcur
    refine ⟨?_, hcur⟩
    rw [List.length_cons, readData, hframe, hval, CanfdFrame.setWords]

/-- A call reads exactly the frame whose first word it has. -/
theorem frame {ffw : Word} (hc : Cursor h done [ffw] rest) (hshape : FrameShape (ffw :: rest)) :
    (readRxFrame blankFrame ffw h).1 = decode (ffw :: rest) ∧
      Cursor (readRxFrame blankFrame ffw h).2 (done ++ [ffw :: rest]) [] [] := by
  obtain ⟨w, ws, heq, hcnt, hmin, hmax⟩ := hshape
  obtain ⟨rfl, rfl⟩ := List.cons.inj heq
  obtain ⟨idw, tsLow, tsHigh, ws, rfl⟩ : ∃ a b c ws, rest = a :: b :: c :: ws := by
    match rest, hmin with
    | a :: b :: c :: ws, _ => exact ⟨a, b, c, ws, rfl⟩
  have hlong : ws.length ≤ 16 := by
    simp only [List.length_cons] at hmax
    omega
  have hreads := reads_add hcnt hlong
  obtain ⟨hidw, hc1⟩ := hc.readNext (by simp)
  have hc2 := hc1.skip [tsLow, tsHigh] (by simp)
  rw [← List.take_append_drop (dataReads ffw) ws] at hc2
  obtain ⟨hval, hc3⟩ := hc2.data _ 0 (rxHeader ffw idw blankFrame) (by simp)
  have hlen : (ws.take (dataReads ffw)).length = dataReads ffw := by
    rw [List.length_take]
    omega
  rw [hlen] at hval hc3
  have hpad : (ws.drop (dataReads ffw)).length = padReads ffw := by
    rw [List.length_drop]
    omega
  rw [← List.append_nil (ws.drop _)] at hc3
  have hc4 := (hc3.skip _ (by simp)).close (by simp)
  rw [hpad] at hc4
  rw [readRxFrame]
  simp only [hidw]
  refine ⟨hval, ?_⟩
  simpa using hc4

end Cursor

/-! ## Histories of polls -/

theorem RxPriv.alloc_keeps (p : RxPriv) : p.alloc.2.dev = p.dev ∧
    p.alloc.2.delivered = p.delivered ∧ p.alloc.2.firstWord = p.firstWord := by
  unfold RxPriv.alloc
  split <;> exact ⟨rfl, rfl, rfl⟩

/-- The driver has passed on the frames `done`, and nothing or the first word of the next
frame has been read since. -/
structure Framed (p : RxPriv) (done : List (List Word)) : Prop where
  delivered : p.delivered = done.map fun f => (f, decode f)
  between : p.firstWord = none → Cursor p.dev done [] []
  begun : ∀ w, p.firstWord = some w →
    ∃ rest, FrameShape (w :: rest) ∧ Cursor p.dev done [w] rest

namespace Framed

variable {p : RxPriv} {done : List (List Word)}

/-- Another access to a register. -/
theorem withDev {dev : RxSide} (h : Framed p done)
    (hdev : ∀ part rest, Cursor p.dev done part rest → Cursor dev done part rest) :
    Framed { p with dev } done := by
  refine ⟨h.delivered, fun hf => hdev _ _ (h.between hf), fun w hf => ?_⟩
  obtain ⟨rest, hshape, hc⟩ := h.begun w hf
  exact ⟨rest, hshape, hdev _ _ hc⟩

theorem alloc (h : Framed p done) : Framed p.alloc.2 done := by
  obtain ⟨hdev, hdel, hfirst⟩ := RxPriv.alloc_keeps p
  refine ⟨hdel.trans h.delivered, fun hf => hdev ▸ h.between (hfirst.symm.trans hf), ?_⟩
  intro w hf
  rw [hdev]
  exact h.begun w (hfirst.symm.trans hf)

/-- A frame of the buffer is open or comes next. -/
theorem takeFirstWord (h : Framed p done) (hcnt : 0 < p.dev.access.queue.frameCount) :
    ∃ rest, FrameShape (p.takeFirstWord.1 :: rest) ∧
      Cursor p.takeFirstWord.2.dev done [p.takeFirstWord.1] rest ∧
      p.takeFirstWord.2.delivered = p.delivered ∧ p.takeFirstWord.2.allocs = p.allocs ∧
      p.takeFirstWord.2.firstWord = none := by
  unfold RxPriv.takeFirstWord
  cases hf : p.firstWord with
  | some w =>
    obtain ⟨rest, hshape, hc⟩ := h.begun w hf
    exact ⟨rest, hshape, hc, rfl, rfl, rfl⟩
  | none =>
    have hc := h.between hf
    have hwhole : p.dev.access.queue.whole ≠ [] := by
      intro hnil
      simp [Queue.frameCount, hc.access.reading, hnil] at hcnt
    obtain ⟨rest, -, hshape, hc'⟩ := hc.readFirst hwhole
    exact ⟨rest, hshape, hc', rfl, rfl, rfl⟩

/-- The words taken for a frame are the words of that frame. -/
theorem deliver {ffw : Word} {rest : List Word} (hshape : FrameShape (ffw :: rest))
    (hc : Cursor p.dev done [ffw] rest) (hf : p.firstWord = none)
    (hdel : p.delivered = done.map fun f => (f, decode f)) :
    Framed (p.deliver ffw) (done ++ [ffw :: rest]) := by
  obtain ⟨hval, hnext⟩ := hc.frame hshape
  have hwords : (readRxFrame blankFrame ffw p.dev).2.taken.drop p.dev.taken.length = rest := by
    have hsplit : (done ++ [ffw :: rest]).flatten ++ [] = done.flatten ++ [ffw] ++ rest := by simp
    rw [hnext.taken, hc.taken, hsplit, List.drop_left]
  refine ⟨?_, fun _ => hnext, ?_⟩
  · simp only [RxPriv.deliver, hwords, hval, hdel, List.map_append, List.map_cons, List.map_nil]
  · intro w hw
    rw [RxPriv.deliver, hf] at hw
    cases hw

/-- With a socket buffer the next frame is passed on, otherwise its first word is kept. -/
theorem rx (h : Framed p done) (hcnt : 0 < p.dev.access.queue.frameCount) :
    (p.alloc.1 = true ∧ p.rx.1 = .passed ∧ ∃ f, Framed p.rx.2 (done ++ [f])) ∨
      (p.alloc.1 = false ∧ p.rx.1 = .noSkb ∧ Framed p.rx.2 done) := by
  obtain ⟨rest, hshape, hc, hdel, hallocs, hfirst⟩ := h.takeFirstWord hcnt
  have hrwcnt : rwcntOf p.takeFirstWord.1 ≠ 0 := by
    obtain ⟨w, ws, heq, hcnt, hmin, -⟩ := hshape
    obtain ⟨hw, -⟩ := List.cons.inj heq
    rw [hw]
    omega
  have hskb : p.takeFirstWord.2.alloc.1 = p.alloc.1 := by
    unfold RxPriv.alloc
    rw [hallocs]
    split <;> rfl
  obtain ⟨hdev, hdel', hfirst'⟩ := RxPriv.alloc_keeps p.takeFirstWord.2
  simp only [RxPriv.rx, if_neg hrwcnt, hskb]
  cases hok : p.alloc.1
  · right
    refine ⟨rfl, rfl, ?_, nofun, ?_⟩
    · exact hdel'.trans (hdel.trans h.delivered)
    · rintro w ⟨⟩
      exact ⟨rest, hshape, hdev ▸ hc⟩
  · left
    refine ⟨rfl, rfl, p.takeFirstWord.1 :: rest, ?_⟩
    exact deliver hshape (hdev ▸ hc) (hfirst'.trans hfirst) (hdel'.trans (hdel.trans h.delivered))

/-- Another status register is read or written. -/
theorem checkOverflow (h : Framed p done) : Framed p.checkOverflow done := by
  unfold RxPriv.checkOverflow
  have hread : Framed { p with dev := p.dev.readDor.2 } done := h.withDev fun _ _ hc => hc.access
  simp only
  split
  · refine hread.alloc.withDev fun _ _ hc => ?_
    have ha := hc.access
    exact ⟨ha.taken, ha.reading, ha.stored, ha.shapes, ha.coming⟩
  · exact hread

end Framed

namespace PollLoop

/-- The loop variables belong to the state of the driver. -/
structure Valid (l : PollLoop) (done : List (List Word)) : Prop where
  framed : Framed l.priv done
  framecnt : l.framecnt = l.priv.dev.queue.frameCount
  res : l.res ≠ .again

theorem access_frameCount (h : RxSide) : h.queue.frameCount ≤ h.access.queue.frameCount := by
  unfold RxSide.access
  split
  · exact Nat.le_refl _
  · simp [Queue.frameCount]

theorem valid_start {p : RxPriv} {done : List (List Word)} (h : Framed p done) :
    Valid (start p) done :=
  ⟨h.withDev fun _ _ hc => hc.access, rfl, by simp [start]⟩

/-- One pass passes on the next frame or fails to allocate. -/
theorem valid_body {l : PollLoop} {done : List (List Word)} (h : Valid l done)
    (hcnt : l.framecnt ≠ 0) :
    (l.priv.alloc.1 = true ∧ l.body.res = .passed ∧ ∃ f, Valid l.body (done ++ [f])) ∨
      (l.priv.alloc.1 = false ∧ l.body.res = .noSkb ∧ Valid l.body done) := by
  have hpos : 0 < l.priv.dev.access.queue.frameCount := by
    have := access_frameCount l.priv.dev
    rw [h.framecnt] at hcnt
    omega
  rcases h.framed.rx hpos with ⟨hok, hres, f, hf⟩ | ⟨hno, hres, hf⟩
  · left
    refine ⟨hok, hres, f, hf.withDev fun _ _ hc => hc.access, rfl, ?_⟩
    rw [show l.body.res = l.priv.rx.1 from rfl, hres]
    decide
  · right
    refine ⟨hno, hres, hf.withDev fun _ _ hc => hc.access, rfl, ?_⟩
    rw [show l.body.res = l.priv.rx.1 from rfl, hres]
    decide

/-- However the loop ends, the frames passed on follow each other. -/
theorem valid_run (n : Nat) {l : PollLoop} {done : List (List Word)} (h : Valid l done) :
    ∃ more, Valid (run n l) (done ++ more) := by
  induction n generalizing l done with
  | zero => exact ⟨[], by simpa [run] using h⟩
  | succ n ih =>
    rw [run]
    split_ifs with hgo
    · rcases valid_body h hgo.1 with ⟨-, -, f, hf⟩ | ⟨-, -, hf⟩
      · obtain ⟨more, hmore⟩ := ih hf
        exact ⟨f :: more, by simpa using hmore⟩
      · exact ih hf
    · exact ⟨[], by simpa using h⟩

end PollLoop

/-! ## Frames are only added -/

theorem RxSide.access_stored (h : RxSide) : h.stored <+: h.access.stored := by
  unfold RxSide.access
  split
  · exact List.prefix_rfl
  · exact List.prefix_append _ _

theorem RxSide.read_stored (h : RxSide) : h.stored <+: h.readRxData.2.stored := h.access_stored

theorem skipWords_stored (n : Nat) (h : RxSide) : h.stored <+: (skipWords n h).stored := by
  induction n generalizing h with
  | zero => exact List.prefix_rfl
  | succ n ih => exact h.read_stored.trans (ih h.readRxData.2)

theorem readData_stored (n i : Nat) (cf : CanfdFrame) (h : RxSide) :
    h.stored <+: (readData n i cf h).2.stored := by
  induction n generalizing i cf h with
  | zero => exact List.prefix_rfl
  | succ n ih => exact h.read_stored.trans (ih (i + 4) _ h.readRxData.2)

theorem readRxFrame_stored (cf : CanfdFrame) (ffw : Word) (h : RxSide) :
    h.stored <+: (readRxFrame cf ffw h).2.stored :=
  h.read_stored.trans <| (skipWords_stored 2 _).trans <|
    (readData_stored (dataReads ffw) 0 _ _).trans (skipWords_stored (padReads ffw) _)

theorem RxPriv.rx_stored (p : RxPriv) : p.dev.stored <+: p.rx.2.dev.stored := by
  have hfirst : p.dev.stored <+: p.takeFirstWord.2.dev.stored := by
    unfold RxPriv.takeFirstWord
    split
    · exact List.prefix_rfl
    · exact p.dev.read_stored
  have hdev := (RxPriv.alloc_keeps p.takeFirstWord.2).1
  unfold RxPriv.rx
  simp only
  split_ifs
  · exact hfirst
  · refine hfirst.trans ?_
    rw [← hdev]
    exact readRxFrame_stored _ _ _
  · rw [← hdev] at hfirst
    exact hfirst

namespace PollLoop

theorem body_stored (l : PollLoop) : l.priv.dev.stored <+: l.body.priv.dev.stored :=
  l.priv.rx_stored.trans (RxSide.access_stored _)

theorem run_stored (n : Nat) (l : PollLoop) : l.priv.dev.stored <+: (run n l).priv.dev.stored := by
  induction n generalizing l with
  | zero => exact List.prefix_rfl
  | succ n ih =>
    rw [run]
    split_ifs
    · exact l.body_stored.trans (ih l.body)
    · exact List.prefix_rfl

end PollLoop

/-- The frame count is the number of stored frames that have not been passed on. -/
theorem Framed.frameCount {p : RxPriv} {done : List (List Word)} (h : Framed p done) :
    p.dev.stored.length = done.length + p.dev.queue.frameCount := by
  cases hf : p.firstWord with
  | none =>
    have hc := h.between hf
    simp [hc.stored, Queue.frameCount, hc.reading]
  | some w =>
    obtain ⟨rest, ⟨v, ws, heq, -, hmin, -⟩, hc⟩ := h.begun w hf
    obtain ⟨-, rfl⟩ := List.cons.inj heq
    simp only [hc.stored, Queue.frameCount, hc.reading, List.length_append, List.length_cons,
      List.length_nil, if_neg (List.cons_ne_nil _ _)]
    omega

/-- Without a failed allocation every pass of the loop passes on a frame, until the quota is
used up or no frame is left. -/
theorem PollLoop.run_passes (n : Nat) {l : PollLoop} {done : List (List Word)} (h : Valid l done)
    (hres : l.res = .passed) (hend : (PollLoop.run n l).res ≠ .noSkb) :
    ∃ more, Valid (PollLoop.run n l) (done ++ more) ∧
      (PollLoop.run n l).workDone = l.workDone + more.length ∧
      (more.length = n ∨ (PollLoop.run n l).framecnt = 0) := by
  induction n generalizing l done with
  | zero => exact ⟨[], by simpa [PollLoop.run] using h, rfl, .inl rfl⟩
  | succ n ih =>
    rw [PollLoop.run] at hend ⊢
    split_ifs at hend ⊢ with hgo
    · rcases valid_body h hgo.1 with ⟨-, hpass, f, hf⟩ | ⟨-, hno, hf⟩
      · obtain ⟨more, hv, hwork, hlast⟩ := ih hf hpass hend
        refine ⟨f :: more, by simpa using hv, ?_, ?_⟩
        · rw [hwork, List.length_cons]
          exact Nat.add_right_comm _ _ _
        · simpa using hlast
      · -- after a failure the loop ends
        exfalso
        apply hend
        cases n with
        | zero => exact hno
        | succ n =>
          rw [PollLoop.run, if_neg (by simp [hno])]
          exact hno
    · refine ⟨[], by simpa using h, rfl, .inr ?_⟩
      by_contra hne
      exact hgo ⟨hne, hres⟩

/-- A sequence of calls, each with its quota and the result of `napi_complete_done`. -/
def polls (p : RxPriv) (calls : List (Nat × Bool)) : RxPriv :=
  calls.foldl (fun p c => (rxPoll c.1 c.2 p).priv) p

theorem Framed.rxPoll {p : RxPriv} {done : List (List Word)} (h : Framed p done) (quota : Nat)
    (ok : Bool) : ∃ more, Framed (rxPoll quota ok p).priv (done ++ more) := by
  obtain ⟨more, hl⟩ := PollLoop.valid_run quota (PollLoop.valid_start h)
  have hchk := hl.framed.checkOverflow
  refine ⟨more, ?_⟩
  unfold Driver.rxPoll
  simp only
  split_ifs
  · exact ⟨hchk.delivered, (hchk.withDev fun _ _ hc => hc.access.access).between,
      (hchk.withDev fun _ _ hc => hc.access.access).begun⟩
  · exact hchk
  · exact hchk

theorem Framed.polls {p : RxPriv} {done : List (List Word)} (h : Framed p done)
    (calls : List (Nat × Bool)) : ∃ more, Framed (polls p calls) (done ++ more) := by
  induction calls generalizing p done with
  | nil => exact ⟨[], by simpa [Driver.polls] using h⟩
  | cons c cs ih =>
    obtain ⟨more, hp⟩ := h.rxPoll c.1 c.2
    obtain ⟨more', hps⟩ := ih hp
    exact ⟨more ++ more', by simpa [Driver.polls] using hps⟩

/-- The driver before its first call. -/
structure Fresh (p : RxPriv) : Prop where
  delivered : p.delivered = []
  firstWord : p.firstWord = none
  taken : p.dev.taken = []
  reading : p.dev.queue.reading = []
  stored : p.dev.stored = p.dev.queue.whole
  shapes : ∀ f ∈ p.dev.stored, FrameShape f
  coming : ∀ a ∈ p.dev.arrivals, ∀ f ∈ a.frames, FrameShape f

theorem Fresh.framed {p : RxPriv} (h : Fresh p) : Framed p [] where
  delivered := h.delivered
  between _ := ⟨by simp [h.taken], h.reading, by simp [h.stored], h.shapes, h.coming⟩
  begun w hw := by
    rw [h.firstWord] at hw
    cases hw

/-- The loop of a call does not end with a failed allocation. -/
def Allocates (quota : Nat) (p : RxPriv) : Prop :=
  (PollLoop.run quota (PollLoop.start p)).res ≠ .noSkb

instance (quota : Nat) (p : RxPriv) : Decidable (Allocates quota p) :=
  inferInstanceAs (Decidable (_ ≠ _))

theorem rxPoll_delivered (quota : Nat) (ok : Bool) (p : RxPriv) :
    (rxPoll quota ok p).priv.delivered =
        (PollLoop.run quota (PollLoop.start p)).priv.delivered ∧
      (rxPoll quota ok p).workDone = (PollLoop.run quota (PollLoop.start p)).workDone := by
  have hchk : ∀ q : RxPriv, q.checkOverflow.delivered = q.delivered := by
    intro q
    unfold RxPriv.checkOverflow
    simp only
    split
    · exact (RxPriv.alloc_keeps _).2.1
    · rfl
  unfold rxPoll
  simp only
  split_ifs
  · exact ⟨hchk _, rfl⟩
  · exact ⟨hchk _, rfl⟩
  · exact ⟨hchk _, rfl⟩

namespace Framed

variable {q : RxPriv} {done : List (List Word)}

theorem shapes (hf : Framed q done) : ∀ f ∈ q.dev.stored, FrameShape f := by
  cases hw : q.firstWord with
  | none => exact (hf.between hw).shapes
  | some w =>
    obtain ⟨rest, -, hc⟩ := hf.begun w hw
    exact hc.shapes

theorem take_done (hf : Framed q done) : q.dev.stored.take done.length = done := by
  cases hw : q.firstWord with
  | none => simp [(hf.between hw).stored]
  | some w =>
    obtain ⟨rest, -, hc⟩ := hf.begun w hw
    simp [hc.stored]

/-- A call without a failed allocation uses up its quota or passes on all frames that were stored
when it began. -/
theorem poll_progress (hf : Framed q done) {quota : Nat} (ok : Bool)
    (halloc : Allocates quota q) :
    (Driver.rxPoll quota ok q).priv.delivered.length =
        done.length + (Driver.rxPoll quota ok q).workDone ∧
      ((Driver.rxPoll quota ok q).workDone = quota ∨
        q.dev.stored.length ≤ (Driver.rxPoll quota ok q).priv.delivered.length) := by
  obtain ⟨hdel, hwork⟩ := rxPoll_delivered quota ok q
  obtain ⟨more, hv, hpass, hlast⟩ :=
    PollLoop.run_passes quota (PollLoop.valid_start hf) rfl halloc
  have hlen : (Driver.rxPoll quota ok q).priv.delivered.length = done.length + more.length := by
    rw [hdel, hv.framed.delivered]
    simp
  have hmore : (Driver.rxPoll quota ok q).workDone = more.length := by
    rw [hwork, hpass]
    exact Nat.zero_add _
  refine ⟨by rw [hlen, hmore], ?_⟩
  rcases hlast with hquota | hempty
  · exact .inl (hmore.trans hquota)
  · right
    have hend := hv.framed.frameCount
    rw [← hv.framecnt, hempty] at hend
    have hgrow := ((RxSide.access_stored q.dev).trans
      (PollLoop.run_stored quota (PollLoop.start q))).length_le
    rw [hlen]
    simpa [hend] using hgrow

end Framed

/-- A classical frame with identifier 0x123 and one byte, and a remote frame. -/
def storedFrames : List (List Word) := [[0x2001, 0x48C0000, 1, 0, 0x5A], [0x1820, 0x48C0000, 2, 0]]

/-- The allocations fail as given. -/
def waiting (allocs : List Bool) : RxPriv where
  dev := ⟨⟨[], storedFrames, []⟩, false, [], [], storedFrames⟩
  firstWord := none
  allocs
  delivered := []
  rbneiMasked := true

theorem fresh_waiting (allocs : List Bool) : Fresh (waiting allocs) := by
  refine ⟨rfl, rfl, rfl, rfl, rfl, ?_, nofun⟩
  intro f hf
  rcases List.mem_cons.mp hf with rfl | hf
  · exact ⟨_, _, rfl, by decide, by decide, by decide⟩
  · obtain rfl := List.mem_singleton.mp hf
    exact ⟨_, _, rfl, by decide, by decide, by decide⟩

end Driver
